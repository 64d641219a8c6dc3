import FepParticipant.Automation.SystemStateCollector

/-! The requests of one automation interface, the listeners they register at its module, and the
answers of the participants, which may arrive at any later time, more than once or never. -/
namespace FepParticipant.Automation
open StateMachine

/-- `tControlEvent`. -/
inductive ControlEvent where
  | ceInitialize
  | ceStart
  | ceStop
  | ceShutdown
  | ceErrorFixed
  | ceRestart
  deriving DecidableEq

def ControlEvent.expectedState : ControlEvent → State
  | .ceInitialize => .fsReady
  | .ceStart => .fsRunning
  | .ceStop => .fsIdle
  | .ceShutdown => .fsShutdown
  | .ceErrorFixed => .fsIdle
  | .ceRestart => .fsStartup

/-- The commands `PerformCommandAwaitResult` is called with. -/
inductive AwaitedCommand where
  | registerSignalDescription (strDescription : String)
  | clearSignalDescriptions
  | registerMappingConfiguration (strConfiguration : String)
  | clearMappingConfiguration
  | muteParticipant (bMute : Bool)
  | muteSignal (strSignalName : String) (bMute : Bool)
  deriving DecidableEq

inductive Command where
  | resolveSignalType (strSignalType : String)
  | getSignalInfo
  | nameChange (strNewName : String)
  | control (eEvent : ControlEvent)
  | awaited (command : AwaitedCommand)

inductive Request where
  | resolveSignalType (strSignalType strParticipantName : String) (tmTimeout : Int)
  | getParticipantSignals (strParticipantName : String) (tmTimeout : Int)
  | getParticipantsSignals (vecParticipantList : List String) (tmTimeout : Int)
  | renameParticipant (strNewParticipantName strParticipantName : String) (tmTimeout : Int)
  | triggerEventSync (eEvent : ControlEvent) (strParticipantName : String) (tmTimeout : Int)
  | performCommand (command : AwaitedCommand) (strParticipantName : String) (tmTimeout : Int)
  deriving DecidableEq

def containsWildcards (strName : String) : Bool := strName.toList.contains '*' || strName.toList.contains '?'

def namesOne (strParticipantName : String) (tmTimeout : Int) : Bool :=
  !(strParticipantName.isEmpty || containsWildcards strParticipantName || decide (tmTimeout ≤ 0))

/-- The checks before a command is run; all end in `PerformCommandAwaitResult`, which refuses a
negative timeout only. -/
def AwaitedCommand.accepts (strParticipantName : String) (tmTimeout : Int) : AwaitedCommand → Bool
  | .registerSignalDescription text | .registerMappingConfiguration text =>
    !text.isEmpty && namesOne strParticipantName tmTimeout
  | .clearSignalDescriptions | .clearMappingConfiguration => namesOne strParticipantName tmTimeout
  | .muteSignal _ true => !(strParticipantName.isEmpty || containsWildcards strParticipantName) && !decide
    (tmTimeout < 0)
  -- `UnmuteSignal` checks no name
  | .muteSignal _ false | .muteParticipant _ => !decide (tmTimeout < 0)

/-- What the requests use of other code, and whether a `fep::Result` made of a boolean is a failure. -/
structure AutomationInterface where
  moduleName : String
  fullMatch : String → String → Bool
  cookie : Nat → Int
  checkValidity : String → Bool
  failedBool : Bool → Bool

/-- Whether the arguments of a request pass its checks. -/
def AutomationInterface.accepts (interface : AutomationInterface) : Request → Bool
  | .resolveSignalType _ strParticipantName tmTimeout | .getParticipantSignals strParticipantName tmTimeout =>
    namesOne strParticipantName tmTimeout
  | .getParticipantsSignals _ tmTimeout => !decide (tmTimeout ≤ 0)
  | .renameParticipant strNewParticipantName strParticipantName tmTimeout =>
    !strNewParticipantName.isEmpty && namesOne strParticipantName tmTimeout &&
      interface.checkValidity strNewParticipantName
  | .triggerEventSync _ strParticipantName tmTimeout =>
    !(decide (tmTimeout ≤ 0) || containsWildcards strParticipantName)
  | .performCommand command strParticipantName tmTimeout => command.accepts strParticipantName tmTimeout

/-- The commands a request transmits one after the other, and their receivers. -/
def Request.commands : Request → List (Command × String)
  | .resolveSignalType strSignalType strParticipantName _ => [(.resolveSignalType strSignalType,strParticipantName)]
  | .getParticipantSignals strParticipantName _ => [(.getSignalInfo,strParticipantName)]
  | .getParticipantsSignals vecParticipantList _ => vecParticipantList.map fun strName => (.getSignalInfo,strName)
  | .renameParticipant strNewParticipantName strParticipantName _ =>
    [(.nameChange strNewParticipantName,strParticipantName)]
  | .triggerEventSync eEvent strParticipantName _ => [(.control eEvent,strParticipantName)]
  | .performCommand command strParticipantName _ => [(.awaited command,strParticipantName)]

def Command.listener (cookie : Int) (receiver : String) : Command → NotificationListener
  | .resolveSignalType _ => .new .airtResolveSignalType receiver
  | .getSignalInfo => .new .airtSignalInfo receiver
  | .nameChange strNewName => {NotificationListener.new .airtNameChanged strNewName with strOldName := receiver}
  | .control eEvent =>
    {NotificationListener.new .airtElementState receiver with expectedWait4State := .known eEvent.expectedState}
  | .awaited _ => {NotificationListener.new .airtResultCode receiver with resultCodeCookie := cookie}

/-- What a participant answers to a command. -/
inductive Answer where
  | signalInfo (rxList txList : Option (List String))
  | signalDescription (strSignalDescription : String)
  | resultCode (nResultCode : Result)

/-- The notification that answers a command, if it is one that is answered in this way. -/
def Command.answer (cookie : Int) : Command → Answer → Option Content
  | .resolveSignalType _, .signalDescription strSignalDescription => some (.signalDescription strSignalDescription)
  | .getSignalInfo, .signalInfo rxList txList => some (.signalInfo rxList txList)
  | .awaited _, .resultCode nResultCode => some (.resultCode cookie nResultCode)
  | _, _ => none

/-- Those notifications a participant sends without being asked. -/
def Content.isUnasked : Content → Bool
  | .state _ | .property .. | .nameChanged _ => true
  | .signalInfo .. | .signalDescription _ | .resultCode .. => false

/-- The receiver of a message as a regular expression. -/
def receiverFilter (strReceiver : String) : String :=
  String.ofList (strReceiver.toList.flatMap fun c => if c = '*' then ['.','*'] else if c = '?' then ['.'] else [c])

/-- Whether a message of the module is one for the participant. -/
def AutomationInterface.addresses (interface : AutomationInterface) (receiver participant : String) : Bool :=
  interface.fullMatch (receiverFilter receiver) participant && participant != interface.moduleName

inductive Delivered where
  | description (strSignalDescription : String)
  | signals (oSignals : List ListedSignal)
  | resultCode (nResultCode : Result)
  deriving DecidableEq

def Content.delivered : Content → Option Delivered
  | .signalDescription strSignalDescription => some (.description strSignalDescription)
  | .signalInfo rxList txList => some (.signals (participantSignals rxList txList))
  | .resultCode _ nResultCode => some (.resultCode nResultCode)
  | _ => none

/-- How far the exchange of one command has come. -/
inductive Phase where
  | registered
  | waiting
  | woken (nResult : Result)
  deriving DecidableEq

/-- One command, with its listener on the stack; the number tells the listeners of different calls apart. -/
structure Exchange where
  number : Nat
  command : Command
  receiver : String
  listener : NotificationListener
  phase : Phase

/-- What the listener holds for the caller. -/
def Exchange.value (exchange : Exchange) : Option Delivered :=
  match exchange.command with
  | .resolveSignalType _ => some (.description exchange.listener.strSignalDescription)
  | .getSignalInfo => some (.signals exchange.listener.participantSignals)
  | .awaited _ => some (.resultCode exchange.listener.receivedResultCode)
  | .nameChange _ | .control _ => none

def Exchange.result (failedBool : Bool → Bool) (exchange : Exchange) (nResult : Result) : Result :=
  if isFailed nResult then nResult
  else match exchange.command with
    | .resolveSignalType _ => exchange.listener.getSignalDescription failedBool
    | .getSignalInfo | .nameChange _ => nResult
    | .control _ => if exchange.listener.isError then .errFailed else nResult
    | .awaited _ => exchange.listener.receivedResultCode

/-- The result of a command that could not be transmitted; `TriggerRemoteEvent` refuses an empty name. -/
def Exchange.transmitFailed (exchange : Exchange) : Result :=
  match exchange.command with
  | .control _ => if exchange.receiver.isEmpty then .errInvalidArg else .errFailed
  | _ => .errFailed

inductive ListenerId where
  | foreign (number : Nat)
  | own (number : Nat)
  deriving DecidableEq

/-- A request in progress; on record the listeners and the number of commands when it was called. -/
structure Call where
  request : Request
  before : List ListenerId
  first : Nat
  pending : List (Command × String)
  exchange : Option Exchange
  nResult : Result
  delivered : List (Nat × Delivered)

/-- A request that has returned; its commands were those from `first` on and before `last`. -/
structure Returned where
  request : Request
  before : List ListenerId
  after : List ListenerId
  first : Nat
  last : Nat
  nResult : Result
  delivered : List (Nat × Delivered)
  deriving DecidableEq

/-- The module's listeners, the request in progress, and on record the commands, those transmitted, all answers and
returns, and whether a listener was called out of scope. -/
structure AutomationState where
  registered : List ListenerId
  call : Option Call
  commands : List (Command × String)
  transmitted : List Nat
  answered : List Notification
  returned : List Returned
  goneOutOfScope : Bool

def AutomationState.start (listeners : List Nat) : AutomationState :=
  ⟨listeners.map .foreign,none,[],[],[],[],false⟩

namespace AutomationState
variable (state : AutomationState)

def exchange (state : AutomationState) : Option Exchange := state.call.bind (·.exchange)

/-- `RegisterNotificationListener`, which ensures uniqueness. -/
def registerNotificationListener (id : ListenerId) : AutomationState :=
  {state with registered := if id ∈ state.registered then state.registered else state.registered ++ [id]}

/-- `UnregisterNotificationListener`. -/
def unregisterNotificationListener (id : ListenerId) : AutomationState :=
  {state with registered := state.registered.erase id}

/-- Of the listeners on the stack only that of the exchange in progress is still there. -/
def outOfScope : ListenerId → Bool
  | .foreign _ => false
  | .own number => !(state.exchange.any fun exchange => exchange.number == number)

/-- A notification reaches all registered listeners, also one that has gone out of scope. -/
def notifyListeners (notification : Notification) : AutomationState :=
  { state with
    call := state.call.map fun call =>
      { call with exchange := call.exchange.map fun exchange =>
          if ListenerId.own exchange.number ∈ state.registered then
            {exchange with listener := exchange.listener.update notification}
          else exchange }
    goneOutOfScope := state.goneOutOfScope || state.registered.any state.outOfScope }

def endExchange (call : Call) (nResult : Result) (delivered : List (Nat × Delivered)) :
    AutomationState :=
  { state with call := some { call with
      exchange := none
      nResult := if isFailed nResult then nResult else call.nResult
      delivered := call.delivered ++ delivered } }

/-- After the wait the listener is unregistered, but not when `ResolveSignalType` has timed out. -/
def finishExchange (interface : AutomationInterface) (state : AutomationState) (call : Call) (exchange : Exchange)
    (nResult : Result) : AutomationState :=
  let result := exchange.result interface.failedBool nResult
  let unregistered := match exchange.command with
    | .resolveSignalType _ =>
      if isFailed nResult then state else state.unregisterNotificationListener (.own exchange.number)
    | _ => state.unregisterNotificationListener (.own exchange.number)
  unregistered.endExchange call result
    (if isOk result then (exchange.value.map fun value => (exchange.number,value)).toList else [])

end AutomationState

/-- The caller begins a request, registers the next listener or returns, transmits, is woken up, gives up waiting or
finishes; a participant answers; a notification is delivered. -/
inductive AutomationAction where
  | begin (request : Request)
  | next
  | transmit (succeeds : Bool)
  | wake
  | timeOut
  | finish
  | respond (number : Nat) (participant : String) (answer : Answer)
  | deliver (notification : Notification)

namespace AutomationInterface
open AutomationState

variable (interface : AutomationInterface)
variable (state : AutomationState)

/-- A request whose arguments are refused returns at once. -/
def begin (request : Request) : Option AutomationState :=
  if state.call.isSome then none
  else if interface.accepts request then
    some { state with
      call := some ⟨request,state.registered,state.commands.length,request.commands,none,.errNoError,[]⟩ }
  else
    some { state with
      returned := state.returned ++ [⟨request,state.registered,state.registered,state.commands.length,
        state.commands.length,.errInvalidArg,[]⟩] }

/-- The next command is built and its listener registered; after the last one the request returns. -/
def next : Option AutomationState :=
  match state.call with
  | none => none
  | some call =>
    if call.exchange.isSome then none
    else match call.pending with
      | [] => some { state with
          call := none
          returned := state.returned ++ [⟨call.request,call.before,state.registered,call.first,
            state.commands.length,call.nResult,call.delivered⟩] }
      | (command,receiver)::pending =>
        let number := state.commands.length
        let listener := command.listener (interface.cookie number) receiver
        let issued := { state with
          commands := state.commands ++ [(command,receiver)]
          call := some { call with
            pending := pending
            exchange := some ⟨number,command,receiver,listener,.registered⟩ } }
        some (issued.registerNotificationListener (.own number))

/-- The command is transmitted, or its listener unregistered again. -/
def transmit (succeeds : Bool) : Option AutomationState :=
  match state.call with
  | none => none
  | some call => match call.exchange with
    | none => none
    | some exchange =>
      if exchange.phase ≠ .registered then none
      else if succeeds then
        some { state with
          transmitted := exchange.number::state.transmitted
          call := some {call with exchange := some {exchange with phase := .waiting}} }
      else
        some ((state.unregisterNotificationListener (.own exchange.number)).endExchange call
          exchange.transmitFailed [])

/-- The wait ends with a notification if there is one, else with the timeout. -/
def wake (timedOut : Bool) : Option AutomationState :=
  match state.call with
  | none => none
  | some call => match call.exchange with
    | none => none
    | some exchange =>
      if exchange.phase ≠ .waiting ∨ timedOut = decide (0 < exchange.listener.eventNotificationReceived) then none
      else
        some { state with call := some { call with exchange := some { exchange with
          listener := { exchange.listener with
            eventNotificationReceived := exchange.listener.eventNotificationReceived - 1 }
          phase := .woken (if timedOut then .errTimeout else .errNoError) } } }

def finish : Option AutomationState :=
  match state.call with
  | none => none
  | some call => match call.exchange with
    | none => none
    | some exchange => match exchange.phase with
      | .woken nResult => some (state.finishExchange interface call exchange nResult)
      | .registered | .waiting => none

def respond (number : Nat) (participant : String) (answer : Answer) :
    Option AutomationState :=
  match state.commands[number]? with
  | none => none
  | some (command,receiver) =>
    if number ∈ state.transmitted ∧ interface.addresses receiver participant then
      (command.answer (interface.cookie number) answer).map fun content =>
        {state with answered := ⟨participant,content,some number⟩::state.answered}
    else none

/-- An answer arrives, or a notification nobody asked for. -/
def deliver (notification : Notification) : Option AutomationState :=
  if notification ∈ state.answered ∨ notification.answers = none ∧ notification.content.isUnasked then
    some (state.notifyListeners notification)
  else none

def step : AutomationAction → Option AutomationState
  | .begin request => interface.begin state request
  | .next => interface.next state
  | .transmit succeeds => transmit state succeeds
  | .wake => wake state false
  | .timeOut => wake state true
  | .finish => interface.finish state
  | .respond number participant answer => interface.respond state number participant answer
  | .deliver notification => deliver state notification

end AutomationInterface
end FepParticipant.Automation
