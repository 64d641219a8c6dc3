import FepParticipant.StateMachine.SetState
import FepParticipant.Library.OrderedMap
import Mathlib.Data.String.Basic

/-! The notification listener of the automation interface, and what it keeps of the
notifications its request waits for. -/
namespace FepParticipant.Automation
open StateMachine Library

/-- `tState`; only the state of a remote participant can be unknown. -/
inductive RemoteState where
  | known (state : State)
  | fsUnknown
  deriving DecidableEq

namespace RemoteState

/-- `cState::ToString`. -/
def toString : RemoteState → String
  | .known state => state.toString
  | .fsUnknown => "FS_UNKNOWN"

/-- The states in the order in which `cState::FromString` compares them. -/
def all : List RemoteState :=
  [.known .fsStartup,.known .fsIdle,.known .fsInitializing,.known .fsReady,.known .fsRunning,
    .known .fsError,.known .fsShutdown,.fsUnknown]

/-- `cState::FromString`. -/
def fromString (strState : String) : Option RemoteState := all.find? fun state => strState == state.toString

end RemoteState

/-- `tSignalDirection` of the signals a participant lists. -/
inductive ListedDirection where
  | sdInput
  | sdOutput
  deriving DecidableEq

/-- The name, direction and type of `cUserSignalOptions`. -/
structure ListedSignal where
  strName : String
  direction : ListedDirection
  strType : String
  deriving DecidableEq

inductive Content where
  | signalInfo (rxList txList : Option (List String))
  | signalDescription (strSignalDescription : String)
  | state (eState : RemoteState)
  | property (strPath : String) (strVal : Option String)
  | resultCode (nCommandCookie : Int) (nResultCode : Result)
  | nameChanged (strOldName : String)
  deriving DecidableEq

/-- A notification; on record the number of the command it answers, which no message carries. -/
structure Notification where
  sender : String
  content : Content
  answers : Option Nat
  deriving DecidableEq

/-- `tAI_RequestType`. -/
inductive RequestType where
  | airtSignalInfo
  | airtResolveSignalType
  | airtElementState
  | airtResultCode
  | airtNameChanged
  deriving DecidableEq

/-- `g_strElementHeaderPath_strElementCurrentState`. -/
def currentStatePath : String := "Header.CurrentState"

/-- The loop over the names and types of a signal list. -/
def listedSignals (direction : ListedDirection) : List String → List ListedSignal
  | strName::strType::rest => ⟨strName,direction,strType⟩::listedSignals direction rest
  | _ => []

def participantSignals (rxList txList : Option (List String)) : List ListedSignal :=
  listedSignals .sdInput (rxList.getD []) ++ listedSignals .sdOutput (txList.getD [])

/-- `cAINotificationListener`. -/
structure NotificationListener where
  strRemoteParticipant : String
  eRequestType : RequestType
  eventNotificationReceived : Nat
  isError : Bool
  participantSignals : List ListedSignal
  resultCodeCookie : Int
  strSignalDescription : String
  expectedWait4State : RemoteState
  receivedResultCode : Result
  strOldName : String

namespace NotificationListener
variable (listener : NotificationListener)
variable (sender : String)

/-- The constructor; the cookie, the expected state and the old name are set before it is registered. -/
def new (eRequestType : RequestType) (strRemoteModuleName : String) : NotificationListener :=
  { strRemoteParticipant := strRemoteModuleName
    eRequestType := eRequestType
    eventNotificationReceived := 0
    isError := false
    participantSignals := []
    resultCodeCookie := 0
    strSignalDescription := ""
    expectedWait4State := .known .fsStartup
    receivedResultCode := .errFailed
    strOldName := "" }

def notify : NotificationListener :=
  {listener with eventNotificationReceived := listener.eventNotificationReceived + 1}

def updateSignalInfo (rxList txList : Option (List String)) :
    NotificationListener :=
  if listener.eRequestType ≠ .airtSignalInfo ∨ listener.strRemoteParticipant ≠ sender then listener
  else notify {listener with participantSignals := Automation.participantSignals rxList txList}

def updateDescription (strSignalDescription : String) :
    NotificationListener :=
  if listener.eRequestType ≠ .airtResolveSignalType ∨ listener.strRemoteParticipant ≠ sender then listener
  else notify {listener with strSignalDescription := strSignalDescription}

def updateState (eState : RemoteState) : NotificationListener :=
  if listener.eRequestType ≠ .airtElementState ∨ listener.strRemoteParticipant ≠ sender then listener
  else if eState = listener.expectedWait4State then notify {listener with isError := false}
  else if eState = .known .fsError then notify {listener with isError := true}
  else listener

/-- A property that is missing or has no readable value is refused. -/
def updateProperty (strPath : String) (strVal : Option String) :
    NotificationListener :=
  if listener.eRequestType ≠ .airtElementState ∨ listener.strRemoteParticipant ≠ sender ∨
      strPath ≠ currentStatePath then listener
  else if strVal.bind RemoteState.fromString = some listener.expectedWait4State then listener.notify
  else listener

/-- The sender is not compared. -/
def updateResultCode (nCommandCookie : Int) (nResultCode : Result) :
    NotificationListener :=
  if listener.eRequestType ≠ .airtResultCode ∨ nCommandCookie ≠ listener.resultCodeCookie then listener
  else notify {listener with receivedResultCode := nResultCode}

def updateNameChanged (strOldName : String) : NotificationListener :=
  if listener.eRequestType ≠ .airtNameChanged ∨ listener.strRemoteParticipant ≠ sender then listener
  else if strOldName = listener.strOldName then listener.notify
  else listener

/-- `Update`, by the kind of the notification. -/
def update (notification : Notification) : NotificationListener :=
  match notification.content with
  | .signalInfo rxList txList => listener.updateSignalInfo notification.sender rxList txList
  | .signalDescription strSignalDescription => listener.updateDescription notification.sender strSignalDescription
  | .state eState => listener.updateState notification.sender eState
  | .property strPath strVal => listener.updateProperty notification.sender strPath strVal
  | .resultCode nCommandCookie nResultCode => listener.updateResultCode nCommandCookie nResultCode
  | .nameChanged strOldName => listener.updateNameChanged notification.sender strOldName

/-- `GetSignalDescription`; whether a `fep::Result` made of a boolean is a failure is up to its library. -/
def getSignalDescription (failedBool : Bool → Bool) (listener : NotificationListener) : Result :=
  if failedBool (!listener.strSignalDescription.isEmpty) then .errNotFound else .errNoError

end NotificationListener

/-- The numeric value of a `tState`. -/
def RemoteState.value : RemoteState → Nat
  | .known .fsStartup => 0
  | .known .fsIdle => 1
  | .known .fsInitializing => 2
  | .known .fsReady => 3
  | .known .fsRunning => 4
  | .known .fsError => 5
  | .known .fsShutdown => 6
  | .fsUnknown => 7

/-- All states, ordered by their weight. -/
def arrStates : List State := [.fsShutdown,.fsError,.fsStartup,.fsIdle,.fsInitializing,.fsReady,.fsRunning]

def arrWeight : List Nat :=
  arrStates.zipIdx.foldl (fun table entry => table.set (RemoteState.known entry.1).value entry.2)
    (List.replicate arrStates.length 0)

/-- `tCollectionMap`. -/
abbrev CollectionMap := List (String × RemoteState)

/-- The loop of `GetAggregatedState`; none if it reads outside the table. -/
def minWeight : CollectionMap → Nat → Option Nat
  | [], nMinWeight => some nMinWeight
  | entry::entries, nMinWeight => do
    let weight ← arrWeight[entry.2.value]?
    minWeight entries (if weight < nMinWeight then weight else nMinWeight)

/-- `GetAggregatedState`; none if it reads outside the table. -/
def getAggregatedState (mapModuleStates : CollectionMap) : Option State := do
  let running ← arrWeight[(RemoteState.known .fsRunning).value]?
  let nMinWeight ← minWeight mapModuleStates running
  arrStates[nMinWeight]?

/-- `g_strElementHeaderField_strElementCurrentState`. -/
def currentStateField : String := "CurrentState"

/-- A notification of a property and the text of its value, or of a state. -/
inductive StateMessage where
  | property (sender strPath : String) (strState : Option String)
  | state (sender : String) (eState : RemoteState)

/-- `cSystemStateCollector`. -/
structure SystemStateCollector where
  mapModuleStates : CollectionMap
  responsesCollected : Nat
  waitForSystemState : Bool
  targetSystemState : RemoteState
  eventFinished : Nat

namespace SystemStateCollector
variable (collector : SystemStateCollector)

def new (waitForSystemState : Bool) (targetSystemState : RemoteState) : SystemStateCollector :=
  ⟨[],0,waitForSystemState,targetSystemState,0⟩

/-- `it->second = eState`. -/
def setState (mapModuleStates : CollectionMap) (name : String) (eState : RemoteState) : CollectionMap :=
  mapModuleStates.map fun entry => if entry.1 = name then (entry.1,eState) else entry

def onStateReceived (name : String) (eState : RemoteState) :
    SystemStateCollector :=
  let responsesCollected :=
    if (name,.fsUnknown) ∈ collector.mapModuleStates then collector.responsesCollected + 1
    else collector.responsesCollected
  let mapModuleStates := setState collector.mapModuleStates name eState
  let received := { collector with
    mapModuleStates := mapModuleStates
    responsesCollected := responsesCollected }
  -- only when all modules have reported, and for a target state only if it is the aggregated one
  if responsesCollected = mapModuleStates.length ∧
      (collector.waitForSystemState = false ∨
        (getAggregatedState mapModuleStates).map .known = some collector.targetSystemState) then
    {received with eventFinished := received.eventFinished + 1}
  else received

def lists (name : String) : Bool := collector.mapModuleStates.any fun entry => entry.1 == name

/-- The two `Update` methods; a text that names no state counts as `FS_SHUTDOWN`. -/
def update : StateMessage → SystemStateCollector
  | .property sender strPath strState =>
    if collector.responsesCollected < collector.mapModuleStates.length ∧ strPath = currentStateField ∧
        collector.lists sender = true then
      match strState with
      | some strState =>
        collector.onStateReceived sender ((RemoteState.fromString strState).getD (.known .fsShutdown))
      | none => collector
    else collector
  | .state sender eState =>
    if collector.waitForSystemState = true ∧ collector.lists sender = true then
      collector.onStateReceived sender eState
    else collector

/-- The callbacks run one after the other. -/
def run (messages : List StateMessage) : SystemStateCollector := messages.foldl update collector

end SystemStateCollector

/-- What a request depends on: how names are trimmed, the results of the registration and transmissions, the
messages whose callbacks run until the wait is over, and those that run before the evaluation. -/
structure Collection where
  trim : String → String
  registered : Result
  transmitted : String → Result
  during : List StateMessage
  after : List StateMessage

namespace Collection
variable (collection : Collection)

/-- The loop of `Init`; the map is cleared as soon as a name is refused. -/
def initLoop (collection : Collection) : List String → CollectionMap → Option CollectionMap
  | [], mapModuleStates => some mapModuleStates
  | name::names, mapModuleStates =>
    let strElement := collection.trim name
    if strElement.isEmpty || strElement.toList.contains '?' || strElement.toList.contains '*' then none
    else initLoop collection names (OrderedMap.insert (strElement,.fsUnknown) mapModuleStates)

/-- `Init`; an empty list is not allowed. -/
def init (vecElementList : List String) : Option CollectionMap :=
  if vecElementList.isEmpty then none else collection.initLoop vecElementList []

/-- The loop of `SendStateRequests`, which ends with the first failure. -/
def sendStateRequests (collection : Collection) (nResult : Result) : CollectionMap → Result
  | [] => nResult
  | entry::entries =>
    if isFailed nResult then nResult else collection.sendStateRequests (collection.transmitted entry.1) entries

/-- `AskForStates`: its result and the collector at the evaluation; a wait without a timeout may never end. -/
def askForStates (collector : SystemStateCollector) (vecElementList : List String)
    (tmTimeout : Int) : Option (Result × SystemStateCollector) :=
  match collection.init vecElementList with
  | none => some (.errInvalidArg,collector)
  | some mapModuleStates =>
    let asked := {collector with mapModuleStates := mapModuleStates, responsesCollected := 0}
    let waited := asked.run collection.during
    let nResult := collection.sendStateRequests collection.registered mapModuleStates
    if isFailed nResult then some (nResult,waited)
    else if 0 < waited.eventFinished then some (.errNoError,waited.run collection.after)
    else if tmTimeout = -1 then none
    else some (.errTimeout,waited.run collection.after)

/-- What happens to the caller's `eState`. -/
inductive Aggregate where
  | untouched
  | state (eState : RemoteState)
  | outsideTable
  deriving DecidableEq

/-- `GetSystemState`. -/
def getSystemState (vecParticipantList : List String) (tmTimeout : Int) :
    Option (Result × Aggregate) :=
  if tmTimeout ≤ 0 then some (.errInvalidArg,.untouched)
  else
    (collection.askForStates (.new false (.known .fsShutdown)) vecParticipantList tmTimeout).map
      fun (nResult,collector) =>
        if isOk nResult || nResult == .errTimeout then
          match getAggregatedState collector.mapModuleStates with
          | some eState => (nResult,.state (.known eState))
          | none => (nResult,.outsideTable)
        else (nResult,.state .fsUnknown)

/-- `WaitForSystemState`; a table read outside its bounds is taken to give another state. -/
def waitForSystemState (eState : RemoteState) (vecParticipantList : List String)
    (tmTimeout : Int) : Option Result :=
  if tmTimeout < -1 then some .errInvalidArg
  else
    (collection.askForStates (.new true eState) vecParticipantList tmTimeout).map fun (nResult,collector) =>
      if nResult = .errTimeout ∨ nResult = .errInvalidArg then nResult
      else if (getAggregatedState collector.mapModuleStates).map .known = some eState then nResult
      else .errInvalidState

/-- `GetParticipantsState`; none if the caller's map is left as it is. -/
def getParticipantsState (vecParticipantList : List String) (tmTimeout : Int) :
    Option (Result × Option CollectionMap) :=
  if tmTimeout ≤ 0 then some (.errInvalidArg,none)
  else
    (collection.askForStates (.new false (.known .fsShutdown)) vecParticipantList tmTimeout).map
      fun (nResult,collector) =>
        if isOk nResult || nResult == .errTimeout then (nResult,some collector.mapModuleStates)
        else (nResult,some [])

end Collection
end FepParticipant.Automation
