import FepParticipant.Library.Reachability
import FepParticipant.PropertyTree.PropertyJSON

/-! Setting and getting properties of other participants: commands and the notifications that answer
them, which may be delayed and overtake each other. -/
namespace FepParticipant.PropertyTree
open Library

/-- The participants on the bus, and which of their names a receiver text matches. -/
structure MessageBus where
  moduleName : String
  participants : List String
  fullMatch : String → String → Bool

/-- The content of a set property or get property command. -/
inductive PropertyRequest (lib : NumberNodes) where
  | setProperty (strPropPath : String) (oValueNode : JSONNode lib.Number)
  | getProperty (strPropPath : String)

def PropertyRequest.getPropertyPath {lib : NumberNodes} : PropertyRequest lib → String
  | setProperty strPropPath _ => strPropPath
  | getProperty strPropPath => strPropPath

structure PropertyCommand (lib : NumberNodes) where
  request : PropertyRequest lib
  sender : String
  id : Nat

structure PropertyNotification (lib : NumberNodes) where
  strPropPath : String
  oProperty : JSONNode lib.Number
  sender : String

/-- A value that a participant holds behind a set property command. -/
structure AppliedValue where
  id : Nat
  participant : String
  strPropPath : String
  values : Values

/-- What is asked of the other participant. -/
inductive RemoteRequest where
  | set (values : Values)
  | get

/-- A call that waits for its answer, with its listener. `nRes` is the result of the wait, and `seen` are the trees
since the call began. -/
structure RemoteCall where
  id : Nat
  strElementName : String
  strPropPath : String
  request : RemoteRequest
  oEvent : Nat
  poProp : Option Property
  nRes : Option Result
  seen : List (String → Property)

structure ReturnedCall where
  call : RemoteCall
  nResult : Result
  applied : List AppliedValue

/-- The participant that calls, the trees of the others, and the messages between them. -/
structure RemoteAccess (lib : NumberNodes) where
  trees : String → Property
  commands : List (String × PropertyCommand lib)
  notifications : List (PropertyNotification lib)
  call : Option RemoteCall
  nextId : Nat
  applied : List AppliedValue
  returned : List ReturnedCall

/-- The values of `SetRemotePropertyValues`: NULL, no value, or values. -/
inductive ArrayArgument where
  | null
  | empty
  | values (values : Values)

section
variable (notified : Nat → Result)

/-- The loop over the further values of a command. `notified` gives the results of the listeners. -/
def appendValues : Nat → List Variant → Values → Result × Values
  | _, [], values => (.errNoError,values)
  | szIndex, value::rest, values =>
    match values.appendValue value with
    | (nResult,appended) =>
      let nResult := if isFailed nResult then nResult else notified szIndex
      if isFailed nResult then (nResult,appended) else appendValues (szIndex + 1) rest appended

/-- `Update(ISetPropertyCommand)` up to the notification. An array for a property without a name ends in a call
through NULL. -/
def updateSetProperty (strPropPath : String) (values : Values) (root : Property) : Option (Result × Property) :=
  let names := pathNames strPropPath
  let (first,rest) := values.variants
  let current := ((root.getOrMakeSubproperty names first).getSubproperty names).getD (.create "" first)
  let nResult := if current.values.notifies first then notified 0 else .errNoError
  let root := root.setPropertyValue names first
  if isFailed nResult || rest.isEmpty then some (nResult,root)
  else
    (root.getSubproperty names).map fun poProperty =>
      let (nResult,appended) := appendValues notified 1 rest poProperty.values
      (nResult,root.updateAt names fun property => property.setValues appended)

end

section
variable {lib : NumberNodes}

/-- `Update` of the listeners for the acknowledgement of a set command and for the answer of a get command. -/
def RemoteCall.update (call : RemoteCall) (pNotification : PropertyNotification lib) : RemoteCall :=
  if pNotification.sender ≠ call.strElementName ∨ pNotification.strPropPath ≠ call.strPropPath then call
  else
    match call.request with
    | .set _ => {call with oEvent := call.oEvent + 1}
    | .get =>
      if call.poProp.isSome then call
      else
        { call with
          poProp := some (jsonToProperty lib (.create "" (.string "")) pNotification.oProperty).2
          oEvent := call.oEvent + 1 }

end

namespace RemoteAccess
variable {lib : NumberNodes} (bus : MessageBus)

def start (lib : NumberNodes) (trees : String → Property) : RemoteAccess lib where
  trees := trees
  commands := []
  notifications := []
  call := none
  nextId := 0
  applied := []
  returned := []

def setTree (s : RemoteAccess lib) (participant : String) (root : Property) : RemoteAccess lib :=
  let trees := fun name => if name = participant then root else s.trees name
  { s with
    trees := trees
    call := s.call.map fun call => {call with seen := call.seen ++ [trees]} }

/-- A command goes to every other participant whose name matches the receiver. -/
def transmitCommand (s : RemoteAccess lib) (sender receiver : String) (request : PropertyRequest lib) :
    RemoteAccess lib :=
  { s with
    commands := s.commands ++ (bus.participants.filter fun name =>
      bus.fullMatch receiver name && name != sender).map fun name => (name,⟨request,sender,s.nextId⟩)
    nextId := s.nextId + 1 }

/-- A notification reaches the calling participant if its name matches the receiver. -/
def transmitNotification (s : RemoteAccess lib) (receiver : String) (notification : PropertyNotification lib) :
    RemoteAccess lib :=
  if bus.fullMatch receiver bus.moduleName && bus.moduleName != notification.sender then
    {s with notifications := s.notifications ++ [notification]}
  else s

/-- The property goes to the sender of the command, if there is one at the path. -/
def answer (s : RemoteAccess lib) (participant : String) (command : PropertyCommand lib) : RemoteAccess lib :=
  let strPropPath := command.request.getPropertyPath
  match (s.trees participant).getSubproperty (pathNames strPropPath) with
  | none => s
  | some poProp => s.transmitNotification bus command.sender ⟨strPropPath,propertyToJSON lib poProp,participant⟩

/-- The command is sent by the call, which then waits. -/
def beginCall (s : RemoteAccess lib) (strElementName strPropPath : String) (request : RemoteRequest)
    (command : PropertyRequest lib) (transmitted : Result) : RemoteAccess lib :=
  let sent := if isFailed transmitted then {s with nextId := s.nextId + 1}
    else s.transmitCommand bus bus.moduleName strElementName command
  {sent with call := some ⟨s.nextId,strElementName,strPropPath,request,0,none,none,[s.trees]⟩}

/-- `SetRemotePropertyValues`, up to the wait. With a timeout the checks of the arguments have no effect, and a NULL
or the first of no values is read. -/
def setRemotePropertyValues (s : RemoteAccess lib) (strElementName strPropPath : Option String)
    (firstValue : ArrayArgument) (tmTimeout : Int) (transmitted : Result) :
    Option (RemoteAccess lib × Option Result) :=
  match strElementName, strPropPath, firstValue with
  | some strElementName, some strPropPath, .values values =>
    let command := .setProperty strPropPath (valuesToJSON lib values)
    if 0 < tmTimeout then some (s.beginCall bus strElementName strPropPath (.set values) command transmitted,none)
    else if isFailed transmitted then some (s,some transmitted)
    else some (s.transmitCommand bus bus.moduleName strElementName command,some transmitted)
  | _, _, .empty => if 0 < tmTimeout then none else some (s,some .errInvalidArg)
  | _, _, _ => if 0 < tmTimeout then none else some (s,some .errPointer)

/-- `SetRemotePropertyValue`. -/
def setRemotePropertyValue (s : RemoteAccess lib) (strElementName strPropPath : Option String)
    (value : Option Variant) (tmTimeout : Int) (transmitted : Result) :
    Option (RemoteAccess lib × Option Result) :=
  match value with
  | none => some (s,some .errPointer)
  | some value =>
    s.setRemotePropertyValues bus strElementName strPropPath
      (.values ((Values.strings "" []).setValue value)) tmTimeout transmitted

/-- `GetRemoteProperty` up to the wait. -/
def getRemoteProperty (s : RemoteAccess lib) (strElementName strPropPath : Option String) (pProperty : Bool)
    (tmTimeout : Int) (transmitted : Result) : RemoteAccess lib × Option Result :=
  match strElementName, strPropPath, pProperty with
  | some strElementName, some strPropPath, true =>
    if tmTimeout < 0 ∨ strElementName = "" ∨ '*' ∈ strElementName.toList ∨ '?' ∈ strElementName.toList then
      (s,some .errInvalidArg)
    else if isFailed transmitted then (s,some .errFailed)
    else (s.beginCall bus strElementName strPropPath .get (.getProperty strPropPath) transmitted,none)
  | _, _, _ => (s,some .errPointer)

/-- A participant receives a command. -/
def deliverCommand (s : RemoteAccess lib) (index : Nat) (notified : Nat → Result) : Option (RemoteAccess lib) :=
  s.commands[index]?.bind fun (participant,command) =>
    let s := {s with commands := s.commands.eraseIdx index}
    match command.request with
    | .getProperty _ => some (s.answer bus participant command)
    | .setProperty strPropPath oValueNode =>
      let values := (jsonToValues lib (.strings "" []) oValueNode).2
      (updateSetProperty notified strPropPath values (s.trees participant)).map fun (nResult,root) =>
        let s := s.setTree participant root
        let held := (root.getSubproperty (pathNames strPropPath)).toList.map fun poProp =>
          ⟨command.id,participant,strPropPath,poProp.values⟩
        let s := {s with applied := s.applied ++ held}
        if isOk nResult then s.answer bus participant command else s

/-- The calling participant receives a notification. -/
def deliverNotification (s : RemoteAccess lib) (index : Nat) : Option (RemoteAccess lib) :=
  s.notifications[index]?.map fun pNotification =>
    { s with
      notifications := s.notifications.eraseIdx index
      call := s.call.map fun call => call.update pNotification }

/-- `wait_for` takes an event, or the timeout passes without one. -/
def waitFor (s : RemoteAccess lib) : Option (RemoteAccess lib) :=
  s.call.bind fun call =>
    if call.nRes ≠ none then none
    else if 0 < call.oEvent then
      some {s with call := some {call with nRes := some .errNoError, oEvent := call.oEvent - 1}}
    else some {s with call := some {call with nRes := some .errTimeout}}

/-- The listener is unregistered and the call returns. -/
def finish (s : RemoteAccess lib) : Option (RemoteAccess lib) :=
  s.call.bind fun call => call.nRes.map fun nResult =>
    { s with
      call := none
      returned := s.returned ++ [⟨call,nResult,s.applied⟩] }

/-- What can happen. Calls exclude each other; other participants send commands and change their trees. -/
inductive Action (lib : NumberNodes) where
  | setRemotePropertyValue (strElementName strPropPath : Option String) (value : Option Variant) (tmTimeout : Int)
      (transmitted : Result)
  | setRemotePropertyValues (strElementName strPropPath : Option String) (firstValue : ArrayArgument)
      (tmTimeout : Int) (transmitted : Result)
  | getRemoteProperty (strElementName strPropPath : Option String) (pProperty : Bool) (tmTimeout : Int)
      (transmitted : Result)
  | foreignCommand (sender receiver : String) (request : PropertyRequest lib)
  | changeTree (participant : String) (root : Property)
  | deliverCommand (index : Nat) (notified : Nat → Result)
  | deliverNotification (index : Nat)
  | waitFor
  | finish

def step (s : RemoteAccess lib) : Action lib → Option (RemoteAccess lib)
  | .setRemotePropertyValue strElementName strPropPath value tmTimeout transmitted =>
    if s.call.isSome then none
    else (s.setRemotePropertyValue bus strElementName strPropPath value tmTimeout transmitted).map (·.1)
  | .setRemotePropertyValues strElementName strPropPath firstValue tmTimeout transmitted =>
    if s.call.isSome then none
    else (s.setRemotePropertyValues bus strElementName strPropPath firstValue tmTimeout transmitted).map (·.1)
  | .getRemoteProperty strElementName strPropPath pProperty tmTimeout transmitted =>
    if s.call.isSome then none
    else some (s.getRemoteProperty bus strElementName strPropPath pProperty tmTimeout transmitted).1
  | .foreignCommand sender receiver request => some (s.transmitCommand bus sender receiver request)
  | .changeTree participant root => some (s.setTree participant root)
  | .deliverCommand index notified => s.deliverCommand bus index notified
  | .deliverNotification index => s.deliverNotification index
  | .waitFor => s.waitFor
  | .finish => s.finish

end RemoteAccess

end FepParticipant.PropertyTree
