import FepParticipant.PropertyTree.PropertyJSON

/-! The messages of the participants, and their text: the header, the command that sets a property, the custom
command, and the notification that a property has changed. -/
namespace FepParticipant.Messages
open PropertyTree

section nodes
variable {Number : Type}

def children : JSONNode Number → List (JSONNode Number)
  | .scalar _ _ => []
  | .array _ elements => elements
  | .node _ children => children

/-- `find`: the first child of a name. -/
def find (node : JSONNode Number) (name : String) : Option (JSONNode Number) :=
  (children node).find? fun child => child.name == name

/-- `push_back`. -/
def pushBack (node child : JSONNode Number) : JSONNode Number :=
  match node with
  | .scalar name value => .scalar name value
  | .array name elements => .array name (elements ++ [child])
  | .node name children => .node name (children ++ [child])

def textNode (name text : String) : JSONNode Number := .scalar name (.string text)

end nodes

/-- The JSON library, and the conversions of a text to a number. -/
structure MessageLibrary where
  numbers : NumberNodes
  parse : String → JSONNode numbers.Number
  writeFormatted : JSONNode numbers.Number → String
  toUInt32 : String → Nat
  toInt64 : String → Int

variable (lib : MessageLibrary)

/-- `as_string`. -/
def MessageLibrary.asString : JSONNode lib.numbers.Number → String
  | .scalar _ (.string text) => text
  | .scalar _ (.number number) => lib.numbers.asString number
  | .scalar _ (.bool value) => if value then "true" else "false"
  | .scalar _ .null => "null"
  | .array _ _ => ""
  | .node _ _ => ""

def versionMajor : UInt8 := 2

def versionMinor : UInt8 := 6

/-- `cMessage`. -/
structure Message where
  nMajorVersion : UInt8
  nMinorVersion : UInt8
  strReceiver : String
  strSender : String
  tmTimeStamp : Int64
  tmSimTime : Int64
  strRepresentation : String

namespace Message

/-- The private part of a message before it is filled. -/
def empty : Message := ⟨versionMajor,versionMinor,"","",0,0,""⟩

def strVersion (message : Message) : String :=
  toString message.nMajorVersion.toNat ++ "." ++ toString message.nMinorVersion.toNat

def headerNode {Number : Type} (message : Message) : JSONNode Number :=
  .node "Header" [textNode "LanguageVersion" message.strVersion,textNode "Sender" message.strSender,
    textNode "Receiver" message.strReceiver,textNode "Timestamp" (toString message.tmTimeStamp.toInt),
    textNode "SimTime" (toString message.tmSimTime.toInt)]

def createStringRepresentation (message : Message) : Message :=
  {message with strRepresentation := lib.writeFormatted (.node "" [message.headerNode])}

def create (strSender strReceiver : String) (tmTimeStamp tmSimTime : Int64) : Message :=
  createStringRepresentation lib ⟨versionMajor,versionMinor,strReceiver,strSender,tmTimeStamp,tmSimTime,""⟩

/-- What stands in front of the first point and behind it. -/
def splitVersion (strVersion : String) : String × String :=
  let strMajor := strVersion.toList.takeWhile (· != '.')
  let strMinor := if '.' ∈ strVersion.toList then (strVersion.toList.dropWhile (· != '.')).tail else strVersion.toList
  (.ofList strMajor,if strMinor.isEmpty then "0" else .ofList strMinor)

def readField (headerNode : JSONNode lib.numbers.Number) (name : String) (read : Message → String → Message)
    (message : Message) : Message :=
  match find headerNode name with
  | some node => read message (lib.asString node)
  | none => message

def readVersion (message : Message) (text : String) : Message :=
  let (strMajor,strMinor) := splitVersion text
  { message with
    nMajorVersion := UInt8.ofNat (lib.toUInt32 strMajor)
    nMinorVersion := UInt8.ofNat (lib.toUInt32 strMinor) }

def readHeader (headerNode : JSONNode lib.numbers.Number) (message : Message) : Message :=
  let message := readField lib headerNode "LanguageVersion" (readVersion lib) message
  let message := readField lib headerNode "Sender" (fun message text => {message with strSender := text}) message
  let message :=
    readField lib headerNode "Receiver" (fun message text => {message with strReceiver := text}) message
  let message := readField lib headerNode "Timestamp"
    (fun message text => {message with tmTimeStamp := Int64.ofInt (lib.toInt64 text)}) message
  readField lib headerNode "SimTime"
    (fun message text => {message with tmSimTime := Int64.ofInt (lib.toInt64 text)}) message

/-- The constructor from a text. -/
def parse (strMessage : String) : Message :=
  createStringRepresentation lib (match find (lib.parse strMessage) "Header" with
    | some headerNode => readHeader lib headerNode empty
    | none => empty)

/-- `operator=`. -/
def assign (_ other : Message) : Message := other

def copy (other : Message) : Message := empty.assign other

end Message

/-- `cSetPropertyCommand`. -/
structure SetPropertyCommand where
  message : Message
  strPropPath : String
  vPropVal : Values
  strRepresentation : String

namespace SetPropertyCommand
variable (command : SetPropertyCommand)

/-- The values of `cProperty("", "")`. -/
def noValue : Values := .strings "" []

def commandNode : JSONNode lib.numbers.Number :=
  .node "Command" [textNode "Type" "set_property",textNode "Property" command.strPropPath,
    valuesToJSON lib.numbers command.vPropVal]

def createStringRepresentation : SetPropertyCommand :=
  { command with
    strRepresentation :=
      lib.writeFormatted (pushBack (lib.parse command.message.strRepresentation) (commandNode lib command)) }

def create (value : Variant) (strPropertyPath strSender strReceiver : String) (tmTimeStamp tmSimTime : Int64) :
    SetPropertyCommand :=
  createStringRepresentation lib
    ⟨Message.create lib strSender strReceiver tmTimeStamp tmSimTime,strPropertyPath,noValue.setValue value,""⟩

/-- The overloads of `SetValue`. -/
def setValue (command : SetPropertyCommand) (value : Variant) : SetPropertyCommand :=
  createStringRepresentation lib {command with vPropVal := command.vPropVal.setValue value}

/-- The overloads of `AppendValue`. -/
def appendValue (command : SetPropertyCommand) (value : Variant) : Result × SetPropertyCommand :=
  let (nRes,values) := command.vPropVal.appendValue value
  if isOk nRes then (nRes,createStringRepresentation lib {command with vPropVal := values})
  else (nRes,{command with vPropVal := values})

/-- The constructor from a text. -/
def parse (strSetPropertyCommand : String) : SetPropertyCommand :=
  let command : SetPropertyCommand := ⟨Message.parse lib strSetPropertyCommand,"",noValue,""⟩
  createStringRepresentation lib (match find (lib.parse strSetPropertyCommand) "Command" with
    | none => command
    | some commandNode =>
      let command := match find commandNode "Property" with
        | some node => {command with strPropPath := lib.asString node}
        | none => command
      match find commandNode "Value" with
      | some node => {command with vPropVal := (jsonToValues lib.numbers command.vPropVal node).2}
      | none => command)

/-- `operator=`, which does not assign the message below. -/
def assign (other : SetPropertyCommand) : SetPropertyCommand :=
  { command with
    strPropPath := other.strPropPath
    strRepresentation := other.strRepresentation
    vPropVal := other.vPropVal }

def copy (other : SetPropertyCommand) : SetPropertyCommand := assign ⟨other.message.copy,"",noValue,""⟩ other

end SetPropertyCommand

/-- `tChangeEvent`. -/
inductive ChangeEvent where
  | ceNew
  | ceDelete
  | ceChange

namespace ChangeEvent

def text : ChangeEvent → String
  | ceNew => "new"
  | ceDelete => "delete"
  | ceChange => "change"

def ofText : String → Option ChangeEvent
  | "new" => some ceNew
  | "delete" => some ceDelete
  | "change" => some ceChange
  | _ => none

end ChangeEvent

/-- `cPropertyChangedNotification`; the event is not set before one has been read. -/
structure PropertyChangedNotification where
  message : Message
  strPropPath : String
  ceEvent : Option ChangeEvent
  oProperty : Property
  strRepresentation : String

namespace PropertyChangedNotification
variable (notification : PropertyChangedNotification)

/-- A notification before it is filled. -/
def new (message : Message) : PropertyChangedNotification := ⟨message,"",none,.create "" (.string ""),""⟩

def notificationNode (ceEvent : ChangeEvent) :
    JSONNode lib.numbers.Number :=
  .node "Notification" [textNode "Type" "property_changed",textNode "Path" notification.strPropPath,
    textNode "Event" ceEvent.text,valuesToJSON lib.numbers notification.oProperty.values]

def createStringRepresentation : PropertyChangedNotification :=
  match notification.ceEvent with
  | none => notification
  | some ceEvent =>
    { notification with
      strRepresentation := lib.writeFormatted (pushBack (lib.parse notification.message.strRepresentation)
        (notificationNode lib notification ceEvent)) }

/-- `CopyPropertyValue`, value by value. -/
def copyPropertyValue (poProperty poDestProperty : Property) : Property :=
  poDestProperty.setValues (poProperty.values.variants.2.foldl (fun values value => (values.appendValue value).2)
    (poDestProperty.values.setValue poProperty.values.variants.1))

def create (poProperty : Property) (ceEvent : ChangeEvent) (strPropPath strSender strReceiver : String)
    (tmTimeStamp tmSimTime : Int64) : PropertyChangedNotification :=
  let notification := new (Message.create lib strSender strReceiver tmTimeStamp tmSimTime)
  let named := (notification.oProperty.clearSubproperties.setName poProperty.name).2
  createStringRepresentation lib { notification with
    strPropPath := strPropPath
    ceEvent := some ceEvent
    oProperty := copyPropertyValue poProperty named }

/-- The values are not read behind an unknown event. -/
def readValue (notificationNode : JSONNode lib.numbers.Number) (notification : PropertyChangedNotification) :
    PropertyChangedNotification :=
  match find notificationNode "Value" with
  | some node => { notification with
      oProperty := notification.oProperty.setValues (jsonToValues lib.numbers notification.oProperty.values node).2 }
  | none => notification

def readEvent (notificationNode : JSONNode lib.numbers.Number) (notification : PropertyChangedNotification) :
    PropertyChangedNotification :=
  match find notificationNode "Event" with
  | some (.scalar _ (.string strEvent)) =>
    match ChangeEvent.ofText strEvent with
    | some ceEvent => readValue lib notificationNode {notification with ceEvent := some ceEvent}
    | none => notification
  | _ => readValue lib notificationNode notification

/-- `ParseFromStringRepresentation`. -/
def parseFromStringRepresentation (strRepr : String) :
    PropertyChangedNotification :=
  match find (lib.parse strRepr) "Notification" with
  | none => notification
  | some notificationNode =>
    readEvent lib notificationNode (match find notificationNode "Path" with
      | some node => {notification with strPropPath := lib.asString node}
      | none => notification)

/-- The constructor from a text. -/
def parse (strNotification : String) : PropertyChangedNotification :=
  createStringRepresentation lib
    (parseFromStringRepresentation lib (new (Message.parse lib strNotification)) strNotification)

/-- `operator=`, which reads the representation again and does not assign the message below. -/
def assign (other : PropertyChangedNotification) : PropertyChangedNotification :=
  parseFromStringRepresentation lib {notification with strRepresentation := other.strRepresentation}
    other.strRepresentation

def copy (other : PropertyChangedNotification) : PropertyChangedNotification :=
  assign lib (new other.message.copy) other

end PropertyChangedNotification

/-- `cCustomCommand`, with its parameters as a JSON text. -/
structure CustomCommand where
  message : Message
  strName : String
  strParameterTree : String
  strRepresentation : String

namespace CustomCommand
variable (command : CustomCommand)

/-- The parameters stand beside the type and the name. -/
def commandNode : JSONNode lib.numbers.Number :=
  .node "Command" (textNode "Type" "custom" :: textNode "Name" command.strName ::
    children (lib.parse command.strParameterTree))

def createStringRepresentation : CustomCommand :=
  { command with
    strRepresentation :=
      lib.writeFormatted (pushBack (lib.parse command.message.strRepresentation) (commandNode lib command)) }

def create (strCommand strParameterTree strSender strReceiver : String) (tmTimeStamp tmSimTime : Int64) :
    CustomCommand :=
  createStringRepresentation lib
    ⟨Message.create lib strSender strReceiver tmTimeStamp tmSimTime,strCommand,strParameterTree,""⟩

/-- The loop over the children: each `Name` is the name, and what is neither a name nor a type is a parameter. -/
def readChildren : List (JSONNode lib.numbers.Number) → String × List (JSONNode lib.numbers.Number) →
    String × List (JSONNode lib.numbers.Number)
  | [], read => read
  | node::nodes, (strName,parameters) =>
    if node.name = "Name" then readChildren nodes (lib.asString node,parameters)
    else if node.name = "Type" then readChildren nodes (strName,parameters)
    else readChildren nodes (strName,parameters ++ [node])

/-- The constructor from a text. -/
def parse (strCustomCommand : String) : CustomCommand :=
  let command : CustomCommand := ⟨Message.parse lib strCustomCommand,"","",""⟩
  createStringRepresentation lib (match find (lib.parse strCustomCommand) "Command" with
    | none => command
    | some commandNode =>
      let (strName,parameters) := readChildren lib (children commandNode) (command.strName,[])
      {command with strName := strName, strParameterTree := lib.writeFormatted (.node "" parameters)})

/-- `operator=`, which does not assign the message below. -/
def assign (other : CustomCommand) : CustomCommand :=
  { command with
    strName := other.strName
    strParameterTree := other.strParameterTree
    strRepresentation := other.strRepresentation }

def copy (other : CustomCommand) : CustomCommand := assign ⟨other.message.copy,"","",""⟩ other

end CustomCommand
end FepParticipant.Messages
