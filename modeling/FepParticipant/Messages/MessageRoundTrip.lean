import FepParticipant.Messages.Message
import FepParticipant.PropertyTree.JSONRoundTrip

/-! What is read back from the text of a message, and what a copy and an assignment carry over. -/
namespace FepParticipant.Messages
open PropertyTree List Nat Message PropertyChangedNotification

section nodes
variable {Number : Type}

mutual
/-- The elements of an array have no name, below a node as well. -/
def WellFormed : JSONNode Number → Prop
  | .scalar _ _ => True
  | .array _ elements => WellFormedElements elements
  | .node _ children => WellFormedChildren children

def WellFormedElements : List (JSONNode Number) → Prop
  | [] => True
  | node::nodes => node.name = "" ∧ WellFormed node ∧ WellFormedElements nodes

def WellFormedChildren : List (JSONNode Number) → Prop
  | [] => True
  | node::nodes => WellFormed node ∧ WellFormedChildren nodes
end

variable {nodes : List (JSONNode Number)}

theorem wellFormedChildren_iff : WellFormedChildren nodes ↔ ∀ node ∈ nodes, WellFormed node := by
  induction nodes with
  | nil => exact iff_of_true trivial fun node hnode => by cases hnode
  | cons node nodes ih => rw [WellFormedChildren,ih,forall_mem_cons]

private theorem wellFormedElements_scalars {α : Type} (scalar : α → JSONScalar Number) (values : List α) :
    WellFormedElements (values.map fun value => JSONNode.scalar "" (scalar value)) := by
  induction values with
  | nil => exact trivial
  | cons value values ih => exact ⟨rfl,trivial,ih⟩

private theorem wellFormed_valueNode {lib : NumberNodes} {α : Type} (scalar : α → JSONScalar lib.Number) (front : α)
    (rest : List α) : WellFormed (valueNode lib scalar front rest) := by
  cases rest with
  | nil => exact trivial
  | cons second rest => exact wellFormedElements_scalars scalar (front::second::rest)

theorem wellFormed_valuesToJSON (lib : NumberNodes) (values : Values) : WellFormed (valuesToJSON lib values) := by
  cases values with
  | strings front rest => exact wellFormed_valueNode _ front rest
  | floats front rest => exact wellFormed_valueNode (fun value => .number (lib.ofFloat value)) front rest
  | integers front rest => exact wellFormed_valueNode (fun value => .number (lib.ofInt value)) front rest
  | booleans front rest => exact wellFormed_valueNode _ front rest

theorem find_textNode_ne {node : JSONNode Number} {rootName childName name text : String} (hne : childName ≠ name)
    (h : find (.node rootName nodes) name = some node) :
    find (.node rootName (textNode childName text::nodes)) name = some node := by
  rw [find,children,find?_cons_of_neg]
  · exact h
  · rw [beq_iff_eq]
    exact hne

theorem find_cons_eq {node : JSONNode Number} {rootName name : String}
    (heq : node.name = name) : find (.node rootName (node::nodes)) name = some node := by
  rw [find,children,find?_cons_of_pos (by simpa using heq)]

end nodes

/-- The JSON library reads what it has written, elements of arrays being nameless, and the decimal text of a number
as the number. -/
structure MessageLibrary.Lawful (lib : MessageLibrary) : Prop where
  numbers : lib.numbers.Lawful
  parse_writeFormatted (nodes : List (JSONNode lib.numbers.Number)) : (∀ node ∈ nodes, WellFormed node) →
    lib.parse (lib.writeFormatted (.node "" nodes)) = .node "" nodes
  wellFormed_parse (text : String) : WellFormed (lib.parse text)
  toUInt32_toString (n : Nat) : n < 2 ^ 32 → lib.toUInt32 (toString n) = n
  toInt64_toString (i : Int) : -2 ^ 63 ≤ i → i < 2 ^ 63 → lib.toInt64 (toString i) = i

variable {lib : MessageLibrary}

namespace Message
variable {message : Message}

def header (message : Message) : UInt8 × UInt8 × String × String × Int64 × Int64 :=
  (message.nMajorVersion,message.nMinorVersion,message.strReceiver,message.strSender,message.tmTimeStamp,
    message.tmSimTime)

private theorem point_not_mem_digits (n : Nat) : '.' ∉ (toString n).toList := by
  intro h
  rw [toString_eq_repr,toList_repr] at h
  have hdigit := isDigit_of_mem_toDigits (by decide) (by decide) h
  revert hdigit
  decide

private theorem splitVersion_strVersion (major minor : Nat) :
    splitVersion (toString major ++ "." ++ toString minor) = (toString major,toString minor) := by
  have hlist : (toString major ++ "." ++ toString minor).toList =
      (toString major).toList ++ '.' :: (toString minor).toList := by
    simp [String.toList_append]
  have hmajor : ∀ c ∈ (toString major).toList, (c != '.') = true := by
    intro c hc
    rw [bne_iff_ne]
    rintro rfl
    exact point_not_mem_digits major hc
  have hempty : (toString minor).toList.isEmpty = false := by
    rw [toString_eq_repr,toList_repr,isEmpty_eq_false_iff]
    exact toDigits_ne_nil
  rw [splitVersion,hlist,takeWhile_append_of_pos hmajor,dropWhile_append_of_pos hmajor,
    if_pos (mem_append_right _ mem_cons_self)]
  simp only [takeWhile_cons,dropWhile_cons,bne_self_eq_false,Bool.false_eq_true,if_false,
    append_nil,tail_cons,hempty,String.ofList_toList]

section
variable (hlawful : lib.Lawful)
include hlawful

theorem parse_eq {message : Message} {text : String} {nodes : List (JSONNode lib.numbers.Number)}
    (htext : lib.parse text = .node "" (message.headerNode::nodes)) :
    parse lib text = createStringRepresentation lib message := by
  have hheader : find (lib.parse text) "Header" = some message.headerNode := by
    rw [htext]
    exact find_cons_eq rfl
  have htime (time : Int64) : Int64.ofInt (lib.toInt64 (toString time.toInt)) = time := by
    rw [hlawful.toInt64_toString _ (Int64.le_toInt time) (Int64.toInt_lt time),Int64.ofInt_toInt]
  have hversion (version : UInt8) : UInt8.ofNat (lib.toUInt32 (toString version.toNat)) = version := by
    have hlt := version.toNat_lt
    rw [hlawful.toUInt32_toString _ (by omega),UInt8.ofNat_toNat]
  have hfound : find message.headerNode "LanguageVersion" =
        some (textNode "LanguageVersion" message.strVersion : JSONNode lib.numbers.Number) ∧
      find message.headerNode "Sender" = some (textNode "Sender" message.strSender : JSONNode lib.numbers.Number) ∧
      find message.headerNode "Receiver" =
        some (textNode "Receiver" message.strReceiver : JSONNode lib.numbers.Number) ∧
      find message.headerNode "Timestamp" =
        some (textNode "Timestamp" (toString message.tmTimeStamp.toInt) : JSONNode lib.numbers.Number) ∧
      find message.headerNode "SimTime" =
        some (textNode "SimTime" (toString message.tmSimTime.toInt) : JSONNode lib.numbers.Number) := by
    refine ⟨find_cons_eq rfl,find_textNode_ne (by decide) (find_cons_eq rfl),find_textNode_ne (by decide) ?_,
      find_textNode_ne (by decide) ?_,find_textNode_ne (by decide) ?_⟩
    · exact find_textNode_ne (by decide) (find_cons_eq rfl)
    · exact find_textNode_ne (by decide) (find_textNode_ne (by decide) (find_cons_eq rfl))
    · refine find_textNode_ne (by decide) (find_textNode_ne (by decide) ?_)
      exact find_textNode_ne (by decide) (find_cons_eq rfl)
  obtain ⟨hlanguage,hsender,hreceiver,htimestamp,hsimtime⟩ := hfound
  have hread : readHeader lib message.headerNode empty = {message with strRepresentation := ""} := by
    simp only [readHeader,readField,hlanguage,hsender,hreceiver,htimestamp,hsimtime,MessageLibrary.asString,
      textNode,readVersion,strVersion,splitVersion_strVersion,hversion,htime,empty]
  rw [parse,hheader]
  dsimp only
  rw [hread]
  rfl

section
variable (hwritten : createStringRepresentation lib message = message)
include hwritten

private theorem parse_representation : lib.parse message.strRepresentation = .node "" [message.headerNode] := by
  rw [← hwritten]
  refine hlawful.parse_writeFormatted _ fun node hnode => ?_
  rw [mem_singleton.mp hnode]
  exact ⟨trivial,trivial,trivial,trivial,trivial,trivial⟩

theorem parse_document {node : JSONNode lib.numbers.Number} (hnode : WellFormed node) :
    lib.parse (lib.writeFormatted (pushBack (lib.parse message.strRepresentation) node)) =
      .node "" [message.headerNode,node] := by
  rw [parse_representation hlawful hwritten]
  refine hlawful.parse_writeFormatted _ fun child hchild => ?_
  rcases mem_cons.mp hchild with rfl | hchild
  · exact ⟨trivial,trivial,trivial,trivial,trivial,trivial⟩
  · rw [mem_singleton.mp hchild]
    exact hnode

theorem parse_written {node : JSONNode lib.numbers.Number} (hnode : WellFormed node) :
    parse lib (lib.writeFormatted (pushBack (lib.parse message.strRepresentation) node)) = message := by
  rw [parse_eq hlawful (parse_document hlawful hwritten hnode),hwritten]

end

end

end Message

theorem find_behind_header {message : Message} {node : JSONNode lib.numbers.Number} {name : String}
    (hname : node.name = name) (hne : name ≠ "Header") :
    find (.node "" [message.headerNode,node]) name = some node := by
  rw [find,children,find?_cons_of_neg,find?_cons_of_pos]
  · rwa [beq_iff_eq]
  · rw [beq_iff_eq]
    exact fun h => hne h.symm

namespace SetPropertyCommand
variable {command : SetPropertyCommand}

structure Written (lib : MessageLibrary) (command : SetPropertyCommand) : Prop where
  message : Message.createStringRepresentation lib command.message = command.message
  command : createStringRepresentation lib command = command

theorem written_create (value : Variant) (strPropertyPath strSender strReceiver : String)
    (tmTimeStamp tmSimTime : Int64) :
    (create lib value strPropertyPath strSender strReceiver tmTimeStamp tmSimTime).Written lib :=
  ⟨rfl,rfl⟩

theorem written_setValue (h : command.Written lib) (value : Variant) : (setValue lib command value).Written lib :=
  ⟨h.message,rfl⟩

private theorem appendValue_refused (values : Values) (value : Variant) :
    isOk (values.appendValue value).1 = true ∨ (values.appendValue value).2 = values := by
  cases values <;> cases value <;> first | exact .inl rfl | exact .inr rfl

theorem written_appendValue (h : command.Written lib) (value : Variant) :
    (appendValue lib command value).2.Written lib := by
  rw [appendValue]
  dsimp only
  split
  · exact ⟨h.message,rfl⟩
  · rename_i hfailed
    rw [(appendValue_refused command.vPropVal value).resolve_left hfailed]
    exact h

/-- The header, the path and the values agree. -/
def Equal (command other : SetPropertyCommand) : Prop :=
  command.message.header = other.message.header ∧ command.strPropPath = other.strPropPath ∧
    command.vPropVal = other.vPropVal

/-- The command that is read from the text, its text, a copy and the target of an assignment are as the command. -/
def Faithful (lib : MessageLibrary) (command target : SetPropertyCommand) : Prop :=
  (parse lib command.strRepresentation).Equal command ∧
    (parse lib command.strRepresentation).strRepresentation = command.strRepresentation ∧
    command.copy.Equal command ∧ (target.assign command).Equal command

private theorem wellFormed_commandNode : WellFormed (commandNode lib command) :=
  ⟨trivial,trivial,wellFormed_valuesToJSON _ _,trivial⟩

private theorem parse_eq (hlawful : lib.Lawful) (h : command.Written lib) : parse lib command.strRepresentation =
      createStringRepresentation lib {command with vPropVal := command.vPropVal.readBack lib.numbers} := by
  have htext : command.strRepresentation =
      lib.writeFormatted (pushBack (lib.parse command.message.strRepresentation) (commandNode lib command)) :=
    congrArg strRepresentation h.command.symm
  have hnode : WellFormed (commandNode lib command) := wellFormed_commandNode
  have hcommand : find (lib.parse command.strRepresentation) "Command" = some (commandNode lib command) := by
    rw [htext,parse_document hlawful h.message hnode]
    exact find_behind_header rfl (by decide)
  have hproperty : find (commandNode lib command) "Property" = some (textNode "Property" command.strPropPath) :=
    find_textNode_ne (by decide) (find_cons_eq rfl)
  have hvalue : find (commandNode lib command) "Value" = some (valuesToJSON lib.numbers command.vPropVal) :=
    find_textNode_ne (by decide) (find_textNode_ne (by decide) (find_cons_eq (name_valuesToJSON)))
  have hmessage : Message.parse lib command.strRepresentation = command.message := by
    rw [htext,parse_written hlawful h.message hnode]
  simp only [parse,hcommand,hproperty,hvalue,hmessage,jsonToValues_valuesToJSON hlawful.numbers]
  rfl

theorem faithful_iff (hlawful : lib.Lawful) (h : command.Written lib) (target : SetPropertyCommand) :
    Faithful lib command target ↔ command.vPropVal.Recoverable ∧ target.message.header = command.message.header := by
  rw [Faithful,parse_eq hlawful h]
  constructor
  · rintro ⟨⟨-,-,hvalues⟩,-,-,hheader,-⟩
    exact ⟨(Values.readBack_eq_iff hlawful.numbers _).mp hvalues,hheader⟩
  · rintro ⟨hrecoverable,hheader⟩
    have hvalues := (Values.readBack_eq_iff hlawful.numbers _).mpr hrecoverable
    have hread : createStringRepresentation lib {command with vPropVal := command.vPropVal.readBack lib.numbers} =
        command := by
      rw [hvalues]
      exact h.command
    rw [hread]
    exact ⟨⟨rfl,rfl,rfl⟩,rfl,⟨rfl,rfl,rfl⟩,hheader,rfl,rfl⟩

/-- A change of the values of a command. -/
inductive ValueCall where
  | setValue (value : Variant)
  | appendValue (value : Variant)

def call (lib : MessageLibrary) (command : SetPropertyCommand) : ValueCall → SetPropertyCommand
  | .setValue value => setValue lib command value
  | .appendValue value => (appendValue lib command value).2

private theorem written_calls (h : command.Written lib) (calls : List ValueCall) :
    (calls.foldl (call lib) command).Written lib := by
  induction calls generalizing command with
  | nil => exact h
  | cons valueCall calls ih =>
    apply ih
    cases valueCall with
    | setValue value => exact written_setValue h value
    | appendValue value => exact written_appendValue h value

/-- A command with the values that it is given one after the other. -/
def build (lib : MessageLibrary) (value : Variant) (calls : List ValueCall)
    (strPropertyPath strSender strReceiver : String) (tmTimeStamp tmSimTime : Int64) : SetPropertyCommand :=
  calls.foldl (call lib) (create lib value strPropertyPath strSender strReceiver tmTimeStamp tmSimTime)

theorem written_build (lib : MessageLibrary) (value : Variant) (calls : List ValueCall)
    (strPropertyPath strSender strReceiver : String) (tmTimeStamp tmSimTime : Int64) :
    (build lib value calls strPropertyPath strSender strReceiver tmTimeStamp tmSimTime).Written lib :=
  written_calls (written_create ..) calls

end SetPropertyCommand

namespace PropertyChangedNotification
variable {notification : PropertyChangedNotification} {ceEvent : ChangeEvent}

structure Written (lib : MessageLibrary) (notification : PropertyChangedNotification) (ceEvent : ChangeEvent) :
    Prop where
  message : Message.createStringRepresentation lib notification.message = notification.message
  event : notification.ceEvent = some ceEvent
  notification : createStringRepresentation lib notification = notification

theorem written_create (lib : MessageLibrary) (poProperty : Property) (ceEvent : ChangeEvent)
    (strPropPath strSender strReceiver : String) (tmTimeStamp tmSimTime : Int64) :
    (create lib poProperty ceEvent strPropPath strSender strReceiver tmTimeStamp tmSimTime).Written lib ceEvent :=
  ⟨rfl,rfl,rfl⟩

theorem values_create (poProperty : Property)
    (strPropPath strSender strReceiver : String) (tmTimeStamp tmSimTime : Int64) :
    (create lib poProperty ceEvent strPropPath strSender strReceiver tmTimeStamp tmSimTime).oProperty.values =
      poProperty.values :=
  Values.setValue_variants poProperty.values _

/-- The header, the path, the event and the values agree. -/
def Equal (notification other : PropertyChangedNotification) : Prop :=
  notification.message.header = other.message.header ∧ notification.strPropPath = other.strPropPath ∧
    notification.ceEvent = other.ceEvent ∧ notification.oProperty.values = other.oProperty.values

/-- The notification that is read from the text, its text, a copy and the target of an assignment are as the
notification. -/
def Faithful (lib : MessageLibrary) (notification target : PropertyChangedNotification) : Prop :=
  (parse lib notification.strRepresentation).Equal notification ∧
    (parse lib notification.strRepresentation).strRepresentation = notification.strRepresentation ∧
    (copy lib notification).Equal notification ∧ (assign lib target notification).Equal notification

private theorem ofText_text : ChangeEvent.ofText ceEvent.text = some ceEvent := by
  cases ceEvent <;> rfl

theorem wellFormed_notificationNode : WellFormed (notificationNode lib notification ceEvent) :=
  ⟨trivial,trivial,trivial,wellFormed_valuesToJSON _ _,trivial⟩

theorem text_of_written (h : notification.Written lib ceEvent) :
    notification.strRepresentation = lib.writeFormatted (pushBack
      (lib.parse notification.message.strRepresentation) (notificationNode lib notification ceEvent)) := by
  have hcreate := h.notification
  rw [createStringRepresentation,h.event] at hcreate
  exact congrArg strRepresentation hcreate.symm

private theorem parseFrom_eq (hlawful : lib.Lawful) (h : notification.Written lib ceEvent)
    (reader : PropertyChangedNotification) :
    parseFromStringRepresentation lib reader notification.strRepresentation = { reader with
      strPropPath := notification.strPropPath
      ceEvent := some ceEvent
      oProperty := reader.oProperty.setValues (notification.oProperty.values.readBack lib.numbers) } := by
  have hnode : WellFormed (notificationNode lib notification ceEvent) := wellFormed_notificationNode
  have hnotification : find (lib.parse notification.strRepresentation) "Notification" =
      some (notificationNode lib notification ceEvent) := by
    rw [text_of_written h,parse_document hlawful h.message hnode]
    exact find_behind_header rfl (by decide)
  have hpath : find (notificationNode lib notification ceEvent) "Path" =
      some (textNode "Path" notification.strPropPath) :=
    find_textNode_ne (by decide) (find_cons_eq rfl)
  have hevent : find (notificationNode lib notification ceEvent) "Event" = some (textNode "Event" ceEvent.text) :=
    find_textNode_ne (by decide) (find_textNode_ne (by decide) (find_cons_eq rfl))
  have hvalue : find (notificationNode lib notification ceEvent) "Value" =
      some (valuesToJSON lib.numbers notification.oProperty.values) :=
    find_textNode_ne (by decide) (find_textNode_ne (by decide) (find_textNode_ne (by decide)
      (find_cons_eq (name_valuesToJSON))))
  simp only [parseFromStringRepresentation,hnotification,hpath,readEvent,hevent,textNode,ofText_text,readValue,
    hvalue,jsonToValues_valuesToJSON hlawful.numbers]
  rfl

theorem faithful_iff (hlawful : lib.Lawful) (h : notification.Written lib ceEvent)
    (target : PropertyChangedNotification) : Faithful lib notification target ↔
      notification.oProperty.values.Recoverable ∧ target.message.header = notification.message.header := by
  have hmessage : Message.parse lib notification.strRepresentation = notification.message := by
    rw [text_of_written h,parse_written hlawful h.message (wellFormed_notificationNode)]
  rw [Faithful,parse,copy,assign,assign,parseFrom_eq hlawful h,parseFrom_eq hlawful h,parseFrom_eq hlawful h,
    hmessage]
  constructor
  · rintro ⟨⟨-,-,-,hvalues⟩,-,-,hheader,-⟩
    exact ⟨(Values.readBack_eq_iff hlawful.numbers _).mp hvalues,hheader⟩
  · rintro ⟨hrecoverable,hheader⟩
    have hvalues := (Values.readBack_eq_iff hlawful.numbers _).mpr hrecoverable
    rw [hvalues]
    refine ⟨⟨rfl,rfl,h.event.symm,rfl⟩,?_,⟨rfl,rfl,h.event.symm,rfl⟩,hheader,rfl,h.event.symm,rfl⟩
    exact (text_of_written h).symm

end PropertyChangedNotification

namespace CustomCommand
variable {command : CustomCommand}

structure Written (lib : MessageLibrary) (command : CustomCommand) : Prop where
  message : Message.createStringRepresentation lib command.message = command.message
  command : createStringRepresentation lib command = command

theorem written_create (lib : MessageLibrary) (strCommand strParameterTree strSender strReceiver : String)
    (tmTimeStamp tmSimTime : Int64) :
    (create lib strCommand strParameterTree strSender strReceiver tmTimeStamp tmSimTime).Written lib :=
  ⟨rfl,rfl⟩

/-- The header, the name and the parameters agree. -/
def Equal (lib : MessageLibrary) (command other : CustomCommand) : Prop :=
  command.message.header = other.message.header ∧ command.strName = other.strName ∧
    lib.parse command.strParameterTree = lib.parse other.strParameterTree

/-- The command that is read from the text, its text, a copy and the target of an assignment are as the command. -/
def Faithful (lib : MessageLibrary) (command target : CustomCommand) : Prop :=
  Equal lib (parse lib command.strRepresentation) command ∧
    (parse lib command.strRepresentation).strRepresentation = command.strRepresentation ∧
    Equal lib command.copy command ∧ Equal lib (target.assign command) command

def IsParameter (node : JSONNode lib.numbers.Number) : Prop := node.name ≠ "Name" ∧ node.name ≠ "Type"

instance (node : JSONNode lib.numbers.Number) : Decidable (IsParameter node) := inferInstanceAs (Decidable (_ ∧ _))

theorem readChildren_snd (nodes : List (JSONNode lib.numbers.Number)) (strName : String)
    (parameters : List (JSONNode lib.numbers.Number)) :
    (readChildren lib nodes (strName,parameters)).2 = parameters ++ nodes.filter fun node => IsParameter node := by
  induction nodes generalizing strName parameters with
  | nil => rw [readChildren,filter_nil,append_nil]
  | cons node nodes ih =>
    rw [readChildren]
    split
    · rename_i hname
      rw [ih,filter_cons_of_neg (by simp [IsParameter,hname])]
    · rename_i hname
      split
      · rename_i htype
        rw [ih,filter_cons_of_neg (by simp [IsParameter,htype])]
      · rename_i htype
        rw [ih,filter_cons_of_pos (by simp [IsParameter,hname,htype]),append_assoc,singleton_append]

variable {nodes : List (JSONNode lib.numbers.Number)}

theorem readChildren_fst
    (hnodes : ∀ node ∈ nodes, IsParameter node) (strName : String) (parameters : List (JSONNode lib.numbers.Number)) :
    (readChildren lib nodes (strName,parameters)).1 = strName := by
  induction nodes generalizing parameters with
  | nil => rfl
  | cons node nodes ih =>
    rw [forall_mem_cons] at hnodes
    rw [readChildren,if_neg hnodes.1.1,if_neg hnodes.1.2]
    exact ih hnodes.2 _

theorem parse_eq (hlawful : lib.Lawful) (h : command.Written lib)
    (hparameters : lib.parse command.strParameterTree = .node "" nodes) :
    parse lib command.strRepresentation = createStringRepresentation lib { command with
      strName := (readChildren lib nodes (command.strName,[])).1
      strParameterTree := lib.writeFormatted (.node "" (nodes.filter fun node => IsParameter node)) } := by
  have htext : command.strRepresentation =
      lib.writeFormatted (pushBack (lib.parse command.message.strRepresentation) (commandNode lib command)) :=
    congrArg strRepresentation h.command.symm
  have hwellFormed := hlawful.wellFormed_parse command.strParameterTree
  rw [hparameters] at hwellFormed
  have hcommandNode : commandNode lib command =
      .node "Command" (textNode "Type" "custom" :: textNode "Name" command.strName::nodes) := by
    rw [commandNode,hparameters]
    rfl
  have hnode : WellFormed (commandNode lib command) := by
    rw [hcommandNode]
    exact ⟨trivial,trivial,hwellFormed⟩
  have hcommand : find (lib.parse command.strRepresentation) "Command" = some (commandNode lib command) := by
    rw [htext,parse_document hlawful h.message hnode]
    exact find_behind_header rfl (by decide)
  have hmessage : Message.parse lib command.strRepresentation = command.message := by
    rw [htext,parse_written hlawful h.message hnode]
  have hread : readChildren lib (children (commandNode lib command)) ("",[]) =
      readChildren lib nodes (command.strName,[]) := by
    rw [hcommandNode]
    rfl
  simp only [parse,hcommand,hmessage,hread,readChildren_snd,nil_append]
  rfl

theorem faithful_iff (hlawful : lib.Lawful) (h : command.Written lib)
    (hparameters : lib.parse command.strParameterTree = .node "" nodes) (target : CustomCommand) :
    Faithful lib command target ↔
      (∀ node ∈ nodes, IsParameter node) ∧ target.message.header = command.message.header := by
  have hwellFormed := hlawful.wellFormed_parse command.strParameterTree
  rw [hparameters] at hwellFormed
  have hwritten : lib.parse (lib.writeFormatted (.node "" (nodes.filter fun node => IsParameter node))) =
      .node "" (nodes.filter fun node => IsParameter node) :=
    hlawful.parse_writeFormatted _ fun node hnode =>
      wellFormedChildren_iff.mp hwellFormed node (mem_of_mem_filter hnode)
  rw [Faithful,parse_eq hlawful h hparameters]
  constructor
  · rintro ⟨⟨-,-,hread⟩,-,-,hheader,-⟩
    refine ⟨fun node hnode => ?_,hheader⟩
    have hfilter := hwritten.symm.trans (hread.trans hparameters)
    rw [JSONNode.node.injEq,filter_eq_self] at hfilter
    exact of_decide_eq_true (hfilter.2 node hnode)
  · rintro ⟨hnodes,hheader⟩
    have hfilter : nodes.filter (fun node => IsParameter node) = nodes :=
      filter_eq_self.mpr fun node hnode => decide_eq_true (hnodes node hnode)
    rw [hfilter] at hwritten ⊢
    rw [readChildren_fst hnodes]
    refine ⟨⟨rfl,rfl,hwritten.trans hparameters.symm⟩,?_,⟨rfl,rfl,rfl⟩,hheader,rfl,rfl⟩
    have hsame := congrArg strRepresentation h.command
    simp only [createStringRepresentation,commandNode,hparameters,hwritten] at hsame ⊢
    exact hsame

end CustomCommand

/-- A command that sets a property and a notification of a change are faithful if and only if their values are
recoverable, a custom command if and only if no parameter is called `Name` or `Type`; the target of an assignment
must have the header already. -/
theorem messages_faithful_iff (lib : MessageLibrary) (hlawful : lib.Lawful) (strSender strReceiver : String)
    (tmTimeStamp tmSimTime : Int64) : (∀ value calls strPropertyPath target,
      let command := SetPropertyCommand.build lib value calls strPropertyPath strSender strReceiver
        tmTimeStamp tmSimTime
      SetPropertyCommand.Faithful lib command target ↔
        command.vPropVal.Recoverable ∧ target.message.header = command.message.header) ∧
    (∀ poProperty ceEvent strPropPath target,
      let notification := PropertyChangedNotification.create lib poProperty ceEvent strPropPath strSender strReceiver
        tmTimeStamp tmSimTime
      PropertyChangedNotification.Faithful lib notification target ↔
        poProperty.values.Recoverable ∧ target.message.header = notification.message.header) ∧
    (∀ strCommand strParameterTree nodes target, lib.parse strParameterTree = .node "" nodes →
      let command := CustomCommand.create lib strCommand strParameterTree strSender strReceiver tmTimeStamp tmSimTime
      CustomCommand.Faithful lib command target ↔
        (∀ node ∈ nodes, CustomCommand.IsParameter node) ∧ target.message.header = command.message.header) := by
  refine ⟨fun value calls strPropertyPath target => ?_,fun poProperty ceEvent strPropPath target => ?_,
    fun strCommand strParameterTree nodes target hparameters => ?_⟩
  · exact SetPropertyCommand.faithful_iff hlawful (SetPropertyCommand.written_build ..) target
  · have hiff := faithful_iff hlawful
      (written_create lib poProperty ceEvent strPropPath strSender strReceiver tmTimeStamp
        tmSimTime) target
    rwa [values_create] at hiff
  · exact CustomCommand.faithful_iff hlawful (CustomCommand.written_create ..) hparameters target

end FepParticipant.Messages
