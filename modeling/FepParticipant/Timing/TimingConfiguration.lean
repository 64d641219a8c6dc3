import FepParticipant.Library.OrderedMap
import FepParticipant.Library.XMLContent
import FepParticipant.Timing.TaskThread

/-! The timing configuration, and how it is read from a document and written as one. -/
namespace FepParticipant.Timing
open DataAccess Library Library.XML String List Bool

structure GlobalInputConfig where
  backLogSize : Int
  deriving DecidableEq

structure ParticipantConfig where
  systemTimeoutS : Int
  tasks : List (String × StepConfig)
  inputConfigs : List (String × GlobalInputConfig)
  deriving DecidableEq

structure TimingHeader where
  author : String
  dateCreation : String
  dateChange : String
  description : String
  deriving DecidableEq

/-- `TimingConfiguration`; its maps are listed in the order of their keys. -/
structure TimingConfiguration where
  header : TimingHeader
  participants : List (String × ParticipantConfig)
  deriving DecidableEq

/-- The XML library and the string utilities: a document is parsed or refused, the begin of a string converted to a
number. -/
structure ConfigLibrary where
  fromString : String → Option Node
  toInt64 : String → Int
  toInt32 : String → Int

/-- The description of the error that a reader reports, if it has reported one. -/
abbrev Report := Option String

/-- `MAKE_ERROR`: the error replaces the one before. -/
def makeError (text : String) (_ : Report) : Report := some ("Error in Timing Configuration: " ++ text)

/-- An error that is made only if there is none before. -/
def makeFirstError (text : String) (report : Report) : Report :=
  if report.isNone then makeError text report else report

namespace TimeViolationStrategy

def fromString (text : String) : TimeViolationStrategy :=
  if text = "TS_UNKNOWN" then .unknown
  else if text = "TS_IGNORE_RUNTIME_VIOLATION" then .ignoreRuntimeViolation
  else if text = "TS_WARN_ABOUT_RUNTIME_VIOLATION" then .warnAboutRuntimeViolation
  else if text = "TS_SKIP_OUTPUT_PUBLISH" then .skipOutputPublish
  else if text = "TS_SET_STM_TO_ERROR" then .setStmToError
  else .unknown

def text : TimeViolationStrategy → String
  | .unknown => "TS_UNKNOWN"
  | .ignoreRuntimeViolation => "TS_IGNORE_RUNTIME_VIOLATION"
  | .warnAboutRuntimeViolation => "TS_WARN_ABOUT_RUNTIME_VIOLATION"
  | .skipOutputPublish => "TS_SKIP_OUTPUT_PUBLISH"
  | .setStmToError => "TS_SET_STM_TO_ERROR"

theorem fromString_text (strategy : TimeViolationStrategy) : fromString strategy.text = strategy := by
  cases strategy <;> decide

end TimeViolationStrategy

namespace InputViolation

def fromString (text : String) : InputViolationStrategy :=
  if text = "IS_UNKNOWN" then .unknown
  else if text = "IS_IGNORE_INPUT_VALIDITY_VIOLATION" then .ignoreInputValidityViolation
  else if text = "IS_WARN_ABOUT_INPUT_VALIDITY_VIOLATION" then .warnAboutInputValidityViolation
  else if text = "IS_SKIP_OUTPUT_PUBLISH" then .skipOutputPublish
  else if text = "IS_SET_STM_TO_ERROR" then .setStmToError
  else .unknown

def text : InputViolationStrategy → String
  | .unknown => "IS_UNKNOWN"
  | .ignoreInputValidityViolation => "IS_IGNORE_INPUT_VALIDITY_VIOLATION"
  | .warnAboutInputValidityViolation => "IS_WARN_ABOUT_INPUT_VALIDITY_VIOLATION"
  | .skipOutputPublish => "IS_SKIP_OUTPUT_PUBLISH"
  | .setStmToError => "IS_SET_STM_TO_ERROR"

theorem fromString_text (strategy : InputViolationStrategy) : fromString (text strategy) = strategy := by
  cases strategy <;> decide

end InputViolation

/-- The attribute `name`, which must be there and must not be empty. -/
def readName (emptyError : String → Report → Report) (node : Node) (report : Report) : String × Report :=
  if node.hasAttribute "name" then
    (node.getAttribute "name",
      if node.getAttribute "name" = "" then emptyError "Empty attribute \"name\"" report else report)
  else ("",makeFirstError "Missing attribute \"name\"" report)

def readNumber (convert : String → Int) (name : String) (default : Int) (required : Bool) (invalid : Int → Bool)
    (node : Node) (report : Report) : Int × Report :=
  if node.hasAttribute name then
    let value := convert (node.getAttribute name)
    (value,if invalid value then makeError ("Invalid attribute \"" ++ name ++ "\"") report else report)
  else (default,if required then makeFirstError ("Missing attribute \"" ++ name ++ "\"") report else report)

def readStrategy {S : Type} [DecidableEq S] (convert : String → S) (unknown default : S) (name : String)
    (node : Node) (report : Report) : S × Report :=
  if node.hasAttribute name then
    let strategy := convert (node.getAttribute name)
    (strategy,
      if strategy = unknown then makeFirstError ("Invalid attribute \"" ++ name ++ "\"") report else report)
  else (default,makeFirstError ("Missing attribute \"" ++ name ++ "\"") report)

namespace ConfigLibrary

variable (library : ConfigLibrary)
variable (node : Node)
variable (report : Report)

def readSystemTimeout : Int × Report :=
  if node.hasAttribute "systemTimeout_s" then
    let text := node.getAttribute "systemTimeout_s"
    if text = "" then (10,makeError "Empty attribute \"systemTimeout_s\"" report)
    else if text = "0" ∨ text = "NONE" ∨ text = "OFF" then (0,report)
    else if library.toInt64 text ≤ 0 then (10,makeError "Invalid value for \"systemTimeout_s\"" report)
    else (library.toInt64 text,report)
  else (10,report)

def insertRead {ν : Type} (read : Node → Report → (String × ν) × Report) (state : List (String × ν) × Report)
    (node : Node) : List (String × ν) × Report :=
  let (entry,report) := read node state.2
  (if report.isNone then OrderedMap.insert entry state.1 else state.1,report)

def readInput : (String × InputConfig) × Report :=
  let (name,report) := readName makeFirstError node report
  let (validAge,report) := readNumber library.toInt64 "validAge_sim_us" 0 true (fun _ => false) node report
  let (delay,report) := readNumber library.toInt64 "delay_sim_us" 0 false (fun value => decide (value < 0)) node report
  let (strategy,report) :=
    readStrategy InputViolation.fromString .unknown .unknown "inputViolationStrategy" node report
  ((name,⟨0,validAge,delay,strategy⟩),report)

def readOutput : (String × OutputConfig) × Report :=
  let (name,report) := readName makeFirstError node report
  ((name,⟨0⟩),report)

def readStep : (String × StepConfig) × Report :=
  let (name,report) := readName makeFirstError node report
  let (cycleTime,report) :=
    readNumber library.toInt64 "cycleTime_sim_us" 100000 true (fun value => value == 0) node report
  let (maxRuntime,report) :=
    readNumber library.toInt64 "maxRuntime_us" 0 false (fun value => decide (value < 0)) node report
  let (maxInputWaittime,report) :=
    readNumber library.toInt64 "maxInputWaittime_us" 0 true (fun value => decide (value < 0)) node report
  let (strategy,report) := readStrategy TimeViolationStrategy.fromString .unknown .ignoreRuntimeViolation
    "runtimeViolationStrategy" node report
  let (inputs,report) := (node.findNodes ["inputs","input"]).foldl (insertRead library.readInput) ([],report)
  let (outputs,report) := (node.findNodes ["outputs","output"]).foldl (insertRead readOutput) ([],report)
  ((name,⟨cycleTime,maxRuntime,maxInputWaittime,strategy,inputs,outputs⟩),report)

def readGlobalInput : (String × GlobalInputConfig) × Report :=
  let (name,report) := readName makeFirstError node report
  let (backLogSize,report) := readNumber library.toInt32 "backLogSize" 0 true (fun value => value == 0) node report
  ((name,⟨backLogSize⟩),report)

def insertStep (state : List (String × StepConfig) × Report) (node : Node) : List (String × StepConfig) × Report :=
  let (entry,report) := library.readStep node state.2
  (OrderedMap.insert entry state.1,report)

def readParticipant : (String × ParticipantConfig) × Report :=
  let (name,report) := readName makeError node report
  let (systemTimeout,report) := library.readSystemTimeout node report
  let (tasks,report) := (node.findNodes ["steps","step"]).foldl library.insertStep ([],report)
  let (inputs,report) := (node.findNodes ["inputs","input"]).foldl (insertRead library.readGlobalInput) ([],report)
  ((name,⟨systemTimeout,tasks,inputs⟩),report)

def readHeaderText (header : Node) (name : String) : String :=
  match header.getChild name with
  | some child => child.getData
  | none => ""

def readHeader (dom : Node) : TimingHeader :=
  match if dom.isNamed "timing" then dom.findNodes ["header"] else [] with
  | [] => ⟨"","","",""⟩
  | header::_ => ⟨readHeaderText header "author",readHeaderText header "date_creation",
      readHeaderText header "date_change",readHeaderText header "description"⟩

/-- `internal_readTimingConfigFromDOM`. -/
def readTimingConfigFromDOM (dom : Node) : TimingConfiguration × Report :=
  let nodes := if dom.isNamed "timing" then dom.findNodes ["participants","participant"] else []
  let (participants,report) := nodes.foldl (insertRead library.readParticipant) ([],none)
  (⟨readHeader dom,participants⟩,
    if participants.length = 0 then makeFirstError "Missing element \"participant\"" report else report)

def readTimingConfigFromString (text : String) (configuration : TimingConfiguration) :
    TimingConfiguration × Report :=
  match library.fromString text with
  | none => (configuration,makeError "Failed to parse file" none)
  | some dom => library.readTimingConfigFromDOM dom

end ConfigLibrary

def writeInput (entry : String × InputConfig) : String :=
  "                    <input" ++ " name=\"" ++ entry.1 ++ "\"" ++
    " validAge_sim_us=\"" ++ toString entry.2.validAgeSimUs ++ "\"" ++
    " delay_sim_us=\"" ++ toString entry.2.delaySimUs ++ "\"" ++
    " inputViolationStrategy=\"" ++ InputViolation.text entry.2.inputViolationStrategy ++ "\"" ++ " />" ++ "\n"

def writeStep (entry : String × StepConfig) : String :=
  "            <step" ++ " name=\"" ++ entry.1 ++ "\"" ++
    " cycleTime_sim_us=\"" ++ toString entry.2.cycleTimeSimUs ++ "\"" ++
    " maxRuntime_us=\"" ++ toString entry.2.maxRuntimeUs ++ "\"" ++
    " maxInputWaittime_us=\"" ++ toString entry.2.maxInputWaittimeUs ++ "\"" ++
    " runtimeViolationStrategy=\"" ++ entry.2.runtimeViolationStrategy.text ++ "\"" ++ ">" ++ "\n" ++
    "                <inputs>" ++ "\n" ++
    writeEach writeInput entry.2.inputs ++
    "                </inputs>" ++ "\n" ++
    "            </step>" ++ "\n"

def writeGlobalInput (entry : String × GlobalInputConfig) : String :=
  "            <input name=\"" ++ entry.1 ++ "\" backLogSize=\"" ++ toString entry.2.backLogSize ++ "\" />" ++ "\n"

def writeParticipant (entry : String × ParticipantConfig) : String :=
  "    <participant name=\"" ++ entry.1 ++ "\">" ++ "\n" ++
    "        <steps>" ++ "\n" ++
    writeEach writeStep entry.2.tasks ++
    "        </steps>" ++ "\n" ++
    "        <inputs>" ++ "\n" ++
    writeEach writeGlobalInput entry.2.inputConfigs ++
    "        </inputs>" ++ "\n" ++
    "    </participant>" ++ "\n"

/-- `writeTimingConfigToStream`, with the stream as its text. -/
def writeTimingConfigToString (configuration : TimingConfiguration) : String :=
  "<?xml version=\"1.0\" encoding=\"iso-8859-1\" standalone=\"no\"?>" ++ "\n" ++
    "<timing xmlns:timing=\"timing\">" ++ "\n" ++
    " <header>" ++ "\n" ++
    "  <author>" ++ configuration.header.author ++ "</author>" ++ "\n" ++
    "  <date_creation>" ++ configuration.header.dateCreation ++ "</date_creation>" ++ "\n" ++
    "  <date_change>" ++ configuration.header.dateChange ++ "</date_change>" ++ "\n" ++
    "  <description>" ++ configuration.header.description ++ "</description>" ++ "\n" ++
    " </header>" ++ "\n" ++
    " <participants>" ++ "\n" ++
    writeEach writeParticipant configuration.participants ++
    " </participants>" ++ "\n" ++
    "</timing>" ++ "\n"

/-- The names of a step can be written as they are. -/
def plainStep (entry : String × StepConfig) : Bool :=
  isAttributeText entry.1 && entry.2.inputs.all (isAttributeText ·.1)

def plainParticipant (entry : String × ParticipantConfig) : Bool :=
  isAttributeText entry.1 && entry.2.tasks.all plainStep && entry.2.inputConfigs.all (isAttributeText ·.1)

/-- The names and header texts can be written as they are. -/
def TimingConfiguration.plain (configuration : TimingConfiguration) : Bool :=
  isDataText configuration.header.author && isDataText configuration.header.dateCreation &&
    isDataText configuration.header.dateChange && isDataText configuration.header.description &&
    configuration.participants.all plainParticipant

def inputNode (entry : String × InputConfig) : Node :=
  .element "input" [("name",entry.1),("validAge_sim_us",toString entry.2.validAgeSimUs),
    ("delay_sim_us",toString entry.2.delaySimUs),
    ("inputViolationStrategy",InputViolation.text entry.2.inputViolationStrategy)] []

def stepNode (entry : String × StepConfig) : Node :=
  .element "step" [("name",entry.1),("cycleTime_sim_us",toString entry.2.cycleTimeSimUs),
      ("maxRuntime_us",toString entry.2.maxRuntimeUs),
      ("maxInputWaittime_us",toString entry.2.maxInputWaittimeUs),
      ("runtimeViolationStrategy",entry.2.runtimeViolationStrategy.text)]
    (block "                " "            " [.element "inputs" []
      (block "                    " "                " (entry.2.inputs.map inputNode))])

def globalInputNode (entry : String × GlobalInputConfig) : Node :=
  .element "input" [("name",entry.1),("backLogSize",toString entry.2.backLogSize)] []

def participantNode (entry : String × ParticipantConfig) : Node :=
  .element "participant" [("name",entry.1)] (block "        " "    " [
    .element "steps" [] (block "            " "        " (entry.2.tasks.map stepNode)),
    .element "inputs" [] (block "            " "        " (entry.2.inputConfigs.map globalInputNode))])

def headerNode (header : TimingHeader) : Node :=
  .element "header" [] (block "  " " " [.element "author" [] (textNodes header.author),
    .element "date_creation" [] (textNodes header.dateCreation),
    .element "date_change" [] (textNodes header.dateChange),
    .element "description" [] (textNodes header.description)])

def timingNode (configuration : TimingConfiguration) : Node :=
  .element "timing" [("xmlns:timing","timing")] (block " " "" [headerNode configuration.header,
    .element "participants" [] (block "    " " " (configuration.participants.map participantNode))])

private theorem attributeChar_of_isDigit {c : Char} (h : c.isDigit = true) : attributeChar c = true := by
  simp only [Char.isDigit,and_eq_true,decide_eq_true_eq,UInt32.le_iff_toNat_le] at h
  obtain ⟨hlow,hhigh⟩ := h
  have hlow' : 48 ≤ c.toNat := hlow
  have hhigh' : c.toNat ≤ 57 := hhigh
  have hne (d : Char) (hd : d.toNat < 48 ∨ 57 < d.toNat) : (c != d) = true := by
    rw [bne_iff_ne]
    rintro rfl
    omega
  simp only [attributeChar,and_eq_true,decide_eq_true_eq]
  exact ⟨⟨⟨⟨by omega,by omega⟩,hne '<' (by decide)⟩,hne '&' (by decide)⟩,hne '"' (by decide)⟩

private theorem isAttributeText_repr (n : Nat) : isAttributeText n.repr = true := by
  refine all_eq_true.mpr fun c hc => ?_
  rw [Nat.toList_repr] at hc
  exact attributeChar_of_isDigit (Nat.isDigit_of_mem_toDigits (by decide) (by decide) hc)

theorem isAttributeText_int (value : Int) : isAttributeText value.repr = true := by
  rw [Int.repr_eq_if]
  split
  · exact isAttributeText_repr _
  · rw [isAttributeText,toList_append,all_append,and_eq_true]
    exact ⟨by decide,isAttributeText_repr _⟩

theorem isAttributeText_timeStrategy (strategy : TimeViolationStrategy) : isAttributeText strategy.text = true := by
  cases strategy <;> decide

private theorem isAttributeText_inputStrategy (strategy : InputViolationStrategy) :
    isAttributeText (InputViolation.text strategy) = true := by
  cases strategy <;> decide

theorem spellsLine_input {entry : String × InputConfig} (hname : isAttributeText entry.1 = true) :
    SpellsLine "                    " (inputNode entry) (writeInput entry) := by
  refine SpellsLine.empty (by decide) ?_ ?_
  · refine ⟨by simp; decide,?_,by simp⟩
    simp [hname,isAttributeText_int,isAttributeText_inputStrategy]
  · apply toList_injective
    delta writeInput
    simp [attributesText,toList_append]

theorem spellsLine_globalInput {entry : String × GlobalInputConfig} (hname : isAttributeText entry.1 = true) :
    SpellsLine "            " (globalInputNode entry) (writeGlobalInput entry) := by
  refine SpellsLine.empty (by decide) ?_ ?_
  · refine ⟨by simp; decide,?_,by simp⟩
    simp [hname,isAttributeText_int]
  · apply toList_injective
    delta writeGlobalInput
    simp [attributesText,toList_append]

theorem content_lines {indent close : String} (lines : List (Node × String))
    (hindent : isDataText ("\n" ++ indent) = true) (hclose : isDataText ("\n" ++ close) = true)
    (hlines : ∀ line ∈ lines, SpellsLine indent line.1 line.2) :
    Content (block indent close (lines.map (·.1))) ("\n" ++ writeEach (·.2) lines ++ close) :=
  content_block hindent hclose hlines

theorem spellsLine_list {α : Type} {indent inner name line : String} {node : α → Node} {write : α → String}
    {entries : List α} (hname : isName name = true) (hinner : isDataText ("\n" ++ inner) = true)
    (hindent : isDataText ("\n" ++ indent) = true)
    (hlines : ∀ entry ∈ entries, SpellsLine inner (node entry) (write entry))
    (hline : line = indent ++ "<" ++ name ++ ">" ++ "\n" ++ writeEach write entries ++ indent ++ "</" ++ name ++ ">" ++
      "\n") : SpellsLine indent (.element name [] (block inner indent (entries.map node))) line := by
  refine SpellsLine.nested hname .nil (content_block hinner hindent hlines) (hline.trans ?_)
  rw [attributesText,append_empty]

set_option maxRecDepth 4000 in
private theorem spellsLine_step {entry : String × StepConfig} (hplain : plainStep entry = true) :
    SpellsLine "            " (stepNode entry) (writeStep entry) := by
  obtain ⟨hname,hinputs⟩ := and_eq_true_iff.mp hplain
  have hline : SpellsLine "                "
      (.element "inputs" [] (block "                    " "                " (entry.2.inputs.map inputNode))) _ :=
    spellsLine_list (by decide) (by decide) (by decide)
      (fun input hinput => spellsLine_input (all_eq_true.mp hinputs input hinput)) rfl
  refine SpellsLine.nested (by decide) ?_ (content_lines [(_,_)] (by decide) (by decide) (by simpa using hline)) ?_
  · refine ⟨by simp; decide,?_,by simp⟩
    simp [hname,isAttributeText_int,isAttributeText_timeStrategy]
  · apply toList_injective
    delta writeStep
    simp [writeEach,attributesText,toList_append]

set_option maxRecDepth 4000 in
theorem spellsLine_participant {entry : String × ParticipantConfig} (hplain : plainParticipant entry = true) :
    SpellsLine "    " (participantNode entry) (writeParticipant entry) := by
  obtain ⟨hname,hinputs⟩ := and_eq_true_iff.mp hplain
  obtain ⟨hname,htasks⟩ := and_eq_true_iff.mp hname
  have hsteps : SpellsLine "        "
      (.element "steps" [] (block "            " "        " (entry.2.tasks.map stepNode))) _ :=
    spellsLine_list (by decide) (by decide) (by decide)
      (fun task htask => spellsLine_step (all_eq_true.mp htasks task htask)) rfl
  have hglobal : SpellsLine "        "
      (.element "inputs" [] (block "            " "        " (entry.2.inputConfigs.map globalInputNode))) _ :=
    spellsLine_list (by decide) (by decide) (by decide)
      (fun input hinput => spellsLine_globalInput (all_eq_true.mp hinputs input hinput)) rfl
  refine SpellsLine.nested (by decide) ?_
    (content_lines [(_,_),(_,_)] (by decide) (by decide) (by simpa using ⟨hsteps,hglobal⟩)) ?_
  · refine ⟨by simp; decide,?_,by simp⟩
    simp [hname]
  · apply toList_injective
    delta writeParticipant
    simp [writeEach,attributesText,toList_append]

private def writeHeader (header : TimingHeader) : String :=
  " <header>" ++ "\n" ++
    "  <author>" ++ header.author ++ "</author>" ++ "\n" ++
    "  <date_creation>" ++ header.dateCreation ++ "</date_creation>" ++ "\n" ++
    "  <date_change>" ++ header.dateChange ++ "</date_change>" ++ "\n" ++
    "  <description>" ++ header.description ++ "</description>" ++ "\n" ++
    " </header>" ++ "\n"

set_option maxRecDepth 4000 in
private theorem spellsLine_header {header : TimingHeader} (hauthor : isDataText header.author = true)
    (hcreation : isDataText header.dateCreation = true) (hchange : isDataText header.dateChange = true)
    (hdescription : isDataText header.description = true) :
    SpellsLine " " (headerNode header) (writeHeader header) := by
  have hauthor : SpellsLine "  " (.element "author" [] (textNodes header.author)) _ := .text (by decide) hauthor rfl
  have hcreation : SpellsLine "  " (.element "date_creation" [] (textNodes header.dateCreation)) _ :=
    .text (by decide) hcreation rfl
  have hchange : SpellsLine "  " (.element "date_change" [] (textNodes header.dateChange)) _ :=
    .text (by decide) hchange rfl
  have hdescription : SpellsLine "  " (.element "description" [] (textNodes header.description)) _ :=
    .text (by decide) hdescription rfl
  refine SpellsLine.nested (by decide) .nil (content_lines [(_,_),(_,_),(_,_),(_,_)] (by decide) (by decide)
    (by simpa using ⟨hauthor,hcreation,hchange,hdescription⟩)) ?_
  apply toList_injective
  delta writeHeader
  simp [writeEach,attributesText,toList_append]

set_option maxRecDepth 4000 in
theorem document_writeTimingConfigToString {configuration : TimingConfiguration} (hplain : configuration.plain = true) :
    Document (timingNode configuration) (writeTimingConfigToString configuration) := by
  obtain ⟨hheader,hparticipants⟩ := and_eq_true_iff.mp hplain
  obtain ⟨hheader,hdescription⟩ := and_eq_true_iff.mp hheader
  obtain ⟨hheader,hchange⟩ := and_eq_true_iff.mp hheader
  obtain ⟨hauthor,hcreation⟩ := and_eq_true_iff.mp hheader
  have hheader := spellsLine_header hauthor hcreation hchange hdescription
  have hlist : SpellsLine " "
      (.element "participants" [] (block "    " " " (configuration.participants.map participantNode))) _ :=
    spellsLine_list (by decide) (by decide) (by decide)
      (fun participant hmem => spellsLine_participant (all_eq_true.mp hparticipants participant hmem)) rfl
  have hcontent := content_lines [(_,_),(_,_)] (by decide : isDataText ("\n" ++ " ") = true)
    (by decide : isDataText ("\n" ++ "") = true) (by simpa using ⟨hheader,hlist⟩)
  have hattributes : Attributes [("xmlns:timing","timing")] := ⟨by simp; decide,by simp; decide,by simp⟩
  have hroot : Spells (timingNode configuration) _ := Spells.element (by decide) hattributes hcontent
  have hdocument := Document.mk rfl
    (hroot (Content.data (by decide) (by decide : isDataText "\n" = true) (by simp) .nil))
  rw [← show _ = writeTimingConfigToString configuration from ?_]
  · exact hdocument
  · apply toList_injective
    delta writeTimingConfigToString writeHeader declaration
    simp [writeEach,attributesText,toList_append]

end FepParticipant.Timing
