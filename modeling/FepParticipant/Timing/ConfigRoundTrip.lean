import FepParticipant.Timing.ConfigReading
import FepParticipant.Library.XMLParser
import Std.Data.String.ToInt

/-! Which timing configurations are read back from what is written: system timeouts and outputs are
not written, and texts are written without escaping. -/
namespace FepParticipant.Timing
open DataAccess Library Library.XML List ConfigLibrary

/-- What is read back of a step. -/
def StepConfig.written (config : StepConfig) : StepConfig := {config with outputs := []}

def ParticipantConfig.written (config : ParticipantConfig) : ParticipantConfig :=
  { config with
    systemTimeoutS := 10
    tasks := config.tasks.map fun entry => (entry.1,entry.2.written) }

def TimingConfiguration.written (configuration : TimingConfiguration) : TimingConfiguration :=
  {configuration with participants := configuration.participants.map fun entry => (entry.1,entry.2.written)}

/-- System timeouts have their default value, and no step has outputs. -/
def TimingConfiguration.Survives (configuration : TimingConfiguration) : Prop :=
  ∀ participant ∈ configuration.participants, participant.2.systemTimeoutS = 10 ∧
    ∀ step ∈ participant.2.tasks, step.2.outputs = []

section
variable {node : Node} {report : Report} {name : String}

theorem readName_attribute {emptyError : String → Report → Report} (hhas : node.hasAttribute "name" = true)
    (hget : node.getAttribute "name" = name) (hne : name ≠ "") : readName emptyError node report = (name,report) := by
  rw [readName,if_pos hhas,hget,if_neg hne]

theorem readNumber_attribute {convert : String → Int} {default value : Int} {required : Bool}
    {invalid : Int → Bool} (hhas : node.hasAttribute name = true)
    (hget : convert (node.getAttribute name) = value) (hvalid : invalid value = false) :
    readNumber convert name default required invalid node report = (value,report) := by
  rw [readNumber,if_pos hhas,hget]
  simp [hvalid]

theorem readStrategy_attribute {S : Type} [DecidableEq S] {convert : String → S} {unknown default strategy : S}
    (hhas : node.hasAttribute name = true) (hget : convert (node.getAttribute name) = strategy)
    (hknown : strategy ≠ unknown) : readStrategy convert unknown default name node report = (strategy,report) := by
  rw [readStrategy,if_pos hhas,hget]
  simp [hknown]

end

namespace ConfigLibrary

variable {library : ConfigLibrary}

theorem readInput_inputNode (hstandard : library.Standard) {entry : String × InputConfig}
    (h : ValidInput entry) : library.readInput (inputNode entry) none = (entry,none) := by
  have hname (report : Report) : readName makeFirstError (inputNode entry) report = (entry.1,report) :=
    readName_attribute rfl rfl h.name
  have hage (report : Report) : readNumber library.toInt64 "validAge_sim_us" 0 true (fun _ => false)
      (inputNode entry) report = (entry.2.validAgeSimUs,report) :=
    readNumber_attribute rfl (hstandard.toInt64_toString _ h.validAge) rfl
  have hdelay (report : Report) : readNumber library.toInt64 "delay_sim_us" 0 false (fun value => decide (value < 0))
      (inputNode entry) report = (entry.2.delaySimUs,report) :=
    readNumber_attribute rfl (hstandard.toInt64_toString _ h.delay) (by simpa using h.delay_nonneg)
  have hstrategy (report : Report) : readStrategy InputViolation.fromString .unknown .unknown "inputViolationStrategy"
      (inputNode entry) report = (entry.2.inputViolationStrategy,report) :=
    readStrategy_attribute rfl (InputViolation.fromString_text _) h.strategy
  simp only [readInput,hname,hage,hdelay,hstrategy]
  rw [← h.handle]

theorem findNodes_list {α : Type} {name first second indent close inner : String}
    {attributes : List (String × String)} {lists : List Node} {node : α → Node} {entries : List α}
    (hlists : lists.filter (Node.isNamed first) = [.element first [] (block inner indent (entries.map node))])
    (hnamed : ∀ entry, (node entry).isNamed second = true) :
    (Node.element name attributes (block indent close lists)).findNodes [first,second] = entries.map node := by
  rw [findNodes_block,hlists,flatMap_singleton,findNodes_block,filter_eq_self.mpr]
  · simp [Node.findNodes]
  · intro child hchild
    obtain ⟨entry,-,rfl⟩ := mem_map.mp hchild
    exact hnamed entry

theorem foldl_written {ν : Type} {step : List (String × ν) × Report → Node → List (String × ν) × Report}
    {valid : String × ν → Prop} {node : String × ν → Node} {entries : List (String × ν)} (written : ν → ν)
    (h : ValidMap valid entries) (hstep : ∀ entry, valid entry → ∀ map,
      step (map,none) (node entry) = (OrderedMap.insert (entry.1,written entry.2) map,none)) :
    (entries.map node).foldl step ([],none) = (entries.map fun entry => (entry.1,written entry.2),none) := by
  have hsorted : OrderedMap.Sorted (entries.map fun entry => (entry.1,written entry.2)) := pairwise_map.mpr h.sorted
  rw [← OrderedMap.foldl_insert hsorted]
  generalize ([] : List (String × ν)) = map
  have hvalid := h.valid
  clear h hsorted
  induction entries generalizing map with
  | nil => rfl
  | cons entry entries ih =>
    rw [map_cons,foldl_cons,hstep entry (hvalid entry mem_cons_self),map_cons,foldl_cons,
      ih _ fun other hother => hvalid other (mem_cons_of_mem _ hother)]

theorem insertRead_written {ν : Type} {read : Node → Report → (String × ν) × Report} {node : Node}
    {entry : String × ν} (h : read node none = (entry,none)) (map : List (String × ν)) :
    insertRead read (map,none) node = (OrderedMap.insert entry map,none) := by
  simp [insertRead,h]

theorem readStep_stepNode (hstandard : library.Standard) {entry : String × StepConfig} (h : ValidStep entry) :
    library.readStep (stepNode entry) none = ((entry.1,entry.2.written),none) := by
  have hname (report : Report) : readName makeFirstError (stepNode entry) report = (entry.1,report) :=
    readName_attribute rfl rfl h.name
  have hcycle (report : Report) : readNumber library.toInt64 "cycleTime_sim_us" 100000 true (fun value => value == 0)
      (stepNode entry) report = (entry.2.cycleTimeSimUs,report) :=
    readNumber_attribute rfl (hstandard.toInt64_toString _ h.cycleTime) (by simpa using h.cycleTime_ne)
  have hruntime (report : Report) : readNumber library.toInt64 "maxRuntime_us" 0 false
      (fun value => decide (value < 0)) (stepNode entry) report = (entry.2.maxRuntimeUs,report) :=
    readNumber_attribute rfl (hstandard.toInt64_toString _ h.maxRuntime) (by simpa using h.maxRuntime_nonneg)
  have hwait (report : Report) : readNumber library.toInt64 "maxInputWaittime_us" 0 true
      (fun value => decide (value < 0)) (stepNode entry) report = (entry.2.maxInputWaittimeUs,report) :=
    readNumber_attribute rfl (hstandard.toInt64_toString _ h.maxInputWaittime)
    (by simpa using h.maxInputWaittime_nonneg)
  have hstrategy (report : Report) : readStrategy TimeViolationStrategy.fromString .unknown .ignoreRuntimeViolation
      "runtimeViolationStrategy" (stepNode entry) report = (entry.2.runtimeViolationStrategy,report) :=
    readStrategy_attribute rfl (TimeViolationStrategy.fromString_text _) h.strategy
  have hinputs : (stepNode entry).findNodes ["inputs","input"] = entry.2.inputs.map inputNode :=
    findNodes_list rfl fun _ => rfl
  have houtputs : (stepNode entry).findNodes ["outputs","output"] = [] := by
    rfl
  have hread : (entry.2.inputs.map inputNode).foldl (insertRead library.readInput) ([],none) =
      (entry.2.inputs,none) := by
    rw [foldl_written id h.inputs fun input hinput map =>
      insertRead_written (readInput_inputNode hstandard hinput) map]
    simp
  simp only [readStep,hname,hcycle,hruntime,hwait,hstrategy,hinputs,houtputs,hread,foldl_nil]
  rfl

private theorem readGlobalInput_globalInputNode (hstandard : library.Standard) {entry : String × GlobalInputConfig}
    (h : ValidGlobalInput entry) : library.readGlobalInput (globalInputNode entry) none = (entry,none) := by
  have hname (report : Report) : readName makeFirstError (globalInputNode entry) report = (entry.1,report) :=
    readName_attribute rfl rfl h.name
  have hsize (report : Report) : readNumber library.toInt32 "backLogSize" 0 true (fun value => value == 0)
      (globalInputNode entry) report = (entry.2.backLogSize,report) :=
    readNumber_attribute rfl (hstandard.toInt32_toString _ h.backLogSize) (by simpa using h.backLogSize_ne)
  simp only [readGlobalInput,hname,hsize]

theorem readParticipant_participantNode (hstandard : library.Standard) {entry : String × ParticipantConfig}
    (h : ValidParticipant entry) :
    library.readParticipant (participantNode entry) none = ((entry.1,entry.2.written),none) := by
  have hname (report : Report) : readName makeError (participantNode entry) report = (entry.1,report) :=
    readName_attribute rfl rfl h.name
  have htimeout (report : Report) : library.readSystemTimeout (participantNode entry) report = (10,report) := rfl
  have hsteps : (participantNode entry).findNodes ["steps","step"] = entry.2.tasks.map stepNode :=
    findNodes_list rfl fun _ => rfl
  have hinputs : (participantNode entry).findNodes ["inputs","input"] = entry.2.inputConfigs.map globalInputNode :=
    findNodes_list rfl fun _ => rfl
  have htasks : (entry.2.tasks.map stepNode).foldl library.insertStep ([],none) =
      (entry.2.tasks.map fun task => (task.1,task.2.written),none) :=
    foldl_written StepConfig.written h.tasks fun task htask map => by rw [insertStep,readStep_stepNode hstandard htask]
  have hread : (entry.2.inputConfigs.map globalInputNode).foldl (insertRead library.readGlobalInput) ([],none) =
      (entry.2.inputConfigs,none) := by
    rw [foldl_written id h.inputConfigs fun input hinput map =>
      insertRead_written (readGlobalInput_globalInputNode hstandard hinput) map]
    simp
  simp only [readParticipant,hname,htimeout,hsteps,hinputs,htasks,hread]
  rfl

private theorem readHeader_timingNode (configuration : TimingConfiguration) :
    readHeader (timingNode configuration) = configuration.header := by
  have hnodes : (timingNode configuration).findNodes ["header"] = [headerNode configuration.header] := by
    rfl
  have htext (name text : String) (hchild : (headerNode configuration.header).getChild name =
      some (.element name [] (textNodes text))) : readHeaderText (headerNode configuration.header) name = text := by
    rw [readHeaderText,hchild]
    exact getData_textNodes name text []
  have hnamed : (timingNode configuration).isNamed "timing" = true := rfl
  rw [readHeader,if_pos hnamed,hnodes]
  dsimp only
  rw [htext "author" configuration.header.author (getChild_block ..),
    htext "date_creation" configuration.header.dateCreation (getChild_block ..),
    htext "date_change" configuration.header.dateChange (getChild_block ..),
    htext "description" configuration.header.description (getChild_block ..)]

theorem read_write (hstandard : library.Standard) {configuration : TimingConfiguration} (hvalid : configuration.Valid)
    (hplain : configuration.plain = true) (previous : TimingConfiguration) :
    library.readTimingConfigFromString (writeTimingConfigToString configuration) previous =
      (configuration.written,none) := by
  have hnodes : (timingNode configuration).findNodes ["participants","participant"] =
      configuration.participants.map participantNode := findNodes_list rfl fun _ => rfl
  have hread := foldl_written ParticipantConfig.written hvalid.participants fun participant hparticipant map =>
      insertRead_written (readParticipant_participantNode hstandard hparticipant) map
  have hnamed : (timingNode configuration).isNamed "timing" = true := rfl
  have hlength : (configuration.participants.map fun entry => (entry.1,entry.2.written)).length ≠ 0 := by
    simpa using hvalid.nonempty
  rw [readTimingConfigFromString,hstandard.parses _ _ (document_writeTimingConfigToString hplain)]
  dsimp only
  rw [readTimingConfigFromDOM,if_pos hnamed,hnodes,hread,readHeader_timingNode]
  dsimp only
  rw [if_neg hlength]
  rfl

end ConfigLibrary

private theorem TimingConfiguration.written_eq_iff (configuration : TimingConfiguration) :
    configuration.written = configuration ↔ configuration.Survives := by
  have hmap {α : Type} (f : α → α) (entries : List α) : entries.map f = entries ↔
      ∀ entry ∈ entries, f entry = entry := by
    have h := @map_inj_left _ _ entries f id
    rwa [map_id] at h
  obtain ⟨header,participants⟩ := configuration
  simp only [written,TimingConfiguration.mk.injEq,true_and,hmap,Prod.ext_iff,ParticipantConfig.written,
    StepConfig.written,Survives]
  refine forall₂_congr fun participant _ => ?_
  obtain ⟨name,timeout,tasks,inputs⟩ := participant
  simp only [ParticipantConfig.mk.injEq,hmap,Prod.ext_iff,true_and,and_true]
  refine and_congr eq_comm (forall₂_congr fun step _ => ?_)
  obtain ⟨name,cycle,runtime,wait,strategy,inputs,outputs⟩ := step
  simp only [StepConfig.mk.injEq,true_and]
  exact eq_comm

/-- A configuration that was read, and whose texts need no escaping, is read back exactly if its system timeouts
have the default value and no step has outputs. -/
theorem timing_config_round_trip_iff {library : ConfigLibrary} (hstandard : library.Standard) {text : String}
    {previous configuration : TimingConfiguration}
    (hread : library.readTimingConfigFromString text previous = (configuration,none))
    (hplain : configuration.plain = true) (other : TimingConfiguration) :
    library.readTimingConfigFromString (writeTimingConfigToString configuration) other = (configuration,none) ↔
      configuration.Survives := by
  have hvalid := readTimingConfigFromString_valid hstandard hread
  rw [read_write hstandard hvalid hplain,← configuration.written_eq_iff]
  simp

/-- A library that parses the documents that are spelled, and clamps numbers to the range of their type. -/
def spelledLibrary : ConfigLibrary where
  fromString := parseDocument
  toInt64 text := max (-9223372036854775808) (min 9223372036854775807 (text.toInt?.getD 0))
  toInt32 text := max (-2147483648) (min 2147483647 (text.toInt?.getD 0))

theorem spelledLibrary_standard : spelledLibrary.Standard where
  parses root text h := parseDocument_of_document h
  toInt64_toString value h := by
    obtain ⟨hlow,hhigh⟩ := h
    simp only [spelledLibrary,Int.toString_eq_repr,Int.toInt?_repr,Option.getD_some]
    omega
  toInt32_toString value h := by
    obtain ⟨hlow,hhigh⟩ := h
    simp only [spelledLibrary,Int.toString_eq_repr,Int.toInt?_repr,Option.getD_some]
    omega
  toInt64_range text := by
    simp only [spelledLibrary,IsInt64]
    omega
  toInt32_range text := by
    simp only [spelledLibrary,IsInt32]
    omega

def sampleHeader : TimingHeader := ⟨"the author","2019-01-01","","two steps"⟩

/-- A participant with a step that has an input, and a global input. -/
def sampleTiming : TimingConfiguration :=
  ⟨sampleHeader,[("camera",⟨10,
    [("step",⟨10000,500,0,.skipOutputPublish,[("image",⟨0,-1,0,.warnAboutInputValidityViolation⟩)],[]⟩)],
    [("image",⟨5⟩)]⟩)]⟩

private theorem validMap_singleton {ν : Type} {valid : String × ν → Prop} {entry : String × ν} (h : valid entry) :
    ValidMap valid [entry] :=
  ⟨pairwise_singleton _ _,by simpa using h⟩

private theorem sampleTiming_valid : sampleTiming.Valid := by
  have hinput : ValidInput ("image",⟨0,-1,0,.warnAboutInputValidityViolation⟩) := by
    constructor <;> decide
  have hstep : ValidStep ("step",⟨10000,500,0,.skipOutputPublish,
      [("image",⟨0,-1,0,.warnAboutInputValidityViolation⟩)],[]⟩) := by
    refine ⟨?_,?_,?_,?_,?_,?_,?_,?_,validMap_singleton hinput,.nil⟩ <;> decide
  have hglobal : ValidGlobalInput ("image",⟨5⟩) := by
    constructor <;> decide
  exact ⟨by decide,validMap_singleton ⟨by decide,validMap_singleton hstep,validMap_singleton hglobal⟩⟩

theorem timing_config_round_trip_step :
    spelledLibrary.readTimingConfigFromString (writeTimingConfigToString sampleTiming) sampleTiming =
      (sampleTiming,none) := by
  have hread := read_write spelledLibrary_standard sampleTiming_valid (by decide) sampleTiming
  exact (timing_config_round_trip_iff spelledLibrary_standard hread (by decide) sampleTiming).mpr
    (by unfold TimingConfiguration.Survives; decide)

/-- A document with one participant, whose system timeout is switched off. -/
def switchedOff : Node :=
  .element "timing" [] [.element "participants" [] [
    .element "participant" [("name","camera"),("systemTimeout_s","NONE")] []]]

private theorem switchedOff_spelled : ∃ text, Document switchedOff text := by
  have hattributes : Attributes [("name","camera"),("systemTimeout_s","NONE")] := by
    constructor <;> decide
  have hparticipant := Content.emptyElement (by decide : isName "participant" = true) hattributes .nil
  have hparticipants := Content.element (by decide : isName "participants" = true) .nil hparticipant .nil
  have hend := Content.data (by decide) (by decide : isDataText "\n" = true) (by simp) .nil
  exact ⟨_,.mk rfl (Content.element (by decide : isName "timing" = true) .nil hparticipants hend)⟩

/-- A system timeout that is switched off is not written, and the default is read instead. -/
theorem switched_off_timeout_not_written :
    ∃ library : ConfigLibrary, library.Standard ∧ ∃ (text : String) (configuration : TimingConfiguration),
      library.readTimingConfigFromString text sampleTiming = (configuration,none) ∧
      library.readTimingConfigFromString (writeTimingConfigToString configuration) sampleTiming ≠
        (configuration,none) := by
  obtain ⟨text,hdocument⟩ := switchedOff_spelled
  have hread : spelledLibrary.readTimingConfigFromString text sampleTiming =
      (⟨⟨"","","",""⟩,[("camera",⟨0,[],[]⟩)]⟩,none) := by
    rw [ConfigLibrary.readTimingConfigFromString,spelledLibrary_standard.parses _ _ hdocument]
    decide
  refine ⟨spelledLibrary,spelledLibrary_standard,text,_,hread,?_⟩
  have hvalid := readTimingConfigFromString_valid spelledLibrary_standard hread
  rw [read_write spelledLibrary_standard hvalid (by decide)]
  decide

end FepParticipant.Timing
