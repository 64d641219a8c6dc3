import FepParticipant.Timing.ConfigReading

/-! What the reader of a timing configuration refuses, and whether one read without an error has every element of the
document and only valid values. -/
namespace FepParticipant.Timing
open DataAccess Library Library.XML List OrderedMap ConfigLibrary

/-- The name in an element, or nothing. -/
def nameOf (node : Node) : String := if node.hasAttribute "name" then node.getAttribute "name" else ""

def numberOf (convert : String → Int) (name : String) (default : Int) (node : Node) : Int :=
  if node.hasAttribute name then convert (node.getAttribute name) else default

def strategyOf {S : Type} (convert : String → S) (default : S) (name : String) (node : Node) : S :=
  if node.hasAttribute name then convert (node.getAttribute name) else default

/-- The element has a name that is not empty. -/
def HasName (node : Node) : Prop := node.hasAttribute "name" = true ∧ node.getAttribute "name" ≠ ""

/-- The number is there if it is required, and it is none of the refused ones. -/
def HasNumber (convert : String → Int) (name : String) (required : Bool) (invalid : Int → Bool) (node : Node) : Prop :=
  if node.hasAttribute name then invalid (convert (node.getAttribute name)) = false else required = false

/-- The strategy is there and known. -/
def HasStrategy {S : Type} (convert : String → S) (unknown : S) (name : String) (node : Node) : Prop :=
  node.hasAttribute name = true ∧ convert (node.getAttribute name) ≠ unknown

namespace ConfigLibrary

variable (library : ConfigLibrary)

/-- The timeout is one of the words that switch it off or a positive number. -/
def HasTimeout (node : Node) : Prop :=
  node.hasAttribute "systemTimeout_s" = true →
    let text := node.getAttribute "systemTimeout_s"
    text ≠ "" ∧ (text = "0" ∨ text = "NONE" ∨ text = "OFF" ∨ 0 < library.toInt64 text)

/-! The content of the elements, in the order of the document and with those that have the same name. -/

def inputOf (node : Node) : String × InputConfig :=
  (nameOf node,⟨0,numberOf library.toInt64 "validAge_sim_us" 0 node,numberOf library.toInt64 "delay_sim_us" 0 node,
    strategyOf InputViolation.fromString .unknown "inputViolationStrategy" node⟩)

def outputOf (node : Node) : String × OutputConfig := (nameOf node,⟨0⟩)

def stepOf (node : Node) : String × StepConfig :=
  (nameOf node,⟨numberOf library.toInt64 "cycleTime_sim_us" 100000 node,
    numberOf library.toInt64 "maxRuntime_us" 0 node,numberOf library.toInt64 "maxInputWaittime_us" 0 node,
    strategyOf TimeViolationStrategy.fromString .ignoreRuntimeViolation "runtimeViolationStrategy" node,
    (node.findNodes ["inputs","input"]).map library.inputOf,(node.findNodes ["outputs","output"]).map outputOf⟩)

def globalInputOf (node : Node) : String × GlobalInputConfig :=
  (nameOf node,⟨numberOf library.toInt32 "backLogSize" 0 node⟩)

def participantOf (node : Node) : String × ParticipantConfig :=
  (nameOf node,⟨(library.readSystemTimeout node none).1,(node.findNodes ["steps","step"]).map library.stepOf,
    (node.findNodes ["inputs","input"]).map library.globalInputOf⟩)

def participantNodes (dom : Node) : List Node :=
  if dom.isNamed "timing" then dom.findNodes ["participants","participant"] else []

def contentOf (dom : Node) : List (String × ParticipantConfig) := (participantNodes dom).map library.participantOf

/-! What the reader accepts of the elements. -/

structure AcceptsInput (node : Node) : Prop where
  name : HasName node
  validAge : HasNumber library.toInt64 "validAge_sim_us" true (fun _ => false) node
  delay : HasNumber library.toInt64 "delay_sim_us" false (fun value => decide (value < 0)) node
  strategy : HasStrategy InputViolation.fromString .unknown "inputViolationStrategy" node

structure AcceptsStep (node : Node) : Prop where
  name : HasName node
  cycleTime : HasNumber library.toInt64 "cycleTime_sim_us" true (fun value => value == 0) node
  maxRuntime : HasNumber library.toInt64 "maxRuntime_us" false (fun value => decide (value < 0)) node
  maxInputWaittime : HasNumber library.toInt64 "maxInputWaittime_us" true (fun value => decide (value < 0)) node
  strategy : HasStrategy TimeViolationStrategy.fromString .unknown "runtimeViolationStrategy" node
  inputs : ∀ input ∈ node.findNodes ["inputs","input"], library.AcceptsInput input
  outputs : ∀ output ∈ node.findNodes ["outputs","output"], HasName output

structure AcceptsGlobalInput (node : Node) : Prop where
  name : HasName node
  backLogSize : HasNumber library.toInt32 "backLogSize" true (fun value => value == 0) node

structure AcceptsParticipant (node : Node) : Prop where
  name : HasName node
  systemTimeout : library.HasTimeout node
  steps : ∀ step ∈ node.findNodes ["steps","step"], library.AcceptsStep step
  inputs : ∀ input ∈ node.findNodes ["inputs","input"], library.AcceptsGlobalInput input

structure Accepts (dom : Node) : Prop where
  nonempty : participantNodes dom ≠ []
  participants : ∀ participant ∈ participantNodes dom, library.AcceptsParticipant participant

end ConfigLibrary

/-! The values that a configuration should have. -/

structure SoundInput (entry : String × InputConfig) : Prop where
  name : entry.1 ≠ ""
  delay : 0 ≤ entry.2.delaySimUs
  strategy : entry.2.inputViolationStrategy ≠ .unknown

structure SoundStep (entry : String × StepConfig) : Prop where
  name : entry.1 ≠ ""
  cycleTime : 0 < entry.2.cycleTimeSimUs
  maxRuntime : 0 ≤ entry.2.maxRuntimeUs
  maxInputWaittime : 0 ≤ entry.2.maxInputWaittimeUs
  strategy : entry.2.runtimeViolationStrategy ≠ .unknown
  inputs : ∀ input ∈ entry.2.inputs, SoundInput input
  outputs : ∀ output ∈ entry.2.outputs, output.1 ≠ ""

structure SoundGlobalInput (entry : String × GlobalInputConfig) : Prop where
  name : entry.1 ≠ ""
  backLogSize : 0 < entry.2.backLogSize

structure SoundParticipant (entry : String × ParticipantConfig) : Prop where
  name : entry.1 ≠ ""
  tasks : ∀ step ∈ entry.2.tasks, SoundStep step
  inputConfigs : ∀ input ∈ entry.2.inputConfigs, SoundGlobalInput input

def Held {ν : Type} (holds : String × ν → String × ν → Prop) (entries map : List (String × ν)) : Prop :=
  ∃ held : List (String × ν), held.Perm map ∧ List.Forall₂ holds entries held

/-- A step with its values and all its inputs. -/
structure HoldsStep (entry held : String × StepConfig) : Prop where
  name : held.1 = entry.1
  cycleTime : held.2.cycleTimeSimUs = entry.2.cycleTimeSimUs
  maxRuntime : held.2.maxRuntimeUs = entry.2.maxRuntimeUs
  maxInputWaittime : held.2.maxInputWaittimeUs = entry.2.maxInputWaittimeUs
  strategy : held.2.runtimeViolationStrategy = entry.2.runtimeViolationStrategy
  inputs : Held (fun entry held => held = entry) entry.2.inputs held.2.inputs

structure HoldsParticipant (entry held : String × ParticipantConfig) : Prop where
  name : held.1 = entry.1
  systemTimeout : held.2.systemTimeoutS = entry.2.systemTimeoutS
  tasks : Held HoldsStep entry.2.tasks held.2.tasks
  inputConfigs : Held (fun entry held => held = entry) entry.2.inputConfigs held.2.inputConfigs

/-- The reader keeps every element of the document, and what it reads without an error is sound, like the document. -/
structure ReadsSoundly (library : ConfigLibrary) (dom : Node) : Prop where
  complete : (library.readTimingConfigFromDOM dom).2 = none →
    Held HoldsParticipant (library.contentOf dom) (library.readTimingConfigFromDOM dom).1.participants
  sound : (library.readTimingConfigFromDOM dom).2 = none →
    ∀ entry ∈ (library.readTimingConfigFromDOM dom).1.participants, SoundParticipant entry
  reported : (∃ entry ∈ library.contentOf dom, ¬SoundParticipant entry) →
    (library.readTimingConfigFromDOM dom).2 ≠ none

/-- No name stands twice in one list of elements. -/
structure DistinctNames (content : List (String × ParticipantConfig)) : Prop where
  participants : (content.map Prod.fst).Nodup
  steps : ∀ entry ∈ content, (entry.2.tasks.map Prod.fst).Nodup
  inputs : ∀ entry ∈ content, ∀ step ∈ entry.2.tasks, (step.2.inputs.map Prod.fst).Nodup
  globalInputs : ∀ entry ∈ content, (entry.2.inputConfigs.map Prod.fst).Nodup

/-- No cycle time and no size of a backlog is negative. -/
structure NothingNegative (content : List (String × ParticipantConfig)) : Prop where
  cycleTime : ∀ entry ∈ content, ∀ step ∈ entry.2.tasks, 0 ≤ step.2.cycleTimeSimUs
  backLogSize : ∀ entry ∈ content, ∀ input ∈ entry.2.inputConfigs, 0 ≤ input.2.backLogSize

section
variable {report : Report} {node : Node} {name : String}

theorem readName_fst (emptyError : String → Report → Report) : (readName emptyError node report).1 = nameOf node := by
  rw [readName,nameOf]
  split <;> rfl

theorem readName_iff {emptyError : String → Report → Report}
    (hempty : emptyError "Empty attribute \"name\"" report ≠ none) :
    (readName emptyError node report).2 = none ↔ report = none ∧ HasName node := by
  rw [readName,HasName]
  by_cases hhas : node.hasAttribute "name" = true
  · rw [if_pos hhas]
    by_cases hname : node.getAttribute "name" = ""
    · rw [if_pos hname]
      exact iff_of_false hempty fun h => h.2.2 hname
    · rw [if_neg hname]
      exact (and_iff_left ⟨hhas,hname⟩).symm
  · rw [if_neg hhas]
    exact iff_of_false makeFirstError_ne_none fun h => hhas h.2.1

theorem readNumber_fst (convert : String → Int) (default : Int) (required : Bool) (invalid : Int → Bool) :
    (readNumber convert name default required invalid node report).1 = numberOf convert name default node := by
  rw [readNumber,numberOf]
  split <;> rfl

theorem readNumber_iff {convert : String → Int} {default : Int} {required : Bool} {invalid : Int → Bool} :
    (readNumber convert name default required invalid node report).2 = none ↔
      report = none ∧ HasNumber convert name required invalid node := by
  rw [readNumber,HasNumber]
  by_cases hhas : node.hasAttribute name = true
  · rw [if_pos hhas,if_pos hhas]
    dsimp only
    cases invalid (convert (node.getAttribute name)) with
    | true => exact iff_of_false (@makeError_ne_none report _) fun h => Bool.false_ne_true h.2.symm
    | false => exact (and_iff_left rfl).symm
  · rw [if_neg hhas,if_neg hhas]
    cases required with
    | true => exact iff_of_false makeFirstError_ne_none fun h => Bool.false_ne_true h.2.symm
    | false => exact (and_iff_left rfl).symm

theorem readStrategy_fst {S : Type} [DecidableEq S] (convert : String → S) (unknown default : S) :
    (readStrategy convert unknown default name node report).1 = strategyOf convert default name node := by
  rw [readStrategy,strategyOf]
  split <;> rfl

theorem readStrategy_iff {S : Type} [DecidableEq S] {convert : String → S} {unknown default : S} :
    (readStrategy convert unknown default name node report).2 = none ↔
      report = none ∧ HasStrategy convert unknown name node := by
  rw [readStrategy,HasStrategy]
  by_cases hhas : node.hasAttribute name = true
  · rw [if_pos hhas]
    dsimp only
    by_cases hknown : convert (node.getAttribute name) = unknown
    · rw [if_pos hknown]
      exact iff_of_false makeFirstError_ne_none fun h => h.2.2 hknown
    · rw [if_neg hknown]
      exact (and_iff_left ⟨hhas,hknown⟩).symm
  · rw [if_neg hhas]
    exact iff_of_false makeFirstError_ne_none fun h => hhas h.2.1

end

namespace ConfigLibrary

variable {library : ConfigLibrary} {node : Node} {report : Report} {ν : Type}

theorem readSystemTimeout_fst :
    (library.readSystemTimeout node report).1 = (library.readSystemTimeout node none).1 := by
  unfold readSystemTimeout
  dsimp only
  split
  · split
    · rfl
    · split
      · rfl
      · split <;> rfl
  · rfl

theorem readSystemTimeout_iff :
    (library.readSystemTimeout node report).2 = none ↔ report = none ∧ library.HasTimeout node := by
  unfold readSystemTimeout HasTimeout
  by_cases hhas : node.hasAttribute "systemTimeout_s" = true
  · rw [if_pos hhas,imp_iff_right hhas]
    by_cases hempty : node.getAttribute "systemTimeout_s" = ""
    · rw [if_pos hempty]
      exact iff_of_false (@makeError_ne_none report _) fun h => h.2.1 hempty
    · rw [if_neg hempty,and_iff_right hempty]
      split
      · rename_i hword
        refine (and_iff_left ?_).symm
        tauto
      · rename_i hword
        split
        · rename_i hnegative
          refine iff_of_false (@makeError_ne_none report _) ?_
          rintro ⟨-,h | h | h | h⟩
          · exact hword (.inl h)
          · exact hword (.inr (.inl h))
          · exact hword (.inr (.inr h))
          · omega
        · rename_i hpositive
          exact (and_iff_left (.inr (.inr (.inr (by omega))))).symm
  · rw [if_neg hhas]
    exact (and_iff_left fun h => absurd h hhas).symm

/-- A reader of entries that accepts some elements and gives an entry for each of them. -/
structure Reads (read : Node → Report → (String × ν) × Report) (accepts : Node → Prop) (entry : Node → String × ν) :
    Prop where
  report {node : Node} {report : Report} : (read node report).2 = none ↔ report = none ∧ accepts node
  entry {node : Node} {report : Report} : (read node report).2 = none → (read node report).1 = entry node

theorem foldl_reads {step : List (String × ν) × Report → Node → List (String × ν) × Report} {accepts : Node → Prop}
    {entry : Node → String × ν} (hreport : ∀ state node, (step state node).2 = none ↔ state.2 = none ∧ accepts node)
    (hentry : ∀ state node, (step state node).2 = none → (step state node).1 = OrderedMap.insert (entry node) state.1)
    (nodes : List Node) (state : List (String × ν) × Report) :
    ((nodes.foldl step state).2 = none ↔ state.2 = none ∧ ∀ node ∈ nodes, accepts node) ∧
      ((nodes.foldl step state).2 = none → (nodes.foldl step state).1 =
        (nodes.map entry).foldl (fun map entry => OrderedMap.insert entry map) state.1) := by
  induction nodes generalizing state with
  | nil => exact ⟨by simp,fun _ => rfl⟩
  | cons node nodes ih =>
    obtain ⟨hiff,hmap⟩ := ih (step state node)
    rw [foldl_cons,forall_mem_cons,← and_assoc,← hreport]
    refine ⟨hiff,fun h => ?_⟩
    rw [hmap h,hentry state node (hiff.mp h).1,map_cons,foldl_cons]

theorem Reads.foldl {read : Node → Report → (String × ν) × Report} {accepts : Node → Prop} {entry : Node → String × ν}
    (h : Reads read accepts entry) (nodes : List Node) (report : Report) :
    ((nodes.foldl (insertRead read) ([],report)).2 = none ↔ report = none ∧ ∀ node ∈ nodes, accepts node) ∧
      ((nodes.foldl (insertRead read) ([],report)).2 = none →
        (nodes.foldl (insertRead read) ([],report)).1 = OrderedMap.ofEntries (nodes.map entry)) := by
  refine @foldl_reads ν (insertRead read) accepts entry (fun state node => h.report) (fun state node hnone => ?_) nodes
    ([],report)
  have hread : (read node state.2).2 = none := hnone
  have hinsert : (insertRead read state node).1 =
      if (read node state.2).2.isNone then OrderedMap.insert (read node state.2).1 state.1 else state.1 := rfl
  rw [hinsert,hread,Option.isNone_none,if_pos rfl,h.entry hread]

theorem reads_input : Reads library.readInput library.AcceptsInput library.inputOf where
  report {node report} := by
    unfold readInput
    rw [readStrategy_iff,readNumber_iff,readNumber_iff,readName_iff makeFirstError_ne_none]
    exact ⟨fun ⟨⟨⟨⟨hreport,hname⟩,hage⟩,hdelay⟩,hstrategy⟩ => ⟨hreport,hname,hage,hdelay,hstrategy⟩,
      fun ⟨hreport,h⟩ => ⟨⟨⟨⟨hreport,h.name⟩,h.validAge⟩,h.delay⟩,h.strategy⟩⟩
  entry {node report} _ := by
    unfold readInput inputOf
    dsimp only
    rw [readName_fst,readNumber_fst,readNumber_fst,readStrategy_fst]

theorem reads_output : Reads readOutput HasName outputOf where
  report := readName_iff makeFirstError_ne_none
  entry _ := congrArg (·,_) (readName_fst ..)

theorem reads_globalInput : Reads library.readGlobalInput library.AcceptsGlobalInput library.globalInputOf where
  report {node report} := by
    unfold readGlobalInput
    rw [readNumber_iff,readName_iff makeFirstError_ne_none]
    exact ⟨fun ⟨⟨hreport,hname⟩,hsize⟩ => ⟨hreport,hname,hsize⟩,
      fun ⟨hreport,h⟩ => ⟨⟨hreport,h.name⟩,h.backLogSize⟩⟩
  entry {node report} _ := by
    unfold readGlobalInput globalInputOf
    dsimp only
    rw [readName_fst,readNumber_fst]

/-- A step with its inputs and outputs in maps. -/
def mappedStep (entry : String × StepConfig) : String × StepConfig :=
  (entry.1,{ entry.2 with
    inputs := OrderedMap.ofEntries entry.2.inputs
    outputs := OrderedMap.ofEntries entry.2.outputs })

def mappedParticipant (entry : String × ParticipantConfig) : String × ParticipantConfig :=
  (entry.1,{ entry.2 with
    tasks := OrderedMap.ofEntries (entry.2.tasks.map mappedStep)
    inputConfigs := OrderedMap.ofEntries entry.2.inputConfigs })

private theorem reads_step :
    Reads library.readStep library.AcceptsStep fun node => mappedStep (library.stepOf node) where
  report {node report} := by
    unfold readStep
    rw [(reads_output.foldl _ _).1,(library.reads_input.foldl _ _).1,readStrategy_iff,readNumber_iff,readNumber_iff,
      readNumber_iff,readName_iff makeFirstError_ne_none]
    exact ⟨fun ⟨⟨⟨⟨⟨⟨⟨hreport,hname⟩,hcycle⟩,hruntime⟩,hwait⟩,hstrategy⟩,hinputs⟩,houtputs⟩ =>
        ⟨hreport,hname,hcycle,hruntime,hwait,hstrategy,hinputs,houtputs⟩,
      fun ⟨hreport,h⟩ => ⟨⟨⟨⟨⟨⟨⟨hreport,h.name⟩,h.cycleTime⟩,h.maxRuntime⟩,h.maxInputWaittime⟩,h.strategy⟩,
        h.inputs⟩,h.outputs⟩⟩
  entry {node report} h := by
    unfold readStep at h ⊢
    dsimp only at h ⊢
    have hinputs := ((reads_output.foldl _ _).1.mp h).1
    rw [(reads_output.foldl _ _).2 h,(library.reads_input.foldl _ _).2 hinputs,readName_fst,readNumber_fst,
      readNumber_fst,readNumber_fst,readStrategy_fst]
    rfl

private theorem foldl_insertStep (nodes : List Node) :
    ((nodes.foldl library.insertStep ([],report)).2 = none ↔
      report = none ∧ ∀ node ∈ nodes, library.AcceptsStep node) ∧
      ((nodes.foldl library.insertStep ([],report)).2 = none → (nodes.foldl library.insertStep ([],report)).1 =
          OrderedMap.ofEntries ((nodes.map library.stepOf).map mappedStep)) := by
  rw [map_map]
  have hreport (state : List (String × StepConfig) × Report) (node : Node) :
      (library.insertStep state node).2 = none ↔ state.2 = none ∧ library.AcceptsStep node := library.reads_step.report
  have hentry (state : List (String × StepConfig) × Report) (node : Node)
      (hnone : (library.insertStep state node).2 = none) :
      (library.insertStep state node).1 = OrderedMap.insert (mappedStep (library.stepOf node)) state.1 :=
    congrArg (OrderedMap.insert · state.1) (library.reads_step.entry hnone)
  exact foldl_reads hreport hentry nodes ([],report)

private theorem reads_participant : Reads library.readParticipant library.AcceptsParticipant fun node =>
      mappedParticipant (library.participantOf node) where
  report {node report} := by
    unfold readParticipant
    rw [(library.reads_globalInput.foldl _ _).1,(foldl_insertStep _).1,readSystemTimeout_iff,
      readName_iff makeError_ne_none]
    exact ⟨fun ⟨⟨⟨⟨hreport,hname⟩,htimeout⟩,hsteps⟩,hinputs⟩ => ⟨hreport,hname,htimeout,hsteps,hinputs⟩,
      fun ⟨hreport,h⟩ => ⟨⟨⟨⟨hreport,h.name⟩,h.systemTimeout⟩,h.steps⟩,h.inputs⟩⟩
  entry {node report} h := by
    unfold readParticipant at h ⊢
    dsimp only at h ⊢
    have hsteps := ((library.reads_globalInput.foldl _ _).1.mp h).1
    rw [(library.reads_globalInput.foldl _ _).2 h,(foldl_insertStep _).2 hsteps,readName_fst,readSystemTimeout_fst]
    rfl

theorem readTimingConfigFromDOM_iff (library : ConfigLibrary) (dom : Node) :
    ((library.readTimingConfigFromDOM dom).2 = none ↔ library.Accepts dom) ∧
      ((library.readTimingConfigFromDOM dom).2 = none → (library.readTimingConfigFromDOM dom).1.participants =
        OrderedMap.ofEntries ((library.contentOf dom).map mappedParticipant)) := by
  have hfold := library.reads_participant.foldl (participantNodes dom) none
  have hparticipants : (library.readTimingConfigFromDOM dom).1.participants =
      ((participantNodes dom).foldl (insertRead library.readParticipant) ([],none)).1 := rfl
  have hreport : (library.readTimingConfigFromDOM dom).2 =
      if ((participantNodes dom).foldl (insertRead library.readParticipant) ([],none)).1.length = 0 then
        makeFirstError "Missing element \"participant\""
          ((participantNodes dom).foldl (insertRead library.readParticipant) ([],none)).2
      else ((participantNodes dom).foldl (insertRead library.readParticipant) ([],none)).2 := rfl
  rw [hreport,hparticipants,contentOf,map_map]
  generalize (participantNodes dom).foldl (insertRead library.readParticipant) ([],none) = read at hfold
  obtain ⟨hiff,hmap⟩ := hfold
  constructor
  · constructor
    · intro h
      split at h
      · exact absurd h makeFirstError_ne_none
      · rename_i hlength
        refine ⟨fun hempty => hlength ?_,(hiff.mp h).2⟩
        rw [hmap h,hempty]
        rfl
    · intro h
      have hnone := hiff.mpr ⟨rfl,h.participants⟩
      rw [hmap hnone,if_neg,hnone]
      intro hlength
      obtain ⟨participant,hparticipant⟩ := exists_mem_of_ne_nil _ h.nonempty
      have hkey : (mappedParticipant (library.participantOf participant)).1 ∈
          (OrderedMap.ofEntries ((participantNodes dom).map fun node =>
            mappedParticipant (library.participantOf node))).map Prod.fst :=
        mem_keys_ofEntries.mpr (mem_map_of_mem (mem_map_of_mem hparticipant))
      rw [length_eq_zero_iff.mp hlength] at hkey
      exact not_mem_nil hkey
  · intro h
    split at h
    · exact absurd h makeFirstError_ne_none
    · exact hmap h

end ConfigLibrary

private theorem exists_of_forall₂ {α β : Type} {R : α → β → Prop} {as : List α} {bs : List β} (h : List.Forall₂ R as bs)
    {a : α} (ha : a ∈ as) : ∃ b ∈ bs, R a b := by
  induction h with
  | nil => exact absurd ha not_mem_nil
  | cons hab _ ih =>
    rcases mem_cons.mp ha with rfl | ha
    · exact ⟨_,mem_cons_self,hab⟩
    · obtain ⟨b,hb,hrelated⟩ := ih ha
      exact ⟨b,mem_cons_of_mem _ hb,hrelated⟩

/-- A map holds all inserted entries exactly if they have different names and each is held as inserted. -/
theorem held_ofEntries_iff {ν : Type} (holds : String × ν → String × ν → Prop) (mapped : String × ν → String × ν)
    (hmapped : ∀ entry, (mapped entry).1 = entry.1) (hholds : ∀ entry held, holds entry held → held.1 = entry.1)
    (entries : List (String × ν)) : Held holds entries (OrderedMap.ofEntries (entries.map mapped)) ↔
      (entries.map Prod.fst).Nodup ∧ ∀ entry ∈ entries, holds entry (mapped entry) := by
  have hkeys : (entries.map mapped).map Prod.fst = entries.map Prod.fst := by
    rw [map_map]
    exact map_congr_left fun entry _ => hmapped entry
  constructor
  · rintro ⟨held,hperm,hforall⟩
    have hlength : (OrderedMap.ofEntries (entries.map mapped)).length = (entries.map mapped).length := by
      rw [← hperm.length_eq,← hforall.length_eq,length_map]
    have hnodup : (entries.map Prod.fst).Nodup := hkeys ▸ nodup_of_length_ofEntries hlength
    refine ⟨hnodup,fun entry hentry => ?_⟩
    obtain ⟨other,hother,hholds'⟩ := exists_of_forall₂ hforall hentry
    obtain ⟨entry',hentry',rfl⟩ := mem_map.mp (mem_of_mem_ofEntries (hperm.mem_iff.mp hother))
    have hsame : entry' = entry := inj_on_of_nodup_map hnodup hentry' hentry
      ((hmapped entry').symm.trans (hholds entry _ hholds'))
    exact hsame ▸ hholds'
  · rintro ⟨hnodup,hall⟩
    refine ⟨entries.map mapped,(perm_ofEntries (hkeys.symm ▸ hnodup)).symm,?_⟩
    rw [forall₂_map_right_iff,forall₂_same]
    exact hall

theorem held_eq_iff {ν : Type} (entries : List (String × ν)) :
    Held (fun entry held => held = entry) entries (OrderedMap.ofEntries entries) ↔ (entries.map Prod.fst).Nodup := by
  have hiff := held_ofEntries_iff (fun entry held => held = entry) id (fun _ => rfl)
    (fun _ _ h => congrArg Prod.fst h) entries
  rw [map_id] at hiff
  exact hiff.trans (and_iff_left fun _ _ => rfl)

namespace ConfigLibrary

theorem holdsStep_mapped_iff (entry : String × StepConfig) :
    HoldsStep entry (mappedStep entry) ↔ (entry.2.inputs.map Prod.fst).Nodup :=
  ⟨fun h => (held_eq_iff _).mp h.inputs,fun h => ⟨rfl,rfl,rfl,rfl,rfl,(held_eq_iff _).mpr h⟩⟩

theorem holdsParticipant_mapped_iff (entry : String × ParticipantConfig) :
    HoldsParticipant entry (mappedParticipant entry) ↔ ((entry.2.tasks.map Prod.fst).Nodup ∧
      ∀ step ∈ entry.2.tasks, (step.2.inputs.map Prod.fst).Nodup) ∧ (entry.2.inputConfigs.map Prod.fst).Nodup := by
  have htasks := held_ofEntries_iff HoldsStep mappedStep (fun _ => rfl) (fun _ _ h => h.name) entry.2.tasks
  simp only [holdsStep_mapped_iff] at htasks
  exact ⟨fun h => ⟨htasks.mp h.tasks,(held_eq_iff _).mp h.inputConfigs⟩,
    fun h => ⟨rfl,rfl,htasks.mpr h.1,(held_eq_iff _).mpr h.2⟩⟩

theorem held_mappedParticipant_iff (content : List (String × ParticipantConfig)) :
    Held HoldsParticipant content (OrderedMap.ofEntries (content.map mappedParticipant)) ↔ DistinctNames content := by
  have hiff := held_ofEntries_iff HoldsParticipant mappedParticipant (fun _ => rfl) (fun _ _ h => h.name) content
  simp only [holdsParticipant_mapped_iff] at hiff
  rw [hiff]
  exact ⟨fun ⟨hnodup,h⟩ => ⟨hnodup,fun e he => (h e he).1.1,fun e he => (h e he).1.2,fun e he => (h e he).2⟩,
    fun h => ⟨h.participants,fun e he => ⟨⟨h.steps e he,h.inputs e he⟩,h.globalInputs e he⟩⟩⟩

theorem soundParticipant_mapped {entry : String × ParticipantConfig} (h : SoundParticipant entry) :
    SoundParticipant (mappedParticipant entry) := by
  refine ⟨h.name,fun step hstep => ?_,fun input hinput =>
    h.inputConfigs input (mem_of_mem_ofEntries hinput)⟩
  obtain ⟨step,hmem,rfl⟩ := mem_map.mp (mem_of_mem_ofEntries hstep)
  obtain ⟨hname,hcycle,hruntime,hwait,hstrategy,hinputs,houtputs⟩ := h.tasks step hmem
  exact ⟨hname,hcycle,hruntime,hwait,hstrategy,
    fun input hinput => hinputs input (mem_of_mem_ofEntries hinput),
    fun output houtput => houtputs output (mem_of_mem_ofEntries houtput)⟩

variable {library : ConfigLibrary} {node dom : Node}

theorem nameOf_ne (h : HasName node) : nameOf node ≠ "" := by
  rw [nameOf,if_pos h.1]
  exact h.2

theorem numberOf_of_hasNumber {convert : String → Int} {name : String} {default : Int} {required : Bool}
    {invalid : Int → Bool} {P : Int → Prop} (h : HasNumber convert name required invalid node)
    (hvalid : ∀ value, invalid value = false → P value) (hdefault : required = false → P default) :
    P (numberOf convert name default node) := by
  rw [HasNumber] at h
  rw [numberOf]
  split
  · rename_i hhas
    rw [if_pos hhas] at h
    exact hvalid _ h
  · rename_i hhas
    rw [if_neg hhas] at h
    exact hdefault h

theorem strategyOf_ne {S : Type} {convert : String → S} {unknown default : S} {name : String}
    (h : HasStrategy convert unknown name node) : strategyOf convert default name node ≠ unknown := by
  rw [strategyOf,if_pos h.1]
  exact h.2

theorem nonneg_of_hasNumber {name : String} {required : Bool}
    (h : HasNumber library.toInt64 name required (fun value => decide (value < 0)) node) :
    0 ≤ numberOf library.toInt64 name 0 node :=
  numberOf_of_hasNumber h (fun value hvalid => by simpa using hvalid) fun _ => Int.le_refl 0

private theorem soundInput_of_accepts (h : library.AcceptsInput node) : SoundInput (library.inputOf node) :=
  ⟨nameOf_ne h.name,nonneg_of_hasNumber h.delay,strategyOf_ne h.strategy⟩

private theorem soundStep_iff (h : library.AcceptsStep node) :
    SoundStep (library.stepOf node) ↔ 0 ≤ (library.stepOf node).2.cycleTimeSimUs := by
  have hcycle : (library.stepOf node).2.cycleTimeSimUs ≠ 0 :=
    numberOf_of_hasNumber (P := (· ≠ 0)) h.cycleTime (fun value hvalid => by simpa using hvalid) (by decide)
  refine ⟨fun hsound => hsound.cycleTime.le,fun hnonneg => ?_⟩
  refine ⟨nameOf_ne h.name,lt_of_le_of_ne hnonneg hcycle.symm,nonneg_of_hasNumber h.maxRuntime,
    nonneg_of_hasNumber h.maxInputWaittime,strategyOf_ne h.strategy,?_,?_⟩
  · exact forall_mem_map.mpr fun input hinput => soundInput_of_accepts (h.inputs input hinput)
  · exact forall_mem_map.mpr fun output houtput => nameOf_ne (h.outputs output houtput)

private theorem soundGlobalInput_iff (h : library.AcceptsGlobalInput node) :
    SoundGlobalInput (library.globalInputOf node) ↔ 0 ≤ (library.globalInputOf node).2.backLogSize := by
  have hsize : (library.globalInputOf node).2.backLogSize ≠ 0 :=
    numberOf_of_hasNumber (P := (· ≠ 0)) h.backLogSize (fun value hvalid => by simpa using hvalid) (by decide)
  exact ⟨fun hsound => hsound.backLogSize.le,fun hnonneg => ⟨nameOf_ne h.name,lt_of_le_of_ne hnonneg hsize.symm⟩⟩

private theorem soundParticipant_iff (h : library.AcceptsParticipant node) :
    SoundParticipant (library.participantOf node) ↔
    (∀ step ∈ (library.participantOf node).2.tasks, 0 ≤ step.2.cycleTimeSimUs) ∧
      ∀ input ∈ (library.participantOf node).2.inputConfigs, 0 ≤ input.2.backLogSize := by
  have hsteps : (∀ step ∈ (library.participantOf node).2.tasks, SoundStep step) ↔
      ∀ step ∈ (library.participantOf node).2.tasks, 0 ≤ step.2.cycleTimeSimUs := by
    rw [participantOf,forall_mem_map,forall_mem_map]
    exact forall₂_congr fun step hstep => soundStep_iff (h.steps step hstep)
  have hinputs : (∀ input ∈ (library.participantOf node).2.inputConfigs, SoundGlobalInput input) ↔
      ∀ input ∈ (library.participantOf node).2.inputConfigs, 0 ≤ input.2.backLogSize := by
    rw [participantOf,forall_mem_map,forall_mem_map]
    exact forall₂_congr fun input hinput => soundGlobalInput_iff (h.inputs input hinput)
  rw [← hsteps,← hinputs]
  exact ⟨fun h => ⟨h.tasks,h.inputConfigs⟩,fun hsound => ⟨nameOf_ne h.name,hsound.1,hsound.2⟩⟩

private theorem soundContent_iff (h : library.Accepts dom) :
    (∀ entry ∈ library.contentOf dom, SoundParticipant entry) ↔ NothingNegative (library.contentOf dom) := by
  have hall : (∀ entry ∈ library.contentOf dom, SoundParticipant entry) ↔ ∀ entry ∈ library.contentOf dom,
      (∀ step ∈ entry.2.tasks, 0 ≤ step.2.cycleTimeSimUs) ∧
      ∀ input ∈ entry.2.inputConfigs, 0 ≤ input.2.backLogSize := by
    rw [contentOf,forall_mem_map,forall_mem_map]
    exact forall₂_congr fun participant hmem => soundParticipant_iff (h.participants participant hmem)
  rw [hall]
  exact ⟨fun h => ⟨fun e he => (h e he).1,fun e he => (h e he).2⟩,
    fun h e he => ⟨h.cycleTime e he,h.backLogSize e he⟩⟩

end ConfigLibrary

/-- The reader keeps the elements of a document and tells what is unsound in it exactly if it refuses it, or no name
stands twice in it and no cycle time and no backlog size is negative. -/
theorem reads_soundly_iff (library : ConfigLibrary) (dom : Node) : ReadsSoundly library dom ↔
    (library.Accepts dom → DistinctNames (library.contentOf dom) ∧ NothingNegative (library.contentOf dom)) := by
  obtain ⟨hreport,hread⟩ := library.readTimingConfigFromDOM_iff dom
  constructor
  · intro h haccepts
    have hnone := hreport.mpr haccepts
    refine ⟨?_,(soundContent_iff haccepts).mp fun entry hentry => ?_⟩
    · have hheld := h.complete hnone
      rwa [hread hnone,held_mappedParticipant_iff] at hheld
    · by_contra hunsound
      exact h.reported ⟨entry,hentry,hunsound⟩ hnone
  · intro h
    have hsound : (library.readTimingConfigFromDOM dom).2 = none →
        ∀ entry ∈ library.contentOf dom, SoundParticipant entry := fun hnone =>
      (soundContent_iff (hreport.mp hnone)).mpr (h (hreport.mp hnone)).2
    refine ⟨fun hnone => ?_,fun hnone entry hentry => ?_,?_⟩
    · rw [hread hnone,held_mappedParticipant_iff]
      exact (h (hreport.mp hnone)).1
    · rw [hread hnone] at hentry
      obtain ⟨entry,hmem,rfl⟩ := mem_map.mp (mem_of_mem_ofEntries hentry)
      exact soundParticipant_mapped (hsound hnone entry hmem)
    · rintro ⟨entry,hmem,hunsound⟩ hnone
      exact hunsound (hsound hnone entry hmem)

/-- Two participants of one name, of which one is dropped without an error. -/
def twoCameras : Node :=
  .element "timing" [] [.element "participants" [] [.element "participant" [("name","camera")] [],
    .element "participant" [("name","camera")] []]]

theorem second_camera_dropped : ¬∀ (library : ConfigLibrary) (dom : Node), ReadsSoundly library dom := by
  intro h
  let library : ConfigLibrary := ⟨fun _ => none,fun _ => 0,fun _ => 0⟩
  obtain ⟨hreport,hread⟩ := library.readTimingConfigFromDOM_iff twoCameras
  have haccepts : library.Accepts twoCameras := by
    refine ⟨cons_ne_nil _ _,fun participant hmem => ?_⟩
    have hparticipant : participant = .element "participant" [("name","camera")] [] := by
      simpa [ConfigLibrary.participantNodes,twoCameras,Node.isNamed,Node.findNodes,Node.children] using hmem
    subst hparticipant
    refine ⟨⟨by decide,by decide⟩,fun htimeout => absurd htimeout (by decide),?_,?_⟩
    · exact fun _ hmem => absurd hmem not_mem_nil
    · exact fun _ hmem => absurd hmem not_mem_nil
  have hnone := hreport.mpr haccepts
  have hheld := (h library twoCameras).complete hnone
  rw [hread hnone,held_mappedParticipant_iff] at hheld
  exact absurd hheld.participants (by decide)

end FepParticipant.Timing
