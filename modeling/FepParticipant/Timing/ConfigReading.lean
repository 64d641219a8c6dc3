import FepParticipant.Timing.TimingConfiguration

/-! What holds of every timing configuration that is read without an error. -/
namespace FepParticipant.Timing
open DataAccess Library Library.XML

/-- The values of an `int64_t`. -/
def IsInt64 (value : Int) : Prop := -9223372036854775808 ≤ value ∧ value < 9223372036854775808

/-- The values of an `int32_t`. -/
def IsInt32 (value : Int) : Prop := -2147483648 ≤ value ∧ value < 2147483648

instance (value : Int) : Decidable (IsInt64 value) := inferInstanceAs (Decidable (_ ∧ _))

instance (value : Int) : Decidable (IsInt32 value) := inferInstanceAs (Decidable (_ ∧ _))

/-- The library parses what is spelled as a document, reads a decimal text as its number, and gives
numbers of the range of their type only. -/
structure ConfigLibrary.Standard (library : ConfigLibrary) : Prop where
  parses (root : Node) (text : String) : Document root text → library.fromString text = some root
  toInt64_toString (value : Int) : IsInt64 value → library.toInt64 (toString value) = value
  toInt32_toString (value : Int) : IsInt32 value → library.toInt32 (toString value) = value
  toInt64_range (text : String) : IsInt64 (library.toInt64 text)
  toInt32_range (text : String) : IsInt32 (library.toInt32 text)

structure ValidMap {ν : Type} (valid : String × ν → Prop) (entries : List (String × ν)) : Prop where
  sorted : OrderedMap.Sorted entries
  valid : ∀ entry ∈ entries, valid entry

structure ValidInput (entry : String × InputConfig) : Prop where
  name : entry.1 ≠ ""
  handle : entry.2.handle = 0
  validAge : IsInt64 entry.2.validAgeSimUs
  delay : IsInt64 entry.2.delaySimUs
  delay_nonneg : 0 ≤ entry.2.delaySimUs
  strategy : entry.2.inputViolationStrategy ≠ .unknown

structure ValidOutput (entry : String × OutputConfig) : Prop where
  name : entry.1 ≠ ""
  handle : entry.2.handle = 0

structure ValidStep (entry : String × StepConfig) : Prop where
  name : entry.1 ≠ ""
  cycleTime : IsInt64 entry.2.cycleTimeSimUs
  cycleTime_ne : entry.2.cycleTimeSimUs ≠ 0
  maxRuntime : IsInt64 entry.2.maxRuntimeUs
  maxRuntime_nonneg : 0 ≤ entry.2.maxRuntimeUs
  maxInputWaittime : IsInt64 entry.2.maxInputWaittimeUs
  maxInputWaittime_nonneg : 0 ≤ entry.2.maxInputWaittimeUs
  strategy : entry.2.runtimeViolationStrategy ≠ .unknown
  inputs : ValidMap ValidInput entry.2.inputs
  outputs : ValidMap ValidOutput entry.2.outputs

structure ValidGlobalInput (entry : String × GlobalInputConfig) : Prop where
  name : entry.1 ≠ ""
  backLogSize : IsInt32 entry.2.backLogSize
  backLogSize_ne : entry.2.backLogSize ≠ 0

structure ValidParticipant (entry : String × ParticipantConfig) : Prop where
  name : entry.1 ≠ ""
  tasks : ValidMap ValidStep entry.2.tasks
  inputConfigs : ValidMap ValidGlobalInput entry.2.inputConfigs

structure TimingConfiguration.Valid (configuration : TimingConfiguration) : Prop where
  nonempty : configuration.participants ≠ []
  participants : ValidMap ValidParticipant configuration.participants

theorem ValidMap.nil {ν : Type} {valid : String × ν → Prop} : ValidMap valid [] := ⟨List.Pairwise.nil,by simp⟩

theorem ValidMap.insert {ν : Type} {valid : String × ν → Prop} {entry : String × ν} {entries : List (String × ν)}
    (h : ValidMap valid entries) (hentry : valid entry) : ValidMap valid (OrderedMap.insert entry entries) := by
  refine ⟨OrderedMap.sorted_insert h.sorted,fun other hother => ?_⟩
  rcases OrderedMap.mem_of_mem_insert hother with rfl | hother
  · exact hentry
  · exact h.valid other hother

section
variable {report : Report} {node : Node} {text name : String}

@[simp] theorem makeError_ne_none : makeError text report ≠ none := by
  exact Option.some_ne_none _

@[simp] theorem makeFirstError_ne_none : makeFirstError text report ≠ none := by
  rw [makeFirstError]
  split
  · exact makeError_ne_none
  · rename_i h
    rwa [Option.isNone_iff_eq_none] at h

theorem readName_none {emptyError : String → Report → Report}
    (hempty : emptyError "Empty attribute \"name\"" report ≠ none)
    (h : (readName emptyError node report).2 = none) : report = none ∧ (readName emptyError node report).1 ≠ "" := by
  unfold readName at *
  split at h
  · split at h
    · exact absurd h hempty
    · exact ⟨h,by rwa [if_pos (by assumption)]⟩
  · exact absurd h makeFirstError_ne_none

theorem readNumber_none {convert : String → Int} {default : Int} {required : Bool} {invalid : Int → Bool}
    {P : Int → Prop} (hconvert : ∀ text, invalid (convert text) = false → P (convert text))
    (hdefault : required = false → P default)
    (h : (readNumber convert name default required invalid node report).2 = none) :
    report = none ∧ P (readNumber convert name default required invalid node report).1 := by
  unfold readNumber at *
  split at h
  · rename_i hhas
    rw [if_pos hhas]
    dsimp only at h ⊢
    split at h
    · exact absurd h makeError_ne_none
    · rename_i hvalid
      exact ⟨h,hconvert _ (Bool.eq_false_iff.mpr hvalid)⟩
  · rename_i hhas
    rw [if_neg hhas]
    split at h
    · exact absurd h makeFirstError_ne_none
    · rename_i hrequired
      exact ⟨h,hdefault (Bool.eq_false_iff.mpr hrequired)⟩

theorem readStrategy_none {S : Type} [DecidableEq S] {convert : String → S} {unknown default : S}
    (h : (readStrategy convert unknown default name node report).2 = none) :
    report = none ∧ (readStrategy convert unknown default name node report).1 ≠ unknown := by
  unfold readStrategy at *
  split at h
  · rename_i hhas
    rw [if_pos hhas]
    dsimp only at h ⊢
    split at h
    · exact absurd h makeFirstError_ne_none
    · rename_i hknown
      exact ⟨h,hknown⟩
  · exact absurd h makeFirstError_ne_none

end

namespace ConfigLibrary

variable {library : ConfigLibrary} {node : Node} {report : Report} {ν : Type} {valid : String × ν → Prop}

theorem foldl_none {step : List (String × ν) × Report → Node → List (String × ν) × Report}
    (hstep : ∀ state node, (step state node).2 = none →
      state.2 = none ∧ (ValidMap valid state.1 → ValidMap valid (step state node).1))
    {nodes : List Node} {state : List (String × ν) × Report} (h : (nodes.foldl step state).2 = none) :
    state.2 = none ∧ (ValidMap valid state.1 → ValidMap valid (nodes.foldl step state).1) := by
  induction nodes generalizing state with
  | nil => exact ⟨h,id⟩
  | cons node nodes ih =>
    obtain ⟨hnext,hrest⟩ := ih h
    obtain ⟨hstate,hvalid⟩ := hstep state node hnext
    exact ⟨hstate,fun hmap => hrest (hvalid hmap)⟩

theorem insertRead_none {read : Node → Report → (String × ν) × Report}
    (hread : ∀ node report, (read node report).2 = none → report = none ∧ valid (read node report).1)
    (state : List (String × ν) × Report) (node : Node) (h : (insertRead read state node).2 = none) :
    state.2 = none ∧ (ValidMap valid state.1 → ValidMap valid (insertRead read state node).1) := by
  obtain ⟨hstate,hentry⟩ := hread node state.2 h
  refine ⟨hstate,fun hmap => ?_⟩
  unfold insertRead at *
  dsimp only at h ⊢
  rw [h]
  exact hmap.insert hentry

theorem readTime_none {name : String} {required : Bool} (hstandard : library.Standard)
    (h : (readNumber library.toInt64 name 0 required (fun value => decide (value < 0)) node report).2 = none) :
    report = none ∧
    IsInt64 (readNumber library.toInt64 name 0 required (fun value => decide (value < 0)) node report).1 ∧
      0 ≤ (readNumber library.toInt64 name 0 required (fun value => decide (value < 0)) node report).1 :=
  readNumber_none (P := fun value => IsInt64 value ∧ 0 ≤ value)
    (fun text hvalid => ⟨hstandard.toInt64_range text,by simpa using hvalid⟩) (fun _ => by decide) h

private theorem readInput_none (hstandard : library.Standard) (node : Node) (report : Report)
    (h : (library.readInput node report).2 = none) : report = none ∧ ValidInput (library.readInput node report).1 := by
  unfold readInput at *
  obtain ⟨h,hstrategy⟩ := readStrategy_none h
  obtain ⟨h,hdelay,hnonneg⟩ := readTime_none hstandard h
  obtain ⟨h,hvalidAge⟩ := readNumber_none (P := IsInt64) (fun text _ => hstandard.toInt64_range text) (by simp) h
  obtain ⟨h,hname⟩ := readName_none makeFirstError_ne_none h
  exact ⟨h,hname,rfl,hvalidAge,hdelay,hnonneg,hstrategy⟩

theorem foldl_insertRead_none {read : Node → Report → (String × ν) × Report}
    (hread : ∀ node report, (read node report).2 = none → report = none ∧ valid (read node report).1)
    {nodes : List Node} (h : (nodes.foldl (insertRead read) ([],report)).2 = none) :
    report = none ∧ ValidMap valid (nodes.foldl (insertRead read) ([],report)).1 := by
  obtain ⟨hreport,hmap⟩ := foldl_none (insertRead_none hread) h
  exact ⟨hreport,hmap .nil⟩

private theorem readOutput_none (node : Node) (report : Report) (h : (readOutput node report).2 = none) :
    report = none ∧ ValidOutput (readOutput node report).1 := by
  obtain ⟨h,hname⟩ := readName_none makeFirstError_ne_none h
  exact ⟨h,hname,rfl⟩

private theorem readStep_none (hstandard : library.Standard) (node : Node) (report : Report)
    (h : (library.readStep node report).2 = none) : report = none ∧ ValidStep (library.readStep node report).1 := by
  unfold readStep at *
  obtain ⟨h,houtputs⟩ := foldl_insertRead_none readOutput_none h
  obtain ⟨h,hinputs⟩ := foldl_insertRead_none (readInput_none hstandard) h
  obtain ⟨h,hstrategy⟩ := readStrategy_none h
  obtain ⟨h,hwait,hwait_nonneg⟩ := readTime_none hstandard h
  obtain ⟨h,hruntime,hruntime_nonneg⟩ := readTime_none hstandard h
  obtain ⟨h,hcycle,hcycle_ne⟩ := readNumber_none (P := fun value => IsInt64 value ∧ value ≠ 0)
    (fun text hvalid => ⟨hstandard.toInt64_range text,by simpa using hvalid⟩) (fun _ => by decide) h
  obtain ⟨h,hname⟩ := readName_none makeFirstError_ne_none h
  exact ⟨h,hname,hcycle,hcycle_ne,hruntime,hruntime_nonneg,hwait,hwait_nonneg,hstrategy,hinputs,houtputs⟩

theorem readGlobalInput_none (hstandard : library.Standard) (node : Node) (report : Report)
    (h : (library.readGlobalInput node report).2 = none) :
    report = none ∧ ValidGlobalInput (library.readGlobalInput node report).1 := by
  unfold readGlobalInput at *
  obtain ⟨h,hsize,hsize_ne⟩ := readNumber_none (P := fun value => IsInt32 value ∧ value ≠ 0)
    (fun text hvalid => ⟨hstandard.toInt32_range text,by simpa using hvalid⟩) (by simp) h
  obtain ⟨h,hname⟩ := readName_none makeFirstError_ne_none h
  exact ⟨h,hname,hsize,hsize_ne⟩

private theorem insertStep_none (hstandard : library.Standard)
    (state : List (String × StepConfig) × Report) (node : Node)
    (h : (library.insertStep state node).2 = none) :
    state.2 = none ∧ (ValidMap ValidStep state.1 → ValidMap ValidStep (library.insertStep state node).1) := by
  obtain ⟨hstate,hentry⟩ := readStep_none hstandard node state.2 h
  exact ⟨hstate,fun hmap => hmap.insert hentry⟩

private theorem readSystemTimeout_none (h : (library.readSystemTimeout node report).2 = none) : report = none := by
  unfold readSystemTimeout at h
  dsimp only at h
  split at h
  · split at h
    · cases h
    · split at h
      · exact h
      · split at h
        · cases h
        · exact h
  · exact h

private theorem readParticipant_none (hstandard : library.Standard) (node : Node) (report : Report)
    (h : (library.readParticipant node report).2 = none) :
    report = none ∧ ValidParticipant (library.readParticipant node report).1 := by
  unfold readParticipant at *
  obtain ⟨h,hinputs⟩ := foldl_insertRead_none (readGlobalInput_none hstandard) h
  obtain ⟨h,htasks⟩ := foldl_none (insertStep_none hstandard) h
  obtain ⟨h,hname⟩ := readName_none makeError_ne_none (readSystemTimeout_none h)
  exact ⟨h,hname,htasks .nil,hinputs⟩

theorem readTimingConfigFromString_valid (hstandard : library.Standard) {text : String}
    {previous configuration : TimingConfiguration}
    (h : library.readTimingConfigFromString text previous = (configuration,none)) : configuration.Valid := by
  unfold readTimingConfigFromString at h
  split at h
  · cases (Prod.mk.inj h).2
  · rename_i dom _
    obtain ⟨nodes,hnodes⟩ : ∃ nodes : List Node, nodes =
      if dom.isNamed "timing" then dom.findNodes ["participants","participant"] else [] := ⟨_,rfl⟩
    rw [readTimingConfigFromDOM,← hnodes] at h
    obtain ⟨rfl,hreport⟩ := Prod.mk.inj h
    split at hreport
    · exact absurd hreport makeFirstError_ne_none
    · rename_i hlength
      obtain ⟨-,hmap⟩ := foldl_insertRead_none (readParticipant_none hstandard) hreport
      exact ⟨fun hnil => hlength (List.length_eq_zero_iff.mpr hnil),hmap⟩

end ConfigLibrary
end FepParticipant.Timing
