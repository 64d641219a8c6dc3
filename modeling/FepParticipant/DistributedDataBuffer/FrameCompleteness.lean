import Mathlib.Data.List.Induction
import FepParticipant.DistributedDataBuffer.DDB

/-! When a frame is complete: by its counters, and by its samples. The counters of a frame without
any frame id agree by accident. -/
namespace FepParticipant.DistributedDataBuffer
open Library Transmission List Nat Option

namespace DDBFrame

/-- What is done to a frame between two readings of it. -/
inductive FrameOp where
  | initMemory (szMaxEntries : Nat) (memory : List UInt8)
  | setSample (entry : DDBEntry) (nSampleNumber : Nat)
  | analyseFrame
  | invalidateData

def apply (frame : DDBFrame) : FrameOp → DDBFrame
  | .initMemory szMaxEntries memory => initMemory szMaxEntries memory
  | .setSample entry nSampleNumber => (frame.setSample entry nSampleNumber).1
  | .analyseFrame => frame.analyseFrame
  | .invalidateData => frame.invalidateData

def after (szMaxEntries : Nat) (memory : List UInt8) (ops : List FrameOp) : DDBFrame :=
  ops.foldl apply (initMemory szMaxEntries memory)

/-- The valid samples are those numbered 0 to some n, all of the frame id of the frame, and the last of them
carries the sync flag. -/
def Complete (frame : DDBFrame) : Prop :=
  ∃ n, (∀ nId, (frame.getSample nId).isSome = true ↔ nId ≤ n) ∧
    (∀ nId, ∀ entry ∈ frame.getSample nId, entry.sample.frameId = frame.frameId) ∧
    ∃ last ∈ frame.getSample n, last.sample.syncFlag = true

def Identified (frame : DDBFrame) : Prop := ∃ entry ∈ frame.entries, entry.sample.frameId ≠ 0

instance (frame : DDBFrame) : Decidable frame.Identified := inferInstanceAs (Decidable (∃ entry ∈ _, _))

variable {frame : DDBFrame} {entries : List DDBEntry} {entry : DDBEntry} {frameId : Nat}

theorem foldl_frameId (init : Nat) :
    let largest := entries.foldl
      (fun frameId entry => if frameId < entry.sample.frameId then entry.sample.frameId else frameId) init
    init ≤ largest ∧ (∀ entry ∈ entries, entry.sample.frameId ≤ largest) ∧
      (largest = init ∨ ∃ entry ∈ entries, entry.sample.frameId = largest) := by
  induction entries generalizing init with
  | nil => exact ⟨le_refl _,nofun,.inl rfl⟩
  | cons entry entries ih =>
    obtain ⟨hle,hall,hsome⟩ := ih (if init < entry.sample.frameId then entry.sample.frameId else init)
    rw [foldl_cons]
    generalize List.foldl _ _ entries = largest at hle hall hsome
    have hhead : init ≤ largest ∧ entry.sample.frameId ≤ largest := by
      split at hle <;> omega
    refine ⟨hhead.1,?_,?_⟩
    · intro other hother
      rcases mem_cons.mp hother with rfl | hmem
      · exact hhead.2
      · exact hall other hmem
    · rcases hsome with hsame | ⟨other,hother,hid⟩
      · split at hsame
        · exact .inr ⟨entry,mem_cons_self ..,hsame.symm⟩
        · exact .inl hsame
      · exact .inr ⟨other,mem_cons_of_mem _ hother,hid⟩

theorem maxFrameId_ne_zero_iff : maxFrameId frame.entries ≠ 0 ↔ frame.Identified := by
  obtain ⟨-,hall,hsome⟩ := foldl_frameId 0
  constructor
  · intro hne
    rcases hsome with hzero | ⟨entry,hentry,hid⟩
    · exact absurd hzero hne
    · exact ⟨entry,hentry,fun hzero => hne (hid.symm.trans hzero)⟩
  · rintro ⟨entry,hentry,hne⟩ hzero
    have hle : entry.sample.frameId ≤ maxFrameId frame.entries := hall entry hentry
    omega

theorem exists_maxFrameId (h : maxFrameId entries ≠ 0) :
    ∃ entry ∈ entries, entry.sample.frameId = maxFrameId entries :=
  (foldl_frameId 0).2.2.resolve_left h

def HasId (entries : List DDBEntry) (frameId nIt : Nat) : Prop :=
  ∃ entry, entries[nIt]? = some entry ∧ entry.sample.frameId = frameId

theorem frameSizeOf_append :
    frameSizeOf (entries ++ [entry]) frameId =
      if entry.sample.frameId = frameId then
        if entry.sample.syncFlag then entries.length + 1 else entries.length + 2
      else frameSizeOf entries frameId := by
  rw [frameSizeOf,zipIdx_append,foldl_append,zero_add]
  rfl

theorem hasId_append (nIt : Nat) : HasId (entries ++ [entry]) frameId nIt ↔
    HasId entries frameId nIt ∨ (nIt = entries.length ∧ entry.sample.frameId = frameId) := by
  unfold HasId
  rcases lt_trichotomy nIt entries.length with hlt | rfl | hgt
  · rw [getElem?_append_left hlt]
    simp [Nat.ne_of_lt hlt]
  · simp
  · have hnone : entries[nIt]? = none := getElem?_eq_none (le_of_lt hgt)
    have hend : (entries ++ [entry])[nIt]? = none := by
      rw [List.getElem?_eq_none_iff,length_append,length_singleton]
      exact hgt
    simp [hnone,hend,ne_of_gt hgt]

theorem hasId_lt {nIt : Nat} (h : HasId entries frameId nIt) : nIt < entries.length := by
  obtain ⟨entry,hget,-⟩ := h
  exact (List.getElem?_eq_some_iff.mp hget).1

theorem countP_eq_length_iff : entries.countP (·.sample.frameId == frameId) = entries.length ↔
    ∀ nIt, nIt < entries.length → HasId entries frameId nIt := by
  rw [countP_eq_length]
  constructor
  · intro hall nIt hlt
    exact ⟨entries[nIt],getElem?_eq_getElem hlt,by simpa using hall _ (getElem_mem hlt)⟩
  · intro hall entry hentry
    obtain ⟨nIt,hlt,rfl⟩ := getElem_of_mem hentry
    obtain ⟨other,hother,hid⟩ := hall nIt hlt
    rw [getElem?_eq_getElem hlt,some.injEq] at hother
    subst hother
    simpa using hid

theorem eq_length_of_hasId (hid : entry.sample.frameId = frameId) {n : Nat}
    (hn : ∀ nIt, HasId (entries ++ [entry]) frameId nIt ↔ nIt ≤ n) : n = entries.length := by
  have hle := (hn entries.length).mp ((hasId_append _).mpr (.inr ⟨rfl,hid⟩))
  have hlt := hasId_lt ((hn n).mpr (le_refl _))
  rw [length_append,length_singleton] at hlt
  omega

private theorem hasId_append_iff_le (hid : entry.sample.frameId = frameId) :
    (∀ nIt, HasId (entries ++ [entry]) frameId nIt ↔ nIt ≤ entries.length) ↔
      ∀ nIt, nIt < entries.length → HasId entries frameId nIt := by
  simp only [hasId_append]
  constructor
  · intro hall nIt hlt
    rcases (hall nIt).mpr (le_of_lt hlt) with hfront | ⟨rfl,-⟩
    · exact hfront
    · exact absurd hlt (lt_irrefl _)
  · intro hfront nIt
    constructor
    · rintro (hbefore | ⟨rfl,-⟩)
      · exact le_of_lt (hasId_lt hbefore)
      · exact le_refl _
    · intro hle
      rcases lt_or_eq_of_le hle with hlt | rfl
      · exact .inl (hfront nIt hlt)
      · exact .inr ⟨rfl,hid⟩

/-- The samples with the frame id are the first ones, and the last of them has the sync flag. -/
private def EndsWithSync (entries : List DDBEntry) (frameId : Nat) : Prop :=
  ∃ n, (∀ nIt, HasId entries frameId nIt ↔ nIt ≤ n) ∧
    ∃ last, entries[n]? = some last ∧ last.sample.syncFlag = true

private theorem endsWithSync_append_same (hid : entry.sample.frameId = frameId) :
    EndsWithSync (entries ++ [entry]) frameId ↔
      entry.sample.syncFlag = true ∧ ∀ nIt, nIt < entries.length → HasId entries frameId nIt := by
  have hlast : (entries ++ [entry])[entries.length]? = some entry := by simp
  constructor
  · rintro ⟨n,hn,last,hget,hsync⟩
    obtain rfl := eq_length_of_hasId hid hn
    rw [hlast,some.injEq] at hget
    exact ⟨hget ▸ hsync,(hasId_append_iff_le hid).mp hn⟩
  · rintro ⟨hsync,hall⟩
    exact ⟨entries.length,(hasId_append_iff_le hid).mpr hall,entry,hlast,hsync⟩

private theorem endsWithSync_append_other (hid : entry.sample.frameId ≠ frameId) :
    EndsWithSync (entries ++ [entry]) frameId ↔ EndsWithSync entries frameId := by
  unfold EndsWithSync
  simp only [hasId_append,hid,and_false,or_false]
  refine exists_congr fun n => and_congr_right fun hn => ?_
  rw [getElem?_append_left (hasId_lt ((hn n).mpr (le_refl _)))]

/-- The number of samples with the frame id is the frame size exactly if they are the first ones and the last has
the sync flag. The induction goes from the last entry to the front, as the size is overwritten. -/
theorem countP_eq_frameSizeOf_iff (hsome : ∃ entry ∈ entries, entry.sample.frameId = frameId) :
    entries.countP (·.sample.frameId == frameId) = frameSizeOf entries frameId ↔
      ∃ n, (∀ nIt, HasId entries frameId nIt ↔ nIt ≤ n) ∧
        ∃ last, entries[n]? = some last ∧ last.sample.syncFlag = true := by
  show _ ↔ EndsWithSync entries frameId
  induction entries using List.reverseRecOn with
  | nil =>
    obtain ⟨entry,hentry,-⟩ := hsome
    cases hentry
  | append_singleton entries entry ih =>
    rw [frameSizeOf_append,countP_append,countP_singleton]
    by_cases hid : entry.sample.frameId = frameId
    · rw [if_pos hid,if_pos (by simpa using hid),endsWithSync_append_same hid,← countP_eq_length_iff]
      cases hsync : entry.sample.syncFlag with
      | true => rw [if_pos rfl,add_right_cancel_iff,and_iff_right rfl]
      | false =>
        rw [if_neg Bool.false_ne_true]
        have hle := countP_le_length (p := fun entry : DDBEntry => entry.sample.frameId == frameId) (l := entries)
        exact iff_of_false (by omega) fun hend => Bool.false_ne_true hend.1
    · rw [if_neg hid,if_neg (by simpa using hid),add_zero,endsWithSync_append_other hid]
      apply ih
      obtain ⟨other,hother,hsame⟩ := hsome
      rcases mem_append.mp hother with hmem | hmem
      · exact ⟨other,hmem,hsame⟩
      · rw [mem_singleton.mp hmem] at hsame
        exact absurd hsame hid

theorem getSample_analyseFrame (nId : Nat) : frame.analyseFrame.getSample nId = some entry ↔
    frame.entries[nId]? = some entry ∧ maxFrameId frame.entries ≠ 0 ∧
      entry.sample.frameId = maxFrameId frame.entries := by
  simp only [getSample,analyseFrame,getElem?_map,Bool.true_and]
  cases frame.entries[nId]? with
  | none => simp
  | some found =>
    simp only [map_some,any_some,id,some.injEq]
    constructor
    · intro hfound
      split at hfound
      · rename_i hvalid
        cases hfound
        rw [Bool.and_eq_true,bne_iff_ne,beq_iff_eq] at hvalid
        exact ⟨rfl,hvalid⟩
      · cases hfound
    · rintro ⟨rfl,hne,hid⟩
      rw [if_pos]
      rw [Bool.and_eq_true,bne_iff_ne,beq_iff_eq]
      exact ⟨hne,hid⟩

theorem isSome_getSample_analyseFrame (nId : Nat) :
    (frame.analyseFrame.getSample nId).isSome = true ↔
      maxFrameId frame.entries ≠ 0 ∧ HasId frame.entries (maxFrameId frame.entries) nId := by
  rw [isSome_iff_exists]
  simp only [getSample_analyseFrame]
  constructor
  · rintro ⟨entry,hget,hne,hid⟩
    exact ⟨hne,entry,hget,hid⟩
  · rintro ⟨hne,entry,hget,hid⟩
    exact ⟨entry,hget,hne,hid⟩

theorem counters_iff_complete (h : frame.Identified) :
    frame.analyseFrame.validCount = frame.analyseFrame.frameSize ↔ frame.analyseFrame.Complete := by
  have hne := maxFrameId_ne_zero_iff.mpr h
  have hcounters : frame.analyseFrame.validCount = frame.analyseFrame.frameSize ↔
      frame.entries.countP (·.sample.frameId == maxFrameId frame.entries) =
        frameSizeOf frame.entries (maxFrameId frame.entries) := by
    simp only [analyseFrame,if_pos hne]
  rw [hcounters,countP_eq_frameSizeOf_iff (exists_maxFrameId hne)]
  constructor
  · rintro ⟨n,hn,last,hlast,hsync⟩
    refine ⟨n,?_,?_,last,?_,hsync⟩
    · intro nId
      rw [isSome_getSample_analyseFrame,and_iff_right hne,hn]
    · intro nId entry hentry
      exact ((getSample_analyseFrame nId).mp hentry).2.2
    · obtain ⟨other,hother,hid⟩ := (hn n).mpr (le_refl _)
      rw [hlast,some.injEq] at hother
      subst hother
      exact (getSample_analyseFrame n).mpr ⟨hlast,hne,hid⟩
  · rintro ⟨n,hn,-,last,hlast,hsync⟩
    refine ⟨n,?_,last,((getSample_analyseFrame n).mp hlast).1,hsync⟩
    intro nIt
    rw [← hn,isSome_getSample_analyseFrame,and_iff_right hne]

private theorem not_complete_of_not_identified (h : ¬frame.Identified) : ¬frame.analyseFrame.Complete := by
  rintro ⟨n,hn,-⟩
  have hvalid := (isSome_getSample_analyseFrame n).mp ((hn n).mpr (le_refl _))
  exact h (maxFrameId_ne_zero_iff.mp hvalid.1)

private theorem isComplete_analyseFrame : frame.analyseFrame.isComplete = true ↔
    frame.entries ≠ [] ∧ frame.analyseFrame.validCount = frame.analyseFrame.frameSize := by
  have hcurrent : frame.analyseFrame.isCurrent = true := rfl
  have hsize : frame.analyseFrame.getMaxSize = frame.entries.length := rfl
  rw [isComplete,hcurrent,hsize,eq_comm (a := frame.analyseFrame.validCount)]
  simp

theorem agree_analyseFrame (frame : DDBFrame) :
    (frame.analyseFrame.isComplete = true ↔ frame.analyseFrame.Complete) ↔ (frame.entries = [] ∨ frame.Identified) := by
  by_cases hidentified : frame.Identified
  · refine iff_of_true ?_ (.inr hidentified)
    have hfilled : frame.entries ≠ [] := by
      rintro hempty
      obtain ⟨entry,hentry,-⟩ := hidentified
      rw [hempty] at hentry
      cases hentry
    rw [isComplete_analyseFrame,and_iff_right hfilled,counters_iff_complete hidentified]
  · have hzero : maxFrameId frame.entries = 0 := by
      by_contra hne
      exact hidentified (maxFrameId_ne_zero_iff.mp hne)
    have hcounters : frame.analyseFrame.validCount = frame.analyseFrame.frameSize := by
      simp only [analyseFrame,hzero,ne_eq,not_true_eq_false,if_false]
    rw [iff_false_right (not_complete_of_not_identified hidentified),isComplete_analyseFrame,or_iff_left hidentified]
    simp [hcounters]

def Settled (frame : DDBFrame) : Prop := frame.isCurrent = true → frame.analyseFrame = frame

private theorem settled_apply (h : frame.Settled) (op : FrameOp) : (frame.apply op).Settled := by
  cases op with
  | initMemory => exact nofun
  | setSample entry nSampleNumber =>
    show (frame.setSample entry nSampleNumber).1.Settled
    unfold setSample
    split
    · exact nofun
    · exact h
  | analyseFrame => exact fun _ => rfl
  | invalidateData => exact nofun

theorem settled_after (szMaxEntries : Nat) (memory : List UInt8) (ops : List FrameOp) :
    (after szMaxEntries memory ops).Settled := by
  have hrun : ∀ (ops : List FrameOp) (frame : DDBFrame), frame.Settled → (ops.foldl apply frame).Settled := by
    intro ops
    induction ops with
    | nil => exact fun _ h => h
    | cons op ops ih => exact fun frame h => ih _ (settled_apply h op)
  exact hrun ops _ nofun

theorem agree_iff (h : frame.Settled) : (frame.isComplete = true ↔ frame.Complete) ↔
    (frame.isCurrent = true → frame.entries = [] ∨ frame.Identified) := by
  by_cases hcurrent : frame.isCurrent = true
  · have hagree := agree_analyseFrame frame
    rw [h hcurrent] at hagree
    rw [hagree]
    exact ⟨fun hor _ => hor,fun himp => himp hcurrent⟩
  · refine iff_of_true (iff_of_false ?_ ?_) (absurd · hcurrent)
    · simp [isComplete,hcurrent]
    · rintro ⟨n,hn,-⟩
      have hsome := (hn n).mpr (le_refl _)
      simp [getSample,hcurrent] at hsome

end DDBFrame
namespace DDBSystem

variable {system system' : DDBSystem} {action : DDBAction}

/-- What the worker is about to hand to `ProcessDDBSync` is a complete frame. -/
def DeliversComplete (system : DDBSystem) : Prop :=
  system.worker = .delivering → (system.ddb.frames system.ddb.bufferRead).Complete

def Switchable (system : DDBSystem) : DDBAction → Prop
  | .update sample => sample.signalHandle = system.ddb.hSignal → system.ddb.missedSync sample = true →
      (system.ddb.frames system.ddb.bufferWrite).Identified
  | .store => ∀ sample ∈ system.receiving, sample.syncFlag = true →
      ((system.storeSample sample).ddb.frames system.ddb.bufferWrite).Identified
  | .resetData => system.ddb.stockIsFull = false ∧ system.worker ≠ .delivering
  | _ => True

/-- The frames on their way to the listeners are complete. -/
structure CompleteInv (system : DDBSystem) : Prop where
  readStock : system.ddb.bufferRead ≠ system.ddb.bufferStock
  readWrite : system.ddb.bufferRead ≠ system.ddb.bufferWrite
  stockWrite : system.ddb.bufferStock ≠ system.ddb.bufferWrite
  strategy : system.ddb.deliverStrategy = .dumpIncomplete
  stock : system.ddb.stockIsFull = true → (system.ddb.frames system.ddb.bufferStock).Complete
  read : system.DeliversComplete

theorem completeInv_new (hSignal szMaxEntries : Nat) (memory : List UInt8) :
    CompleteInv (new hSignal szMaxEntries memory .dumpIncomplete) where
  readStock := (by decide : 0 ≠ 1)
  readWrite := (by decide : 0 ≠ 2)
  stockWrite := (by decide : 1 ≠ 2)
  strategy := rfl
  stock := nofun
  read := nofun

section
variable (h : CompleteInv system)
include h

theorem CompleteInv.setWrite (frame : DDBFrame) :
    CompleteInv {system with ddb := system.ddb.setFrame system.ddb.bufferWrite frame} where
  readStock := h.readStock
  readWrite := h.readWrite
  stockWrite := h.stockWrite
  strategy := h.strategy
  stock hfull := by
    simp only [DDB.setFrame,if_neg h.stockWrite]
    exact h.stock hfull
  read hworker := by
    simp only [DDB.setFrame,if_neg h.readWrite]
    exact h.read hworker

section
variable (hidentified : (system.ddb.frames system.ddb.bufferWrite).Identified)
include hidentified

private theorem CompleteInv.exchange
    (hkept : ¬system.ddb.analyseWrite.refusesFrame = true) : CompleteInv system.exchange := by
  have hanalysed : system.ddb.analyseWrite.frames system.ddb.bufferWrite =
      (system.ddb.frames system.ddb.bufferWrite).analyseFrame := by
    simp only [DDB.analyseWrite,DDB.setFrame,if_true]
  have hcounters : (system.ddb.frames system.ddb.bufferWrite).analyseFrame.validCount =
      (system.ddb.frames system.ddb.bufferWrite).analyseFrame.frameSize := by
    have hstrategy : system.ddb.analyseWrite.deliverStrategy = .dumpIncomplete := h.strategy
    have hwrite : system.ddb.analyseWrite.bufferWrite = system.ddb.bufferWrite := rfl
    have hcurrent : (system.ddb.frames system.ddb.bufferWrite).analyseFrame.isCurrent = true := rfl
    rw [DDB.refusesFrame,hstrategy,hwrite,hanalysed,DDBFrame.getValidCount,DDBFrame.getFrameSize,hcurrent] at hkept
    simpa using hkept
  refine ⟨h.readWrite,h.readStock,h.stockWrite.symm,h.strategy,?_,?_⟩
  · intro _
    show (system.ddb.analyseWrite.frames system.ddb.bufferWrite).Complete
    rw [hanalysed]
    exact (DDBFrame.counters_iff_complete hidentified).mp hcounters
  · intro hworker
    show (system.ddb.analyseWrite.frames system.ddb.bufferRead).Complete
    simp only [DDB.analyseWrite,DDB.setFrame,if_neg h.readWrite]
    exact h.read hworker

theorem CompleteInv.switchWrite : CompleteInv system.switchWrite := by
  unfold DDBSystem.switchWrite
  split
  · exact h.setWrite _
  · rename_i hkept
    exact h.exchange hidentified hkept

end

theorem CompleteInv.beginUpdate (sample : DataSample) (hidentified : system.ddb.missedSync sample = true →
      (system.ddb.frames system.ddb.bufferWrite).Identified) : CompleteInv (system.beginUpdate sample) := by
  unfold DDBSystem.beginUpdate
  split
  · rename_i hmissed
    have hswitched := h.switchWrite (hidentified hmissed)
    exact ⟨hswitched.readStock,hswitched.readWrite,hswitched.stockWrite,hswitched.strategy,hswitched.stock,
      hswitched.read⟩
  · exact ⟨h.readStock,h.readWrite,h.stockWrite,h.strategy,h.stock,h.read⟩

private theorem CompleteInv.storeSample (sample : DataSample) :
    CompleteInv (system.storeSample sample) := by
  have hset := h.setWrite ((system.ddb.frames system.ddb.bufferWrite).setSample
    ⟨sample,system.receptions + 1⟩ sample.sampleNumberInFrame).1
  exact ⟨hset.readStock,hset.readWrite,hset.stockWrite,hset.strategy,hset.stock,hset.read⟩

theorem CompleteInv.endUpdate (sample : DataSample) (hidentified : sample.syncFlag = true →
      ((system.storeSample sample).ddb.frames system.ddb.bufferWrite).Identified) :
    CompleteInv (system.endUpdate sample) := by
  have hstored := h.storeSample sample
  have hswitched : CompleteInv (if sample.syncFlag then (system.storeSample sample).switchWrite
      else system.storeSample sample) := by
    split
    · rename_i hsync
      exact hstored.switchWrite (hidentified hsync)
    · exact hstored
  exact ⟨hswitched.readStock,hswitched.readWrite,hswitched.stockWrite,hswitched.strategy,hswitched.stock,
    hswitched.read⟩

private theorem CompleteInv.switchRead :
    CompleteInv { system with
      ddb := system.ddb.switchReadBuffer.1
      worker := if isOk system.ddb.switchReadBuffer.2 then .delivering else .waiting } := by
  unfold DDB.switchReadBuffer
  cases hfull : system.ddb.stockIsFull with
  | true => exact ⟨h.readStock.symm,h.stockWrite,h.readWrite,h.strategy,nofun,fun _ => h.stock hfull⟩
  | false => exact ⟨h.readStock,h.readWrite,h.stockWrite,h.strategy,h.stock,nofun⟩

private theorem CompleteInv.reset (hempty : system.ddb.stockIsFull = false)
    (hworker : system.worker ≠ .delivering) : CompleteInv system.reset where
  readStock := h.readStock
  readWrite := h.readWrite
  stockWrite := h.stockWrite
  strategy := h.strategy
  stock hfull := absurd (hempty.symm.trans hfull) Bool.false_ne_true
  read hdelivering := absurd hdelivering hworker

theorem completeInv_step (hswitchable : system.Switchable action)
    (hstep : system.step action = some system') : CompleteInv system' := by
  cases action with
  | update sample =>
    simp only [step] at hstep
    split at hstep
    · cases hstep
    · split at hstep
      · cases hstep
        exact h
      · split at hstep
        · rename_i hsignal
          cases hstep
          exact h.beginUpdate sample (hswitchable hsignal)
        · cases hstep
          exact h
  | store =>
    obtain ⟨sample,hsample,rfl⟩ := map_eq_some_iff.mp hstep
    exact h.endUpdate sample (hswitchable sample hsample)
  | wake =>
    simp only [step] at hstep
    split at hstep
    · obtain ⟨event,-,rfl⟩ := map_eq_some_iff.mp hstep
      exact ⟨h.readStock,h.readWrite,h.stockWrite,h.strategy,h.stock,nofun⟩
    · cases hstep
  | switchRead =>
    simp only [step] at hstep
    split at hstep
    · cases hstep
      exact h.switchRead
    · cases hstep
  | deliver =>
    simp only [step] at hstep
    split at hstep
    · cases hstep
      exact ⟨h.readStock,h.readWrite,h.stockWrite,h.strategy,h.stock,nofun⟩
    · cases hstep
  | resetData =>
    simp only [step] at hstep
    split at hstep
    · cases hstep
    · cases hstep
      exact h.reset hswitchable.1 hswitchable.2

end

/-- On any frame `IsComplete` is right exactly if the frame is not analysed, has no place for a sample, or has a
frame id. A buffer that dumps incomplete frames, whose switches find a frame id and whose resets find no frame on
its way, hands out complete frames only. -/
theorem complete_frames (szMaxEntries : Nat) (memory : List UInt8) (ops : List DDBFrame.FrameOp)
    (hSignal : Nat) (system : DDBSystem) :
    (((DDBFrame.after szMaxEntries memory ops).isComplete = true ↔ (DDBFrame.after szMaxEntries memory ops).Complete) ↔
      ((DDBFrame.after szMaxEntries memory ops).isCurrent = true →
        (DDBFrame.after szMaxEntries memory ops).entries = [] ∨
          (DDBFrame.after szMaxEntries memory ops).Identified)) ∧
    (Reaches step Switchable (new hSignal szMaxEntries memory .dumpIncomplete) system → system.DeliversComplete) := by
  constructor
  · exact DDBFrame.agree_iff (DDBFrame.settled_after szMaxEntries memory ops)
  · intro hreach
    have hinv : CompleteInv system := by
      apply hreach.invariant (completeInv_new hSignal szMaxEntries memory)
      intro before action after h hswitchable hstep
      exact completeInv_step h hswitchable hstep
    exact hinv.read

instance (system : DDBSystem) (action : DDBAction) : Decidable (system.Switchable action) :=
  match action with
  | .update _ => inferInstanceAs (Decidable (_ → _ → _))
  | .store => inferInstanceAs (Decidable (∀ sample ∈ system.receiving, _ → _))
  | .resetData => inferInstanceAs (Decidable (_ ∧ _))
  | .wake | .switchRead | .deliver => inferInstanceAs (Decidable True)

private def frameSample (frameId number : Nat) (sync : Bool) : DataSample := ⟨sync,frameId,number,0,1,[]⟩

/-- A frame of two samples that is about to be handed out. -/
theorem complete_frames_two : ∃ system : DDBSystem,
    Reaches step Switchable (new 1 2 [] .dumpIncomplete) system ∧ system.worker = .delivering ∧
      (system.ddb.frames system.ddb.bufferRead).Complete := by
  obtain ⟨system,hreach,hworker⟩ : ∃ system, Reaches step Switchable (new 1 2 [] .dumpIncomplete) system ∧
      system.worker = .delivering :=
    exists_of_runAllowed [.update (frameSample 1 0 false),.store,.update (frameSample 1 1 true),.store,.wake,
      .switchRead] (by decide +kernel)
  exact ⟨system,hreach,hworker,(complete_frames 2 [] [] 1 system).2 hreach hworker⟩

/-- The first sample has too large a number and a sync flag: it is dropped, and the frame without any sample is
complete by its counters and handed out without any reset. A reset before the delivery hands out an empty frame where
nothing else is amiss. -/
theorem complete_frames_empty :
    (∃ frame : DDBFrame, frame = DDBFrame.after 1 [] [.setSample ⟨frameSample 1 1 true,1⟩ 1,.analyseFrame] ∧
      frame.isComplete = true ∧ ¬frame.Complete) ∧
    (∃ system : DDBSystem, Reaches step (fun _ action => action ≠ .resetData) (new 1 1 [] .dumpIncomplete) system ∧
      ¬system.DeliversComplete) ∧
    ∃ system : DDBSystem, Reaches step (fun system action => action = .resetData ∨ system.Switchable action)
      (new 1 1 [] .dumpIncomplete) system ∧ ¬system.DeliversComplete := by
  have hnone : ∀ {frame : DDBFrame}, frame.getSample 0 = none → ¬frame.Complete := by
    rintro frame hempty ⟨n,hn,-⟩
    have hfirst := (hn 0).mpr (zero_le n)
    rw [hempty] at hfirst
    cases hfirst
  have hdelivers : ∀ {system : DDBSystem}, system.worker = .delivering ∧
      ((system.ddb.frames system.ddb.bufferRead).getSample 0).isNone = true → ¬system.DeliversComplete :=
    fun hempty hcomplete => hnone (isNone_iff_eq_none.mp hempty.2) (hcomplete hempty.1)
  refine ⟨⟨_,rfl,rfl,hnone rfl⟩,?_,?_⟩
  · obtain ⟨system,hreach,hempty⟩ : ∃ system,
        Reaches step (fun _ action => action ≠ .resetData) (new 1 1 [] .dumpIncomplete) system ∧
        system.worker = .delivering ∧ ((system.ddb.frames system.ddb.bufferRead).getSample 0).isNone = true :=
      exists_of_runAllowed [.update (frameSample 1 1 true),.store,.wake,.switchRead] (by decide +kernel)
    exact ⟨system,hreach,hdelivers hempty⟩
  · obtain ⟨system,hreach,hempty⟩ : ∃ system,
        Reaches step (fun system action => action = .resetData ∨ system.Switchable action)
          (new 1 1 [] .dumpIncomplete) system ∧
        system.worker = .delivering ∧ ((system.ddb.frames system.ddb.bufferRead).getSample 0).isNone = true :=
      exists_of_runAllowed [.update (frameSample 1 0 true),.store,.resetData,.wake,.switchRead] (by decide +kernel)
    exact ⟨system,hreach,hdelivers hempty⟩

end DDBSystem
end FepParticipant.DistributedDataBuffer
