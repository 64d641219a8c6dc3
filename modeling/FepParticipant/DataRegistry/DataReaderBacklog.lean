import FepParticipant.Library.CircularList

/-! The backlog of a data reader, a ring of samples of which the latest is read, or the latest one up to a
time. Samples that are received are not null. -/
namespace FepParticipant.DataRegistry
open Library List Nat

variable {α β : Type} (getTime : α → Int)

structure DataReaderBacklog (α β : Type) where
  samples : List (Option α)
  lastIdx : Nat
  currentSize : Nat
  initType : β

inductive BacklogCall (α β : Type) where
  | onReceive (sample : α)
  | onReceiveType (streamType : β)
  | resize (queueSize : Nat)

/-- There is room for one sample at least. -/
def roomFor (size : Nat) : Nat := if size ≤ 0 then 1 else size

namespace DataReaderBacklog

def new (size : Nat) (initType : β) : DataReaderBacklog α β := ⟨List.replicate (roomFor size) none,0,0,initType⟩

variable (backlog : DataReaderBacklog α β)

def capacity : Nat := backlog.samples.length

def onReceive (sample : α) : DataReaderBacklog α β :=
  let lastIdx := if backlog.lastIdx + 1 = backlog.samples.length then 0 else backlog.lastIdx + 1
  let currentSize :=
    if backlog.currentSize < backlog.samples.length then backlog.currentSize + 1 else backlog.currentSize
  {backlog with samples := backlog.samples.set lastIdx (some sample), lastIdx := lastIdx, currentSize := currentSize}

def resize (queueSize : Nat) : DataReaderBacklog α β :=
  if backlog.capacity ≠ roomFor queueSize then
    {backlog with samples := List.replicate (roomFor queueSize) none, lastIdx := 0, currentSize := 0}
  else backlog

def apply : BacklogCall α β → DataReaderBacklog α β
  | .onReceive sample => backlog.onReceive sample
  | .onReceiveType streamType => {backlog with initType := streamType}
  | .resize queueSize => backlog.resize queueSize

/-- The slot of the latest sample, which may be empty. -/
def read : Option α := (backlog.samples[backlog.lastIdx]?).getD none

/-- The loop of `readBefore`, backwards from a slot; `none` asks an empty slot for its time. -/
def readBeforeFrom (upperBound : Int) : Nat → Nat → Option (Option α)
  | 0, _ => some none
  | loopCount + 1, currentIdx =>
    match (backlog.samples[currentIdx]?).getD none with
    | none => none
    | some sample =>
      if getTime sample ≤ upperBound then some (some sample)
      else readBeforeFrom upperBound loopCount (if currentIdx = 0 then backlog.currentSize - 1 else currentIdx - 1)

def readBefore (upperBound : Int) : Option (Option α) :=
  backlog.readBeforeFrom getTime upperBound backlog.currentSize backlog.lastIdx

variable {backlog : DataReaderBacklog α β}

@[simp] theorem capacity_onReceive (sample : α) : (backlog.onReceive sample).capacity = backlog.capacity := length_set

@[simp] theorem capacity_resize (queueSize : Nat) : (backlog.resize queueSize).capacity = roomFor queueSize := by
  rw [resize]
  split
  · exact length_replicate
  · exact not_not.mp ‹_›

end DataReaderBacklog

/-- What was received since the capacity changed the last time. -/
structure Reception (α : Type) where
  capacity : Nat
  received : List α

namespace Reception

variable (reception : Reception α)

def apply : BacklogCall α β → Reception α
  | .onReceive sample => ⟨reception.capacity,reception.received ++ [sample]⟩
  | .onReceiveType _ => reception
  | .resize queueSize => if reception.capacity ≠ roomFor queueSize then ⟨roomFor queueSize,[]⟩ else reception

/-- The samples that are retained, the latest at the end. -/
def retained : List α := keepLast reception.capacity reception.received

/-- The answer is the latest sample retained up to the time, and there is none only if there is no such sample. -/
structure Answers (upperBound : Int) (answer : Option α) : Prop where
  latest : ∀ sample, answer = some sample ↔ ∃ earlier later, reception.retained = earlier ++ sample::later ∧
    getTime sample ≤ upperBound ∧ ∀ other ∈ later, upperBound < getTime other
  nothing : answer = none ↔ ∀ sample ∈ reception.retained, upperBound < getTime sample

end Reception

namespace DataReaderBacklog

variable {getTime} {backlog : DataReaderBacklog α β} {reception : Reception α} {upperBound : Int}
  {call : BacklogCall α β}
  {sample : α} {size : Nat}

/-- The ring holds what is retained: the sample received as the n-th lies in the slot n. -/
structure Holds (backlog : DataReaderBacklog α β) (reception : Reception α) : Prop where
  capacity : backlog.samples.length = reception.capacity
  room : 0 < reception.capacity
  lastIdx : backlog.lastIdx = reception.received.length % reception.capacity
  currentSize : backlog.currentSize = min reception.received.length reception.capacity
  unread : reception.received = [] → backlog.samples[0]? = some none
  lies : Lies backlog.samples (reception.received.length - backlog.currentSize + 1) (reception.retained.map some)

private theorem roomFor_pos : 0 < roomFor size := by
  rw [roomFor]
  split <;> omega

theorem holds_empty (initType : β) :
    Holds (⟨List.replicate (roomFor size) none,0,0,initType⟩ : DataReaderBacklog α β) ⟨roomFor size,[]⟩ where
  capacity := length_replicate
  room := roomFor_pos
  lastIdx := (zero_mod _).symm
  currentSize := (Nat.zero_min _).symm
  unread := fun _ => by
    rw [getElem?_replicate,if_pos (roomFor_pos)]
  lies := by
    have hnothing : Reception.retained (⟨roomFor size,[]⟩ : Reception α) = [] := drop_nil
    rw [hnothing]
    exact Lies.nil _ _

theorem lastIdx_next {n : Nat} (hn : 0 < n) (k : Nat) : (if k % n + 1 = n then 0 else k % n + 1) = (k + 1) % n := by
  have hlt := mod_lt k hn
  have hmod : (k + 1) % n = (k % n + 1) % n := (mod_add_mod k n 1).symm
  rw [hmod]
  split
  · rename_i hend
    rw [hend,mod_self]
  · exact (mod_eq_of_lt (by omega)).symm

theorem previous_slot {n : Nat} (hn : 0 < n) {k : Nat} :
    (if (k + 1) % n = 0 then n - 1 else (k + 1) % n - 1) = k % n := by
  rw [← lastIdx_next hn]
  split
  · split <;> omega
  · split <;> omega

theorem Holds.onReceive (h : Holds backlog reception) (sample : α) :
    Holds (backlog.onReceive sample) ⟨reception.capacity,reception.received ++ [sample]⟩ := by
  have hroom := h.room
  have hsize := h.currentSize
  have hlength : (reception.received ++ [sample]).length = reception.received.length + 1 := length_append
  have hlast : (if backlog.lastIdx + 1 = backlog.samples.length then 0 else backlog.lastIdx + 1) =
      (reception.received.length + 1) % reception.capacity := by
    rw [h.capacity,h.lastIdx,lastIdx_next hroom]
  have hcurrent : (if backlog.currentSize < backlog.samples.length then backlog.currentSize + 1
      else backlog.currentSize) = min (reception.received.length + 1) reception.capacity := by
    rw [h.capacity]
    split <;> omega
  refine ⟨?_,hroom,?_,?_,?_,?_⟩
  · rw [DataReaderBacklog.onReceive,length_set,h.capacity]
  · rw [DataReaderBacklog.onReceive,hlast,hlength]
  · rw [DataReaderBacklog.onReceive,hcurrent,hlength]
  · intro hnone
    exact absurd hnone (append_ne_nil_of_right_ne_nil _ (cons_ne_nil _ _))
  · have hlies := h.lies
    rw [DataReaderBacklog.onReceive,hlast,hcurrent]
    rw [hlength]
    by_cases hfull : reception.capacity ≤ reception.received.length
    · -- the oldest sample is overwritten
      have hkept : (reception.retained.map some).tail.length = reception.capacity - 1 := by
        rw [length_tail,length_map,Reception.retained,length_keepLast,min_eq_right hfull]
      have hstart : reception.received.length - backlog.currentSize + 1 =
          reception.received.length - reception.capacity + 1 := by omega
      have hnext : reception.received.length + 1 - min (reception.received.length + 1) reception.capacity + 1 =
          reception.received.length - reception.capacity + 1 + 1 := by omega
      rw [hstart] at hlies
      have happend := hlies.tail_of.append (by rw [hkept,h.capacity]; omega) (some sample)
      have hslot : (reception.received.length - reception.capacity + 1 + 1 + (reception.capacity - 1)) =
          reception.received.length + 1 := by omega
      rw [hkept,h.capacity,hslot] at happend
      rw [hnext,Reception.retained,keepLast_append_of_le hroom hfull,map_append,map_tail]
      exact happend
    · have hall : reception.retained = reception.received := keepLast_of_le (by omega)
      have hstart : reception.received.length - backlog.currentSize + 1 = 1 := by omega
      have hnext : reception.received.length + 1 - min (reception.received.length + 1) reception.capacity + 1 = 1 := by
        omega
      rw [hall,hstart] at hlies
      have happend := hlies.append (by rw [length_map,h.capacity]; omega) (some sample)
      rw [length_map,h.capacity,add_comm 1] at happend
      rw [hnext,Reception.retained,keepLast_of_le (by rw [hlength]; dsimp only; omega),map_append]
      exact happend

private theorem Holds.apply (h : Holds backlog reception) (call : BacklogCall α β) :
    Holds (backlog.apply call) (reception.apply call) := by
  cases call with
  | onReceive sample => exact h.onReceive sample
  | onReceiveType streamType => exact ⟨h.capacity,h.room,h.lastIdx,h.currentSize,h.unread,h.lies⟩
  | resize queueSize =>
    rw [DataReaderBacklog.apply,resize,DataReaderBacklog.capacity,h.capacity,Reception.apply]
    split
    · exact holds_empty _
    · exact h

/-- The backlog after these calls, and what it has received since its capacity changed. -/
def after (size : Nat) (initType : β) (calls : List (BacklogCall α β)) : DataReaderBacklog α β :=
  calls.foldl DataReaderBacklog.apply (new size initType)

theorem holds_after (size : Nat) (initType : β) (calls : List (BacklogCall α β)) :
    Holds (after size initType calls) (calls.foldl Reception.apply ⟨roomFor size,[]⟩) := by
  rw [after]
  have hnew : Holds (new size initType) (⟨roomFor size,[]⟩ : Reception α) := holds_empty initType
  generalize new size initType = backlog at hnew ⊢
  generalize (⟨roomFor size,[]⟩ : Reception α) = reception at hnew ⊢
  induction calls generalizing backlog reception with
  | nil => exact hnew
  | cons call calls ih => exact ih _ _ (hnew.apply call)

section
variable (h : Holds backlog reception)
include h

theorem Holds.length_retained : reception.retained.length = backlog.currentSize := by
  rw [Reception.retained,length_keepLast,h.currentSize]

theorem Holds.slot {k : Nat} (hk : k < reception.retained.length) :
    backlog.samples[(reception.received.length - backlog.currentSize + 1 + k) % reception.capacity]? =
      some (some (reception.retained.get ⟨k,hk⟩)) := by
  have hlies := h.lies k (by rwa [length_map])
  rw [h.capacity] at hlies
  rw [hlies,getElem?_map,getElem?_eq_getElem hk]
  rfl

theorem Holds.read : backlog.read = reception.retained.getLast? := by
  have hroom := h.room
  have hsize := h.currentSize
  have hlength := h.length_retained
  rw [DataReaderBacklog.read,h.lastIdx]
  by_cases hnone : reception.received.length = 0
  · have hreceived := eq_nil_of_length_eq_zero hnone
    have hretained : reception.retained = [] := eq_nil_of_length_eq_zero (by omega)
    rw [hnone,zero_mod,h.unread hreceived,hretained]
    rfl
  · have hlast : reception.retained.length - 1 < reception.retained.length := by omega
    have hslot := h.slot hlast
    have hindex : reception.received.length - backlog.currentSize + 1 + (reception.retained.length - 1) =
        reception.received.length := by omega
    rw [hindex] at hslot
    rw [hslot,getLast?_eq_getElem?,getElem?_eq_getElem hlast]
    rfl

theorem Holds.readBeforeFrom (upperBound : Int) {k currentIdx : Nat} (hk : k ≤ reception.retained.length)
    (hidx : 0 < k →
      currentIdx = (reception.received.length - backlog.currentSize + k) % reception.capacity) :
    backlog.readBeforeFrom getTime upperBound k currentIdx =
      some ((reception.retained.take k).reverse.find? fun sample => getTime sample ≤ upperBound) := by
  induction k generalizing currentIdx with
  | zero => rfl
  | succ k ih =>
    have hslot := h.slot hk
    have hindex : reception.received.length - backlog.currentSize + 1 + k =
        reception.received.length - backlog.currentSize + (k + 1) := by omega
    rw [hindex,← hidx (succ_pos k)] at hslot
    rw [DataReaderBacklog.readBeforeFrom,hslot,take_succ_eq_append_getElem hk,reverse_append,
      reverse_singleton,singleton_append,find?_cons]
    dsimp only [Option.getD_some]
    by_cases hbefore : getTime (reception.retained.get ⟨k,hk⟩) ≤ upperBound
    · have hle : decide (getTime reception.retained[k] ≤ upperBound) = true := decide_eq_true hbefore
      rw [if_pos hbefore,hle]
      rfl
    · rw [if_neg hbefore]
      have hnot : decide (getTime reception.retained[k] ≤ upperBound) = false := decide_eq_false hbefore
      rw [hnot]
      apply ih (le_of_succ_le hk)
      intro hpos
      rw [← previous_slot h.room,hidx (succ_pos k),← add_assoc]
      have hwrap : (reception.received.length - backlog.currentSize + k + 1) % reception.capacity = 0 →
          backlog.currentSize = reception.capacity := by
        intro hzero
        have hsize := h.currentSize
        have hlength := h.length_retained
        by_contra hne
        rw [mod_eq_of_lt (by omega)] at hzero
        omega
      split
      · rename_i hzero
        rw [hwrap hzero]
      · rfl

end

private theorem find_reverse_answers (reception : Reception α) (upperBound : Int) : reception.Answers getTime upperBound
      (reception.retained.reverse.find? fun sample => getTime sample ≤ upperBound) where
  latest := by
    intro sample
    rw [find?_eq_some_iff_append]
    constructor
    · rintro ⟨hle,later,earlier,hsplit,hlater⟩
      refine ⟨earlier.reverse,later.reverse,?_,of_decide_eq_true hle,?_⟩
      · rw [← reverse_reverse reception.retained,hsplit]
        simp
      · intro other hother
        simpa using hlater other (mem_reverse.mp hother)
    · rintro ⟨earlier,later,hsplit,hle,hlater⟩
      refine ⟨decide_eq_true hle,later.reverse,earlier.reverse,?_,?_⟩
      · rw [hsplit]
        simp
      · intro other hother
        simpa using hlater other (mem_reverse.mp hother)
  nothing := by
    simp

/-- Whatever was received and resized, the latest sample retained is read, and before a time the latest one of those up
to it. -/
theorem backlog_reads (getTime : α → Int) (size : Nat) (initType : β) (calls : List (BacklogCall α β)) :
    let backlog := after size initType calls
    let reception : Reception α := calls.foldl Reception.apply ⟨roomFor size,[]⟩
    backlog.read = reception.retained.getLast? ∧
    ∀ upperBound, ∃ answer, backlog.readBefore getTime upperBound = some answer ∧
      reception.Answers getTime upperBound answer := by
  have h := holds_after size initType calls
  refine ⟨h.read,fun upperBound => ⟨_,?_,find_reverse_answers _ upperBound⟩⟩
  have hlength := h.length_retained
  have hsize := h.currentSize
  rw [readBefore,h.readBeforeFrom upperBound hlength.ge,← hlength,take_length]
  intro _
  rw [h.lastIdx,Nat.sub_add_cancel (by omega)]

end DataReaderBacklog
end FepParticipant.DataRegistry
