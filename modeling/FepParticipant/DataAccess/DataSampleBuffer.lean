import FepParticipant.Library.OrderedMultiset
import FepParticipant.Transmission.Transmitter

/-! The backlog of the samples received on one signal. A call that would dereference or move
an iterator in an empty backlog has no result. -/
namespace FepParticipant.DataAccess
open Library Transmission List Nat

/-- A slot of the backlog; the time -1 marks it as unused. The slot owns the sample that
`poSample` points to. -/
structure SampleSlot where
  tmSample : Int
  poSample : Nat
  sample : DataSample
  nLockCount : Int
  deriving DecidableEq

namespace SampleSlot
variable (slot : SampleSlot)

def isUnused : Bool := slot.tmSample == -1

def lock : SampleSlot := {slot with nLockCount := slot.nLockCount + 1}

def unlock : SampleSlot := {slot with nLockCount := slot.nLockCount - 1}

/-- The slot with a received sample copied into its storage. -/
def fill (sample : DataSample) : SampleSlot := {slot with tmSample := sample.timeStamp, sample := sample}

end SampleSlot

abbrev SampleSlots := OrderedMultiset SampleSlot SampleSlot.tmSample

/-- `allocated` is the number of samples created so far, which tells their addresses apart. -/
structure DataSampleBuffer where
  samples : SampleSlots
  deletedSlots : SampleSlots
  latestSampleTimestamp : Int
  allocated : Nat

def ssLatestSample : Nat := 0

def ssNearestSample : Nat := 1

namespace DataSampleBuffer
variable (buffer : DataSampleBuffer)

def new : DataSampleBuffer := ⟨OrderedMultiset.empty,OrderedMultiset.empty,-1,0⟩

/-- The slot behind the first in reverse order. -/
def latestSlot : Option Nat := if buffer.samples.size = 0 then none else some (buffer.samples.size - 1)

/-- The search of `LockDataAt` for the slot nearest to a time that is not negative. -/
def nearestSlot (tmSimulation : Int) : Option Nat :=
  let it := buffer.samples.lowerBound tmSimulation
  if it = buffer.samples.size then buffer.latestSlot
  else
    -- skip empty slots
    let it := it + ((buffer.samples.elements.drop it).takeWhile SampleSlot.isUnused).length
    (buffer.samples.get? it).map fun slot =>
      if slot.tmSample = tmSimulation then it
      else
        -- there is nothing in front of the first slot
        match if it = 0 then none else buffer.samples.get? (it - 1) with
        | none => it
        | some previous =>
          if previous.isUnused then it
          else if slot.tmSample - tmSimulation ≤ tmSimulation - previous.tmSample then it
          else it - 1

/-- The lock on the matched slot: the slot handed out and whether it is said to be valid. -/
def lockMatched (matched : Nat) (result : Result) :
    DataSampleBuffer × Result × Option (SampleSlot × Bool) :=
  match buffer.samples.get? matched with
  | some slot =>
    ({buffer with samples := buffer.samples.modify matched SampleSlot.lock fun _ => rfl},result,
      some (slot,decide (0 ≤ buffer.latestSampleTimestamp)))
  | none => (buffer,.errNotFound,none)

def lockDataAt (tmSimulation : Int) (selectionFlags : Nat) :
    Option (DataSampleBuffer × Result × Option (SampleSlot × Bool)) :=
  if selectionFlags = ssLatestSample then buffer.latestSlot.map fun matched => buffer.lockMatched matched .errNoError
  else if selectionFlags = ssNearestSample then
    (buffer.nearestSlot (max tmSimulation 0)).map fun matched => buffer.lockMatched matched .errNoError
  else some (buffer.lockMatched buffer.samples.size .errInvalidArg)

theorem lockDataAt_eq_lockMatched {buffer : DataSampleBuffer} {tmSimulation : Int} {selectionFlags : Nat}
    {locked : DataSampleBuffer × Result × Option (SampleSlot × Bool)}
    (h : buffer.lockDataAt tmSimulation selectionFlags = some locked) :
    ∃ matched result, locked = buffer.lockMatched matched result := by
  unfold lockDataAt at h
  split at h
  · obtain ⟨matched,-,rfl⟩ := Option.map_eq_some_iff.mp h
    exact ⟨matched,_,rfl⟩
  · split at h
    · obtain ⟨matched,-,rfl⟩ := Option.map_eq_some_iff.mp h
      exact ⟨matched,_,rfl⟩
    · cases h
      exact ⟨_,_,rfl⟩

def lockDataAtUpperBound (tmSimulationUpperBound : Int) :
    DataSampleBuffer × Result × Option (SampleSlot × Bool) :=
  let it := buffer.samples.upperBound tmSimulationUpperBound
  buffer.lockMatched (if it ≠ 0 then it - 1 else buffer.samples.size) .errNoError

/-- `UnlockData` for a sample and the time it has. -/
def unlockData (poSample : Nat) (time : Int) : DataSampleBuffer × Result :=
  match buffer.samples.findEqual time (·.poSample == poSample) with
  | some (position,slot) =>
    if 0 < slot.nLockCount then
      ({buffer with samples := buffer.samples.modify position SampleSlot.unlock fun _ => rfl},.errNoError)
    else (buffer,.errFailed)
  | none =>
    match buffer.deletedSlots.findEqual time (·.poSample == poSample) with
    | some (position,slot) =>
      ({ buffer with
          deletedSlots :=
            if slot.unlock.nLockCount = 0 then buffer.deletedSlots.erase position
            else buffer.deletedSlots.modify position SampleSlot.unlock fun _ => rfl },.errNoError)
    | none => (buffer,.errInvalidArg)

def reusableSlot : Option (Nat × SampleSlot) :=
  buffer.samples.findFirst fun slot => slot.isUnused || slot.nLockCount == 0

def update (sample : DataSample) : DataSampleBuffer × Result :=
  match buffer.reusableSlot with
  | some (position,slot) =>
    ({ buffer with
        samples := (buffer.samples.erase position).insert (slot.fill sample)
        latestSampleTimestamp := sample.timeStamp },.errNoError)
  | none => (buffer,.errResourceInUse)

/-- The first slot leaves the backlog; while it is locked it is kept aside. -/
def removeSlot : DataSampleBuffer :=
  match buffer.samples.get? 0 with
  | some slot =>
    { buffer with
      samples := buffer.samples.erase 0
      deletedSlots := if 0 < slot.nLockCount then buffer.deletedSlots.insert slot else buffer.deletedSlots }
  | none => buffer

def insertSlot (sample : DataSample) (buffer : DataSampleBuffer) : DataSampleBuffer :=
  { buffer with
    samples := buffer.samples.insert ⟨sample.timeStamp,buffer.allocated,sample,0⟩
    allocated := buffer.allocated + 1 }

def signalBacklogChanged (hSignal szSampleBacklog : Nat) (memory : List UInt8) :
    DataSampleBuffer :=
  let cut := removeSlot^[buffer.samples.size - szSampleBacklog] buffer
  (insertSlot ((DataSample.create hSignal memory).setTime (-1)))^[szSampleBacklog - cut.samples.size] cut

/-- The backlog of a signal as `SignalRegistered` fills it: the first sample has the default content, the others are
unused. -/
def signalRegistered (hSignal szBacklog : Nat) (memory content : List UInt8) :
    DataSampleBuffer :=
  insertSlot ((DataSample.create hSignal content).setTime 0)
    ((insertSlot ((DataSample.create hSignal memory).setTime (-1)))^[(szBacklog + 2 ^ 64 - 1) % 2 ^ 64] buffer)

end DataSampleBuffer

/-- A lock that has not been given back, with the sample as it was handed out. -/
structure SampleLock where
  poSample : Nat
  sampleIsValid : Bool
  tmSample : Int
  sample : DataSample

def lockCount (locks : List SampleLock) (poSample : Nat) : Nat := locks.countP (·.poSample == poSample)

def release (locks : List SampleLock) (poSample choice : Nat) : List SampleLock :=
  if (locks[choice]?).any (·.poSample == poSample) then locks.eraseIdx choice
  else locks.eraseP (·.poSample == poSample)

def DataSampleBuffer.slots (buffer : DataSampleBuffer) : List SampleSlot :=
  buffer.samples.elements ++ buffer.deletedSlots.elements

structure LockedBacklog where
  buffer : DataSampleBuffer
  locks : List SampleLock

/-- The calls, each under the mutex of the backlog. A sample that is unlocked exists; which of the
locks on it is given back does not matter to the backlog. -/
inductive BacklogAction where
  | update (sample : DataSample)
  | lockDataAt (tmSimulation : Int) (selectionFlags : Nat)
  | lockDataAtUpperBound (tmSimulationUpperBound : Int)
  | unlockData (poSample choice : Nat)
  | signalBacklogChanged (hSignal szSampleBacklog : Nat) (memory : List UInt8)
  | signalRegistered (hSignal szBacklog : Nat) (memory content : List UInt8)

namespace LockedBacklog

def new : LockedBacklog := ⟨DataSampleBuffer.new,[]⟩

def handOut (backlog : LockedBacklog) (locked : DataSampleBuffer × Result × Option (SampleSlot × Bool)) :
    LockedBacklog where
  buffer := locked.1
  locks := match locked.2.2 with
    | some (slot,sampleIsValid) => ⟨slot.poSample,sampleIsValid,slot.tmSample,slot.sample⟩::backlog.locks
    | none => backlog.locks

/-- `UnlockData` for the sample of a slot. -/
def unlock (backlog : LockedBacklog) (slot : SampleSlot) (choice : Nat) : LockedBacklog :=
  let (buffer,result) := backlog.buffer.unlockData slot.poSample slot.sample.timeStamp
  { buffer := buffer
    locks := if isOk result then release backlog.locks slot.poSample choice else backlog.locks }

def step (backlog : LockedBacklog) : BacklogAction → Option LockedBacklog
  | .update sample => some {backlog with buffer := (backlog.buffer.update sample).1}
  | .lockDataAt tmSimulation selectionFlags =>
    (backlog.buffer.lockDataAt tmSimulation selectionFlags).map backlog.handOut
  | .lockDataAtUpperBound tmSimulationUpperBound =>
    some (backlog.handOut (backlog.buffer.lockDataAtUpperBound tmSimulationUpperBound))
  | .unlockData poSample choice =>
    (backlog.buffer.slots.find? (·.poSample == poSample)).map fun slot => backlog.unlock slot choice
  | .signalBacklogChanged hSignal szSampleBacklog memory =>
    some {backlog with buffer := backlog.buffer.signalBacklogChanged hSignal szSampleBacklog memory}
  | .signalRegistered hSignal szBacklog memory content =>
    some {backlog with buffer := backlog.buffer.signalRegistered hSignal szBacklog memory content}

end LockedBacklog

section Locks

variable {locks locks' : List SampleLock} {lock : SampleLock} {poSample : Nat}

@[simp] theorem lockCount_cons : lockCount (lock::locks) poSample =
    lockCount locks poSample + if lock.poSample = poSample then 1 else 0 := by
  simp [lockCount,countP_cons]

theorem lockCount_pos_iff : 0 < lockCount locks poSample ↔ ∃ lock ∈ locks, lock.poSample = poSample := by
  simp [lockCount,countP_pos_iff]

theorem lockCount_eq_zero_iff : lockCount locks poSample = 0 ↔ ∀ lock ∈ locks, lock.poSample ≠ poSample := by
  simp [lockCount,countP_eq_zero]

theorem lockCount_perm (h : locks.Perm locks') : lockCount locks poSample = lockCount locks' poSample := h.countP_eq _

theorem release_perm (h : 0 < lockCount locks poSample) (choice : Nat) :
    ∃ lock, lock.poSample = poSample ∧ locks.Perm (lock::release locks poSample choice) := by
  unfold release
  split
  · rename_i hchosen
    obtain ⟨lock,hlock,hsample⟩ := (Option.any_eq_true _ _).mp hchosen
    obtain ⟨hlt,rfl⟩ := List.getElem?_eq_some_iff.mp hlock
    exact ⟨_,by simpa using hsample,(getElem_cons_eraseIdx_perm hlt).symm⟩
  · obtain ⟨lock,hmem,hsample⟩ := lockCount_pos_iff.mp h
    obtain ⟨first,before,after,-,hfirst,hlocks,herase⟩ :=
      exists_of_eraseP (p := fun lock => lock.poSample == poSample) hmem (by simpa using hsample)
    refine ⟨first,by simpa using hfirst,?_⟩
    rw [herase,hlocks]
    exact perm_middle

end Locks

/-- The slots own different samples, carry the times of these and count the locks that are out. -/
structure SlotsInv (slots : List SampleSlot) (allocated : Nat) (locks : List SampleLock) : Prop where
  distinct : (slots.map SampleSlot.poSample).Nodup
  fresh : ∀ slot ∈ slots, slot.poSample < allocated
  timed : ∀ slot ∈ slots, slot.sample.timeStamp = slot.tmSample
  counted : ∀ slot ∈ slots, slot.nLockCount = lockCount locks slot.poSample
  owned : ∀ lock ∈ locks, ∃ slot ∈ slots, slot.poSample = lock.poSample

/-- Whoever holds a lock on a valid sample finds it as it was handed out. -/
def Protected (slots : List SampleSlot) (locks : List SampleLock) : Prop :=
  ∀ lock ∈ locks, lock.sampleIsValid = true → ∃ slot ∈ slots, slot.poSample = lock.poSample ∧
    slot.tmSample = lock.tmSample ∧ slot.sample = lock.sample

section Slots

variable {slots slots' : List SampleSlot} {slot slot' : SampleSlot} {locks locks' : List SampleLock}
  {lock : SampleLock} {allocated : Nat}

namespace SlotsInv

theorem perm (h : SlotsInv slots allocated locks) (hperm : slots.Perm slots') : SlotsInv slots' allocated locks where
  distinct := (hperm.map _).nodup_iff.mp h.distinct
  fresh slot hslot := h.fresh slot (hperm.mem_iff.mpr hslot)
  timed slot hslot := h.timed slot (hperm.mem_iff.mpr hslot)
  counted slot hslot := h.counted slot (hperm.mem_iff.mpr hslot)
  owned lock hlock := by
    obtain ⟨slot,hslot,hsample⟩ := h.owned lock hlock
    exact ⟨slot,hperm.mem_iff.mp hslot,hsample⟩

section
variable (h : SlotsInv (slot::slots) allocated locks)
include h

theorem ne_of_mem (hslot : slot' ∈ slots) : slot'.poSample ≠ slot.poSample := by
  intro hsame
  exact (nodup_cons.mp h.distinct).1 (hsame ▸ mem_map_of_mem hslot)

theorem replace (hsample : slot'.poSample = slot.poSample)
    (htimed : slot'.sample.timeStamp = slot'.tmSample) (hcount : slot'.nLockCount = lockCount locks' slot.poSample)
    (hothers : ∀ other, other ≠ slot.poSample → lockCount locks' other = lockCount locks other)
    (howned : ∀ lock ∈ locks', lock.poSample = slot.poSample ∨ lock ∈ locks) :
    SlotsInv (slot'::slots) allocated locks' where
  distinct := by
    rw [map_cons,hsample]
    exact h.distinct
  fresh other hother := by
    rcases mem_cons.mp hother with rfl | hmem
    · rw [hsample]
      exact h.fresh slot (mem_cons_self ..)
    · exact h.fresh other (mem_cons_of_mem _ hmem)
  timed other hother := by
    rcases mem_cons.mp hother with rfl | hmem
    · exact htimed
    · exact h.timed other (mem_cons_of_mem _ hmem)
  counted other hother := by
    rcases mem_cons.mp hother with rfl | hmem
    · rw [hsample]
      exact hcount
    · rw [hothers _ (h.ne_of_mem hmem)]
      exact h.counted other (mem_cons_of_mem _ hmem)
  owned lock hlock := by
    rcases howned lock hlock with hsame | hold
    · exact ⟨slot',mem_cons_self ..,hsample.trans hsame.symm⟩
    · obtain ⟨other,hother,hlocked⟩ := h.owned lock hold
      rcases mem_cons.mp hother with rfl | hmem
      · exact ⟨slot',mem_cons_self ..,hsample.trans hlocked⟩
      · exact ⟨other,mem_cons_of_mem _ hmem,hlocked⟩

theorem locked (hlock : lock.poSample = slot.poSample) : SlotsInv (slot.lock::slots) allocated (lock::locks) := by
  refine h.replace rfl (h.timed slot (mem_cons_self ..)) ?_ ?_ ?_
  · rw [lockCount_cons,if_pos hlock,SampleSlot.lock,h.counted slot (mem_cons_self ..)]
    rfl
  · intro other hother
    rw [lockCount_cons,if_neg (fun hsame => hother (hsame.symm.trans hlock)),add_zero]
  · intro held hheld
    rcases mem_cons.mp hheld with rfl | hold
    · exact .inl hlock
    · exact .inr hold

theorem unlocked (hlock : lock.poSample = slot.poSample)
    (hlocks : locks.Perm (lock::locks')) : SlotsInv (slot.unlock::slots) allocated locks' := by
  have hcount := h.counted slot (mem_cons_self ..)
  rw [lockCount_perm hlocks,lockCount_cons,if_pos hlock] at hcount
  refine h.replace rfl (h.timed slot (mem_cons_self ..)) ?_ ?_ ?_
  · show slot.nLockCount - 1 = _
    omega
  · intro other hother
    rw [lockCount_perm hlocks,lockCount_cons,if_neg (fun hsame => hother (hsame.symm.trans hlock)),add_zero]
  · intro held hheld
    exact .inr (hlocks.mem_iff.mpr (mem_cons_of_mem _ hheld))

theorem filled (sample : DataSample) : SlotsInv (slot.fill sample::slots) allocated locks :=
  h.replace rfl rfl (h.counted slot (mem_cons_self ..)) (fun _ _ => rfl) fun _ hlock => .inr hlock

theorem tail (hunlocked : slot.nLockCount = 0) : SlotsInv slots allocated locks where
  distinct := (nodup_cons.mp h.distinct).2
  fresh other hother := h.fresh other (mem_cons_of_mem _ hother)
  timed other hother := h.timed other (mem_cons_of_mem _ hother)
  counted other hother := h.counted other (mem_cons_of_mem _ hother)
  owned lock hlock := by
    have hcount := h.counted slot (mem_cons_self ..)
    have hnone : lockCount locks slot.poSample = 0 := by omega
    obtain ⟨other,hother,hlocked⟩ := h.owned lock hlock
    rcases mem_cons.mp hother with rfl | hmem
    · exact absurd hlocked.symm (lockCount_eq_zero_iff.mp hnone lock hlock)
    · exact ⟨other,hmem,hlocked⟩

end

theorem insertSlot (h : SlotsInv slots allocated locks) (sample : DataSample) :
    SlotsInv (⟨sample.timeStamp,allocated,sample,0⟩::slots) (allocated + 1) locks where
  distinct := by
    refine nodup_cons.mpr ⟨?_,h.distinct⟩
    intro hmem
    obtain ⟨slot,hslot,hsample⟩ := mem_map.mp hmem
    exact Nat.ne_of_lt (h.fresh slot hslot) hsample
  fresh slot hslot := by
    rcases mem_cons.mp hslot with rfl | hmem
    · exact lt_succ_self _
    · exact lt_succ_of_lt (h.fresh slot hmem)
  timed slot hslot := by
    rcases mem_cons.mp hslot with rfl | hmem
    · rfl
    · exact h.timed slot hmem
  counted slot hslot := by
    rcases mem_cons.mp hslot with rfl | hmem
    · have hnone : lockCount locks allocated = 0 := by
        rw [lockCount_eq_zero_iff]
        intro lock hlock hsame
        obtain ⟨slot,hslot,hsample⟩ := h.owned lock hlock
        exact Nat.ne_of_lt (h.fresh slot hslot) (hsample.trans hsame)
      simp [hnone]
    · exact h.counted slot hmem
  owned lock hlock := by
    obtain ⟨slot,hslot,hsample⟩ := h.owned lock hlock
    exact ⟨slot,mem_cons_of_mem _ hslot,hsample⟩

end SlotsInv

namespace Protected

theorem perm (h : Protected slots locks) (hperm : slots.Perm slots') : Protected slots' locks := by
  intro lock hlock hvalid
  obtain ⟨slot,hslot,hkept⟩ := h lock hlock hvalid
  exact ⟨slot,hperm.mem_iff.mp hslot,hkept⟩

section
variable (h : Protected (slot::slots) locks)
include h

theorem replace (hlocks : ∀ lock ∈ locks', lock ∈ locks)
    (hkept : (slot'.poSample = slot.poSample ∧ slot'.tmSample = slot.tmSample ∧ slot'.sample = slot.sample) ∨
      ∀ lock ∈ locks, lock.poSample = slot.poSample → lock.sampleIsValid = false) :
    Protected (slot'::slots) locks' := by
  intro lock hlock hvalid
  obtain ⟨other,hother,hsample,htime,hcontent⟩ := h lock (hlocks lock hlock) hvalid
  rcases mem_cons.mp hother with rfl | hmem
  · rcases hkept with ⟨hsample',htime',hcontent'⟩ | hfree
    · exact ⟨slot',mem_cons_self ..,hsample'.trans hsample,htime'.trans htime,hcontent'.trans hcontent⟩
    · rw [hfree lock (hlocks lock hlock) hsample.symm] at hvalid
      cases hvalid
  · exact ⟨other,mem_cons_of_mem _ hmem,hsample,htime,hcontent⟩

theorem locked (sampleIsValid : Bool) :
    Protected (slot.lock::slots) (⟨slot.poSample,sampleIsValid,slot.tmSample,slot.sample⟩::locks) := by
  have hold : Protected (slot.lock::slots) locks := h.replace (fun _ hlock => hlock) (.inl ⟨rfl,rfl,rfl⟩)
  intro lock hlock hvalid
  rcases mem_cons.mp hlock with rfl | hmem
  · exact ⟨slot.lock,mem_cons_self ..,rfl,rfl,rfl⟩
  · exact hold lock hmem hvalid

theorem tail (hlocks : ∀ lock ∈ locks', lock ∈ locks)
    (hnone : lockCount locks' slot.poSample = 0) : Protected slots locks' := by
  intro lock hlock hvalid
  obtain ⟨other,hother,hkept⟩ := h lock (hlocks lock hlock) hvalid
  rcases mem_cons.mp hother with rfl | hmem
  · exact absurd hkept.1.symm (lockCount_eq_zero_iff.mp hnone lock hlock)
  · exact ⟨other,hmem,hkept⟩

end

theorem cons (h : Protected slots locks) (slot : SampleSlot) : Protected (slot::slots) locks := by
  intro lock hlock hvalid
  obtain ⟨other,hother,hkept⟩ := h lock hlock hvalid
  exact ⟨other,mem_cons_of_mem _ hother,hkept⟩

end Protected
end Slots

end FepParticipant.DataAccess
