import Mathlib.Data.List.Nodup
import FepParticipant.DataAccess.DataSampleBuffer

/-! A sample that is handed out as valid stays as it is until it is unlocked, unless an unused
slot was handed out; lock counts and unlocking are right in any case. -/
namespace FepParticipant.DataAccess
open Library Transmission List OrderedMultiset DataSampleBuffer

namespace DataSampleBuffer

variable {buffer : DataSampleBuffer} {slot : SampleSlot} {position matched : Nat} {result : Result}
variable {sample : DataSample}

def others (buffer : DataSampleBuffer) (position : Nat) : List SampleSlot :=
  (buffer.samples.erase position).elements ++ buffer.deletedSlots.elements

theorem perm_others (h : buffer.samples.get? position = some slot) :
    buffer.slots.Perm (slot::buffer.others position) :=
  (perm_erase h).append_right _

/-- What `UnlockData` does to the slot that owns the sample. -/
inductive UnlockCase (buffer : DataSampleBuffer) (slot : SampleSlot) : DataSampleBuffer × Result → Prop
  | unlocked (position : Nat) (found : buffer.samples.get? position = some slot) (locked : 0 < slot.nLockCount) :
    UnlockCase buffer slot ({ buffer with
      samples := buffer.samples.modify position SampleSlot.unlock fun _ => rfl },.errNoError)
  | refused (unlocked : ¬0 < slot.nLockCount) : UnlockCase buffer slot (buffer,.errFailed)
  | released (position : Nat) (found : buffer.deletedSlots.get? position = some slot)
    (last : slot.unlock.nLockCount = 0) : UnlockCase buffer slot ({ buffer with
      deletedSlots := buffer.deletedSlots.erase position },.errNoError)
  | kept (position : Nat) (found : buffer.deletedSlots.get? position = some slot)
    (more : slot.unlock.nLockCount ≠ 0) : UnlockCase buffer slot ({ buffer with
      deletedSlots := buffer.deletedSlots.modify position SampleSlot.unlock fun _ => rfl },.errNoError)

variable {allocated : Nat} {locks : List SampleLock}

theorem eq_of_poSample_eq (h : SlotsInv buffer.slots allocated locks) {other : SampleSlot}
    (hslot : slot ∈ buffer.slots) (hother : other ∈ buffer.slots) (hsame : other.poSample = slot.poSample) :
    other = slot :=
  inj_on_of_nodup_map h.distinct hother hslot hsame

theorem unlockData_cases (h : SlotsInv buffer.slots allocated locks) (hslot : slot ∈ buffer.slots) :
    UnlockCase buffer slot (buffer.unlockData slot.poSample slot.sample.timeStamp) := by
  rw [h.timed slot hslot]
  unfold unlockData
  split
  · rename_i position found hfound
    obtain ⟨hget,hwanted⟩ := findFirst_eq_some hfound
    have hsame : found.poSample = slot.poSample := by simp at hwanted; exact hwanted.2
    obtain rfl := eq_of_poSample_eq h hslot (mem_append_left _ (mem_of_get? hget)) hsame
    split
    · rename_i hlocked
      exact .unlocked position hget hlocked
    · rename_i hunlocked
      exact .refused hunlocked
  · rename_i hnone
    have hdeleted : slot ∈ buffer.deletedSlots.elements := by
      apply (mem_append.mp hslot).resolve_left
      intro hmem
      simpa using findFirst_eq_none.mp hnone slot hmem
    split
    · rename_i position found hfound
      obtain ⟨hget,hwanted⟩ := findFirst_eq_some hfound
      have hsame : found.poSample = slot.poSample := by simp at hwanted; exact hwanted.2
      obtain rfl := eq_of_poSample_eq h hslot (mem_append_right _ (mem_of_get? hget)) hsame
      split
      · rename_i hlast
        exact .released position hget hlast
      · rename_i hmore
        exact .kept position hget hmore
    · rename_i hnone'
      simpa using findFirst_eq_none.mp hnone' slot hdeleted

/-- What holds of every backlog whose locks are known. -/
structure LocksInv (buffer : DataSampleBuffer) (locks : List SampleLock) : Prop where
  slots : SlotsInv buffer.slots buffer.allocated locks
  deleted : ∀ slot ∈ buffer.deletedSlots.elements, 0 < slot.nLockCount

theorem locksInv_new : LocksInv new [] where
  slots := ⟨nodup_nil,by simp [slots,new,OrderedMultiset.empty],
    by simp [slots,new,OrderedMultiset.empty],by simp [slots,new,OrderedMultiset.empty],by simp⟩
  deleted := by simp [new,OrderedMultiset.empty]

theorem perm_slots_modify {f : SampleSlot → SampleSlot} (hf : ∀ slot, (f slot).tmSample = slot.tmSample)
    (h : buffer.samples.get? position = some slot) :
    ({buffer with samples := buffer.samples.modify position f hf} : DataSampleBuffer).slots.Perm
      (f slot::buffer.others position) :=
  (perm_modify hf h).append_right _

theorem lockMatched_cases (buffer : DataSampleBuffer) (matched : Nat) (result : Result) :
    (∃ slot, buffer.samples.get? matched = some slot ∧ buffer.lockMatched matched result =
      ({buffer with samples := buffer.samples.modify matched SampleSlot.lock fun _ => rfl},result,
        some (slot,decide (0 ≤ buffer.latestSampleTimestamp)))) ∨
    buffer.lockMatched matched result = (buffer,.errNotFound,none) := by
  unfold lockMatched
  split
  · rename_i slot hslot
    exact .inl ⟨slot,hslot,rfl⟩
  · exact .inr rfl

theorem update_cases :
    (∃ position slot, buffer.reusableSlot = some (position,slot) ∧ buffer.samples.get? position = some slot ∧
      buffer.update sample = ({ buffer with
        samples := (buffer.samples.erase position).insert (slot.fill sample)
        latestSampleTimestamp := sample.timeStamp },.errNoError)) ∨
    buffer.update sample = (buffer,.errResourceInUse) := by
  unfold update
  split
  · rename_i position slot hfound
    exact .inl ⟨position,slot,hfound,(findFirst_eq_some hfound).1,rfl⟩
  · exact .inr rfl

theorem locksInv_update (h : LocksInv buffer locks) : LocksInv (buffer.update sample).1 locks := by
  rcases update_cases with ⟨position,slot,-,hget,hupdate⟩ | hupdate
  · rw [hupdate]
    have hfilled := (h.slots.perm (perm_others hget)).filled sample
    exact ⟨hfilled.perm ((perm_insert ..).append_right _).symm,h.deleted⟩
  · rwa [hupdate]

theorem protected_update (h : Protected buffer.slots locks)
    (hfree : ∀ found ∈ buffer.reusableSlot, ∀ lock ∈ locks, lock.poSample = found.2.poSample →
      lock.sampleIsValid = false) : Protected (buffer.update sample).1.slots locks := by
  rcases update_cases with ⟨position,slot,hfound,hget,hupdate⟩ | hupdate
  · rw [hupdate]
    have hfilled : Protected (slot.fill sample::buffer.others position) locks :=
      (h.perm (perm_others hget)).replace (fun _ hlock => hlock) (.inr (hfree (position,slot) hfound))
    exact hfilled.perm ((perm_insert _ (slot.fill sample)).append_right _).symm
  · rwa [hupdate]

theorem removeSlot_cases (h : LocksInv buffer locks) :
    (∃ slot, buffer.slots.Perm (slot::buffer.removeSlot.slots) ∧ slot.nLockCount = 0 ∧
      buffer.removeSlot.deletedSlots = buffer.deletedSlots) ∨ (buffer.slots.Perm buffer.removeSlot.slots ∧
      ∀ slot ∈ buffer.removeSlot.deletedSlots.elements, 0 < slot.nLockCount) := by
  unfold removeSlot
  split
  · rename_i slot hget
    by_cases hlocked : 0 < slot.nLockCount
    · simp only [if_pos hlocked]
      have hinsert := perm_insert buffer.deletedSlots slot
      refine .inr ⟨?_,?_⟩
      · refine (perm_others hget).trans ?_
        exact perm_middle.symm.trans (hinsert.symm.append_left _)
      · intro other hother
        rcases mem_cons.mp (hinsert.mem_iff.mp hother) with rfl | hold
        · exact hlocked
        · exact h.deleted other hold
    · simp only [if_neg hlocked]
      have hcount := h.slots.counted slot (mem_append_left _ (mem_of_get? hget))
      exact .inl ⟨slot,perm_others hget,by omega,trivial⟩
  · exact .inr ⟨.rfl,h.deleted⟩

private theorem removeSlot_allocated : buffer.removeSlot.allocated = buffer.allocated := by
  unfold removeSlot
  split
  · rfl
  · rfl

section
variable (h : LocksInv buffer locks)
include h

theorem locksInv_removeSlot : LocksInv buffer.removeSlot locks := by
  rcases removeSlot_cases h with ⟨slot,hperm,hunlocked,hdeleted⟩ | ⟨hperm,hdeleted⟩
  · refine ⟨?_,hdeleted ▸ h.deleted⟩
    rw [removeSlot_allocated]
    exact (h.slots.perm hperm).tail hunlocked
  · refine ⟨?_,hdeleted⟩
    rw [removeSlot_allocated]
    exact h.slots.perm hperm

theorem protected_removeSlot (hprotected : Protected buffer.slots locks) : Protected buffer.removeSlot.slots locks := by
  rcases removeSlot_cases h with ⟨slot,hperm,hunlocked,-⟩ | ⟨hperm,-⟩
  · have hcount := h.slots.counted slot (hperm.mem_iff.mpr (mem_cons_self ..))
    exact (hprotected.perm hperm).tail (fun _ hlock => hlock) (by omega)
  · exact hprotected.perm hperm

private theorem locksInv_insertSlot : LocksInv (insertSlot sample buffer) locks :=
  ⟨(h.slots.insertSlot sample).perm ((perm_insert ..).append_right _).symm,h.deleted⟩

end

theorem protected_insertSlot (h : Protected buffer.slots locks) : Protected (insertSlot sample buffer).slots locks :=
  (h.cons _).perm ((perm_insert ..).append_right _).symm

/-- What the calls that resize a backlog keep: the invariant, and with it the protection. -/
def Keeps (locks : List SampleLock) (f : DataSampleBuffer → DataSampleBuffer) : Prop :=
  ∀ buffer, LocksInv buffer locks → LocksInv (f buffer) locks ∧
    (Protected buffer.slots locks → Protected (f buffer).slots locks)

theorem Keeps.iterate {f : DataSampleBuffer → DataSampleBuffer} (h : Keeps locks f) (count : Nat) :
    Keeps locks f^[count] := by
  induction count with
  | zero => exact fun buffer hinv => ⟨hinv,id⟩
  | succ count ih =>
    intro buffer hinv
    obtain ⟨hinv',hprotected⟩ := h buffer hinv
    exact ⟨(ih _ hinv').1,fun hkept => (ih _ hinv').2 (hprotected hkept)⟩

private theorem keeps_removeSlot : Keeps locks removeSlot := fun _ hinv =>
  ⟨locksInv_removeSlot hinv,protected_removeSlot hinv⟩

theorem keeps_insertSlot : Keeps locks (insertSlot sample) := fun _ hinv =>
  ⟨locksInv_insertSlot hinv,fun hkept => protected_insertSlot hkept⟩

theorem keeps_signalBacklogChanged (hSignal szSampleBacklog : Nat) (memory : List UInt8) :
    Keeps locks fun buffer => buffer.signalBacklogChanged hSignal szSampleBacklog memory := by
  intro buffer hinv
  obtain ⟨hcut,hcut'⟩ := keeps_removeSlot.iterate (buffer.samples.size - szSampleBacklog) buffer hinv
  obtain ⟨hgrown,hgrown'⟩ := (keeps_insertSlot).iterate
    (szSampleBacklog - (removeSlot^[buffer.samples.size - szSampleBacklog] buffer).samples.size) _ hcut
  exact ⟨hgrown,fun hkept => hgrown' (hcut' hkept)⟩

theorem keeps_signalRegistered (hSignal szBacklog : Nat) (memory content : List UInt8) :
    Keeps locks fun buffer => buffer.signalRegistered hSignal szBacklog memory content := by
  intro buffer hinv
  obtain ⟨hfilled,hfilled'⟩ := (keeps_insertSlot).iterate ((szBacklog + 2 ^ 64 - 1) % 2 ^ 64) buffer hinv
  obtain ⟨hlast,hlast'⟩ := keeps_insertSlot _ hfilled
  exact ⟨hlast,fun hkept => hlast' (hfilled' hkept)⟩

end DataSampleBuffer
namespace LockedBacklog

open DataSampleBuffer (LocksInv UnlockCase)

variable {backlog backlog' : LockedBacklog} {action : BacklogAction} {slot : SampleSlot}

def Inv (backlog : LockedBacklog) : Prop := LocksInv backlog.buffer backlog.locks

/-- Every sample handed out as valid is neither overwritten nor given another time nor destroyed. -/
def HandedOutKept (backlog : LockedBacklog) : Prop := Protected backlog.buffer.slots backlog.locks

theorem handOut_lockMatched (h : backlog.Inv) (matched : Nat) (result : Result) :
    (backlog.handOut (backlog.buffer.lockMatched matched result)).Inv ∧
      (backlog.HandedOutKept → (backlog.handOut (backlog.buffer.lockMatched matched result)).HandedOutKept) := by
  rcases lockMatched_cases backlog.buffer matched result with ⟨slot,hget,hlocked⟩ | hlocked
  · rw [hlocked]
    have hperm := perm_others hget
    have hmodified := perm_slots_modify (f := SampleSlot.lock) (fun _ => rfl) hget
    refine ⟨⟨((h.slots.perm hperm).locked rfl).perm hmodified.symm,h.deleted⟩,?_⟩
    intro hkept
    exact (Protected.locked (Protected.perm hkept hperm) _).perm hmodified.symm
  · rw [hlocked]
    exact ⟨h,id⟩

private theorem release_of_locked {buffer : DataSampleBuffer} {locks : List SampleLock} (h : LocksInv buffer locks)
    (hslot : slot ∈ buffer.slots) (hlocked : 0 < slot.nLockCount) (choice : Nat) :
    ∃ lock, lock.poSample = slot.poSample ∧ locks.Perm (lock::release locks slot.poSample choice) := by
  have hcount := h.slots.counted slot hslot
  exact release_perm (by omega) choice

private theorem mem_of_released {lock held : SampleLock} {locks locks' : List SampleLock}
    (h : locks.Perm (lock::locks')) (hheld : held ∈ locks') : held ∈ locks :=
  h.mem_iff.mpr (mem_cons_of_mem _ hheld)

theorem inv_unlock (h : backlog.Inv) (hslot : slot ∈ backlog.buffer.slots) (choice : Nat) :
    (backlog.unlock slot choice).Inv ∧ (backlog.HandedOutKept → (backlog.unlock slot choice).HandedOutKept) := by
  have hcase := unlockData_cases h.slots hslot
  have hunlock : backlog.unlock slot choice = ⟨(backlog.buffer.unlockData slot.poSample slot.sample.timeStamp).1,
        if isOk (backlog.buffer.unlockData slot.poSample slot.sample.timeStamp).2 then
          release backlog.locks slot.poSample choice else backlog.locks⟩ := rfl
  rw [hunlock]
  generalize backlog.buffer.unlockData slot.poSample slot.sample.timeStamp = unlocked at hcase
  cases hcase with
  | unlocked position hget hlocked =>
    obtain ⟨lock,hlock,hlocks⟩ := release_of_locked h hslot hlocked choice
    have hperm := perm_others hget
    have hmodified := perm_slots_modify (f := SampleSlot.unlock) (fun _ => rfl) hget
    refine ⟨⟨((h.slots.perm hperm).unlocked hlock hlocks).perm hmodified.symm,h.deleted⟩,?_⟩
    intro hkept
    have hreplaced : Protected (slot.unlock::backlog.buffer.others position)
        (release backlog.locks slot.poSample choice) :=
      (Protected.perm hkept hperm).replace (fun _ => mem_of_released hlocks) (.inl ⟨rfl,rfl,rfl⟩)
    exact hreplaced.perm hmodified.symm
  | refused => exact ⟨h,id⟩
  | released position hget hlast =>
    have hdeleted := h.deleted slot (mem_of_get? hget)
    obtain ⟨lock,hlock,hlocks⟩ := release_of_locked h hslot hdeleted choice
    have herase := perm_erase hget
    have hperm := (herase.append_left backlog.buffer.samples.elements).trans perm_middle
    have hunlocked := (h.slots.perm hperm).unlocked hlock hlocks
    refine ⟨⟨hunlocked.tail hlast,?_⟩,?_⟩
    · intro other hother
      exact h.deleted other (herase.mem_iff.mpr (mem_cons_of_mem _ hother))
    · intro hkept
      have hcount := hunlocked.counted _ (mem_cons_self ..)
      have hnone : lockCount (release backlog.locks slot.poSample choice) slot.unlock.poSample = 0 := by omega
      exact (Protected.perm hkept hperm).tail (fun _ => mem_of_released hlocks) hnone
  | kept position hget hmore =>
    have hdeleted := h.deleted slot (mem_of_get? hget)
    obtain ⟨lock,hlock,hlocks⟩ := release_of_locked h hslot hdeleted choice
    have herase := perm_erase hget
    have hperm := (herase.append_left backlog.buffer.samples.elements).trans perm_middle
    have hmodify := perm_modify (f := SampleSlot.unlock) (fun _ => rfl) hget
    have hmodified := (hmodify.append_left backlog.buffer.samples.elements).trans perm_middle
    refine ⟨⟨((h.slots.perm hperm).unlocked hlock hlocks).perm hmodified.symm,?_⟩,?_⟩
    · intro other hother
      rcases mem_cons.mp (hmodify.mem_iff.mp hother) with rfl | hold
      · rw [SampleSlot.unlock] at hmore ⊢
        dsimp only at hmore ⊢
        omega
      · exact h.deleted other (herase.mem_iff.mpr (mem_cons_of_mem _ hold))
    · intro hkept
      have hreplaced : Protected (slot.unlock::(backlog.buffer.samples.elements ++
          (backlog.buffer.deletedSlots.erase position).elements)) (release backlog.locks slot.poSample choice) :=
        (Protected.perm hkept hperm).replace (fun _ => mem_of_released hlocks) (.inl ⟨rfl,rfl,rfl⟩)
      exact hreplaced.perm hmodified.symm

/-- A sample with a time comes in, and the slot it goes to is not one whose sample is out as valid. -/
def SparesHandedOut (backlog : LockedBacklog) : BacklogAction → Prop
  | .update sample => 0 ≤ sample.timeStamp ∧ ∀ found ∈ backlog.buffer.reusableSlot,
      ∀ lock ∈ backlog.locks, lock.poSample = found.2.poSample → lock.sampleIsValid = false
  | _ => True

theorem inv_step (h : backlog.Inv) (hstep : backlog.step action = some backlog') :
    backlog'.Inv ∧ (backlog.SparesHandedOut action → backlog.HandedOutKept → backlog'.HandedOutKept) := by
  cases action with
  | update sample =>
    cases hstep
    exact ⟨locksInv_update h,fun hspares hkept => protected_update hkept hspares.2⟩
  | lockDataAt tmSimulation selectionFlags =>
    obtain ⟨locked,hlocked,rfl⟩ := Option.map_eq_some_iff.mp hstep
    obtain ⟨matched,result,rfl⟩ := lockDataAt_eq_lockMatched hlocked
    exact ⟨(handOut_lockMatched h matched result).1,fun _ => (handOut_lockMatched h matched result).2⟩
  | lockDataAtUpperBound tmSimulationUpperBound =>
    cases hstep
    exact ⟨(handOut_lockMatched h _ _).1,fun _ => (handOut_lockMatched h _ _).2⟩
  | unlockData poSample choice =>
    obtain ⟨slot,hslot,rfl⟩ := Option.map_eq_some_iff.mp hstep
    have hunlock := inv_unlock h (mem_of_find?_eq_some hslot) choice
    exact ⟨hunlock.1,fun _ => hunlock.2⟩
  | signalBacklogChanged hSignal szSampleBacklog memory =>
    cases hstep
    have hkeeps := keeps_signalBacklogChanged hSignal szSampleBacklog memory _ h
    exact ⟨hkeeps.1,fun _ => hkeeps.2⟩
  | signalRegistered hSignal szBacklog memory content =>
    obtain rfl := Option.some.inj hstep
    have hkeeps := keeps_signalRegistered hSignal szBacklog memory content _ h
    exact ⟨hkeeps.1,fun _ => hkeeps.2⟩

/-- The slots after one lock on a sample was given back. -/
def unlockOnly (poSample : Nat) (slot : SampleSlot) : SampleSlot :=
  if slot.poSample = poSample then slot.unlock else slot

/-- Each lock that is out can be given back, which changes the lock count of its slot and no other;
a slot that is kept aside goes with its last lock. -/
def Unlockable (backlog : LockedBacklog) : Prop :=
  ∀ lock ∈ backlog.locks, ∃ slot ∈ backlog.buffer.slots, slot.poSample = lock.poSample ∧
    ∃ buffer : DataSampleBuffer,
      backlog.buffer.unlockData slot.poSample slot.sample.timeStamp = (buffer,.errNoError) ∧
      buffer.samples.elements = backlog.buffer.samples.elements.map (unlockOnly lock.poSample) ∧
      buffer.deletedSlots.elements =
        (backlog.buffer.deletedSlots.elements.map (unlockOnly lock.poSample)).filter (0 < ·.nLockCount)

private theorem map_unlockOnly_of_notMem {slots : List SampleSlot} {poSample : Nat}
    (h : ∀ slot ∈ slots, slot.poSample ≠ poSample) : slots.map (unlockOnly poSample) = slots := by
  have hid : ∀ slot ∈ slots, unlockOnly poSample slot = id slot := by
    intro slot hslot
    rw [unlockOnly,if_neg (h slot hslot),id]
  rw [map_congr_left hid,map_id]

private theorem filter_locked {slots : List SampleSlot} (h : ∀ slot ∈ slots, 0 < slot.nLockCount) :
    slots.filter (0 < ·.nLockCount) = slots := by
  rw [filter_eq_self]
  intro slot hslot
  exact decide_eq_true (h slot hslot)

theorem unlockable (h : backlog.Inv) : backlog.Unlockable := by
  intro lock hlock
  obtain ⟨slot,hslot,hsample⟩ := h.slots.owned lock hlock
  have hcount := h.slots.counted slot hslot
  have hlocked : 0 < lockCount backlog.locks slot.poSample := lockCount_pos_iff.mpr ⟨lock,hlock,hsample.symm⟩
  have hdistinct := h.slots.distinct
  rw [DataSampleBuffer.slots,map_append,List.nodup_append] at hdistinct
  obtain ⟨hsamples,hdeleted,hapart⟩ := hdistinct
  refine ⟨slot,hslot,hsample,?_⟩
  rw [← hsample]
  have hcase := unlockData_cases h.slots hslot
  generalize backlog.buffer.unlockData slot.poSample slot.sample.timeStamp = unlocked at hcase
  cases hcase with
  | unlocked position hget _ =>
    have hmem := mem_map_of_mem (f := SampleSlot.poSample) (mem_of_get? hget)
    refine ⟨_,rfl,modify_eq_map hsamples (f := SampleSlot.unlock) (fun _ => rfl) hget,?_⟩
    rw [map_unlockOnly_of_notMem,filter_locked h.deleted]
    intro other hother hsame
    exact hapart _ hmem _ (mem_map_of_mem hother) hsame.symm
  | refused hunlocked => omega
  | released position hget hlast =>
    have hmem := mem_map_of_mem (f := SampleSlot.poSample) (mem_of_get? hget)
    refine ⟨_,rfl,?_,?_⟩
    · rw [map_unlockOnly_of_notMem]
      intro other hother hsame
      exact hapart _ (mem_map_of_mem hother) _ hmem hsame
    · -- the others are locked, the slot itself is not any more
      have hfilter : ∀ other ∈ backlog.buffer.deletedSlots.elements,
          decide (0 < (unlockOnly slot.poSample other).nLockCount) = decide (other.poSample ≠ slot.poSample) := by
        intro other hother
        by_cases hsame : other.poSample = slot.poSample
        · obtain rfl := eq_of_poSample_eq h.slots hslot (mem_append_right _ hother) hsame
          simp [unlockOnly,hlast]
        · simp [unlockOnly,hsame,h.deleted other hother]
      rw [filter_map,Function.comp_def,filter_congr hfilter,map_unlockOnly_of_notMem]
      · exact erase_eq_filter hdeleted hget
      · intro other hother
        simpa using (mem_filter.mp hother).2
  | kept position hget hmore =>
    have hmem := mem_map_of_mem (f := SampleSlot.poSample) (mem_of_get? hget)
    refine ⟨_,rfl,?_,?_⟩
    · rw [map_unlockOnly_of_notMem]
      intro other hother hsame
      exact hapart _ (mem_map_of_mem hother) _ hmem hsame
    · have hstays : ∀ other ∈ backlog.buffer.deletedSlots.elements.map (unlockOnly slot.poSample),
          0 < other.nLockCount := by
        intro other hother
        obtain ⟨old,hold,rfl⟩ := mem_map.mp hother
        have hpos := h.deleted old hold
        by_cases hsame : old.poSample = slot.poSample
        · obtain rfl := eq_of_poSample_eq h.slots hslot (mem_append_right _ hold) hsame
          rw [unlockOnly,if_pos rfl]
          simp only [SampleSlot.unlock] at hmore ⊢
          omega
        · rwa [unlockOnly,if_neg hsame]
      rw [filter_locked hstays]
      exact modify_eq_map hdeleted (f := SampleSlot.unlock) (fun _ => rfl) hget

instance (backlog : LockedBacklog) (action : BacklogAction) : Decidable (backlog.SparesHandedOut action) :=
  match action with
  | .update sample => inferInstanceAs (Decidable (0 ≤ sample.timeStamp ∧
      ∀ found ∈ backlog.buffer.reusableSlot, ∀ lock ∈ backlog.locks, _ → _))
  | .lockDataAt .. | .lockDataAtUpperBound _ | .unlockData .. | .signalBacklogChanged .. | .signalRegistered .. =>
    inferInstanceAs (Decidable True)

instance (slots : List SampleSlot) (locks : List SampleLock) : Decidable (Protected slots locks) :=
  inferInstanceAs (Decidable (∀ lock ∈ locks, _ → ∃ slot ∈ slots, _))

instance (backlog : LockedBacklog) : Decidable backlog.HandedOutKept := inferInstanceAs (Decidable (Protected _ _))

private def received (time : Int) (content : UInt8) : DataSample := ⟨false,0,0,time,0,[content]⟩

end LockedBacklog
end FepParticipant.DataAccess
