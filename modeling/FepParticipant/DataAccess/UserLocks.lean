import FepParticipant.DataAccess.SampleProtection

/-! The locks that users take at the data access, on samples of a backlog or copies of a mapped signal's buffer, and
which of them can be given back. -/
namespace FepParticipant.DataAccess
open Library List Option Nat OrderedMultiset DataSampleBuffer LockedBacklog

/-- A sample that a user holds a pointer to: that of a slot, or one that was created for him. -/
inductive UserSample where
  | slot (poSample : Nat)
  | copy (number : Nat)

/-- A registered input signal with its backlog, and the samples that exist; `LockDataAt` has created those `created`
tells. -/
structure UserSignal where
  isMapped : Bool
  hasTriggers : Bool
  backlog : LockedBacklog
  copies : List Nat
  created : Nat

/-- The calls of users, with the result of `CopyBuffer`, and all else that happens to the backlog. -/
inductive UserCall where
  | lockData (copied : Result)
  | lockDataAt (tmSimulation : Int) (eSelectionFlags : Nat) (copied : Result)
  | unlockData (poSample : Option UserSample) (choice : Nat)
  | other (action : BacklogAction)

namespace UserSignal
variable (signal : UserSignal)
variable {eSelectionFlags : Nat}

def new (isMapped hasTriggers : Bool) : UserSignal := ⟨isMapped,hasTriggers,LockedBacklog.new,[],0⟩

/-- `LockDataAt` with its result and the sample it hands out. -/
def lockDataAt (tmSimulation : Int) (eSelectionFlags : Nat) (copied : Result) :
    Option (UserSignal × Result × Option UserSample) :=
  if !signal.hasTriggers && signal.isMapped then
    if copied = .errNoError then
      some ({signal with copies := signal.created::signal.copies, created := signal.created + 1},copied,
        some (.copy signal.created))
    else some (signal,copied,none)
  else (signal.backlog.buffer.lockDataAt tmSimulation eSelectionFlags).map fun locked =>
    ({signal with backlog := signal.backlog.handOut locked},locked.2.1,
      locked.2.2.map fun handedOut => .slot handedOut.1.poSample)

def lockData (copied : Result) : Option (UserSignal × Result × Option UserSample) :=
  signal.lockDataAt 0 ssLatestSample copied

/-- `UnlockData`, which has no result where the sample no longer exists. No slot points to a copy. -/
def unlockData (choice : Nat) : Option UserSample → Option (UserSignal × Result)
  | none => some (signal,.errInvalidArg)
  | some (.slot poSample) => (signal.backlog.buffer.slots.find? (·.poSample == poSample)).map fun slot =>
    ({signal with backlog := signal.backlog.unlock slot choice},
      (signal.backlog.buffer.unlockData slot.poSample slot.sample.timeStamp).2)
  | some (.copy number) => if number ∈ signal.copies then some (signal,.errInvalidArg) else none

def step : UserCall → Option UserSignal
  | .lockData copied => (signal.lockData copied).map Prod.fst
  | .lockDataAt tmSimulation eSelectionFlags copied =>
    (signal.lockDataAt tmSimulation eSelectionFlags copied).map Prod.fst
  | .unlockData poSample choice => (signal.unlockData choice poSample).map Prod.fst
  | .other action => (signal.backlog.step action).map fun backlog => {signal with backlog := backlog}

/-- The locks on a sample that have not been given back. -/
def outstanding : UserSample → Nat
  | .slot poSample => lockCount signal.backlog.locks poSample
  | .copy number => signal.copies.count number

def lockOnly (poSample : Nat) (slot : SampleSlot) : SampleSlot := if slot.poSample = poSample then slot.lock else slot

/-- The signal with one more lock on a sample. -/
def LockedOnce (after : UserSignal) : UserSample → Prop
  | .slot poSample =>
    after.copies = signal.copies ∧ after.backlog.buffer.deletedSlots = signal.backlog.buffer.deletedSlots ∧
      after.backlog.buffer.samples.elements = signal.backlog.buffer.samples.elements.map (lockOnly poSample)
  | .copy number => number ∉ signal.copies ∧ after.copies = number::signal.copies ∧ after.backlog = signal.backlog

/-- The signal with one lock on a sample less. A slot that is kept aside goes with its last lock. -/
def UnlockedOnce (after : UserSignal) : UserSample → Prop
  | .slot poSample =>
    after.copies = signal.copies ∧
      after.backlog.buffer.samples.elements =
        signal.backlog.buffer.samples.elements.map (LockedBacklog.unlockOnly poSample) ∧
      after.backlog.buffer.deletedSlots.elements =
        (signal.backlog.buffer.deletedSlots.elements.map (LockedBacklog.unlockOnly poSample)).filter (0 < ·.nLockCount)
  | .copy number => after.copies = signal.copies.erase number ∧ after.backlog = signal.backlog

/-- A successful lock adds one lock and nothing else. -/
def HandsOut (locked : Option (UserSignal × Result × Option UserSample)) : Prop :=
  ∀ after nResult poSample, locked = some (after,nResult,poSample) →
    match poSample with
    | some poSample => isOk nResult = true ∧ signal.LockedOnce after poSample ∧
      after.outstanding poSample = signal.outstanding poSample + 1
    | none => isFailed nResult = true ∧ after = signal

/-- A lock can be given back, which takes this lock away and nothing else. Without a lock nothing is given back. -/
def GivesBack : UserCall → Prop
  | .lockData copied => signal.HandsOut (signal.lockData copied)
  | .lockDataAt tmSimulation eSelectionFlags copied =>
    signal.HandsOut (signal.lockDataAt tmSimulation eSelectionFlags copied)
  | .unlockData poSample choice => ∃ after nResult, signal.unlockData choice poSample = some (after,nResult) ∧
    if (poSample.map signal.outstanding).getD 0 = 0 then isFailed nResult = true ∧ after = signal
    else isOk nResult = true ∧ ∀ locked ∈ poSample, signal.UnlockedOnce after locked ∧
      signal.outstanding locked = after.outstanding locked + 1
  | .other _ => True

/-- The sample is one of the backlog. -/
def Careful : UserCall → Prop
  | .unlockData (some (.slot poSample)) _ => ∃ slot ∈ signal.backlog.buffer.slots, slot.poSample = poSample
  | .unlockData (some (.copy _)) _ => False
  | .unlockData none _ | .lockData _ | .lockDataAt .. | .other _ => True

/-- The locks are counted, and the copies have been created. -/
def Inv : Prop := signal.backlog.Inv ∧ ∀ number ∈ signal.copies, number < signal.created

variable {signal}

private theorem lockDataAt_cases {buffer : DataSampleBuffer} {tmSimulation : Int}
    {locked : DataSampleBuffer × Result × Option (SampleSlot × Bool)}
    (h : buffer.lockDataAt tmSimulation eSelectionFlags = some locked) :
    (∃ matched, locked = buffer.lockMatched matched .errNoError) ∨ locked = (buffer,.errNotFound,none) := by
  rw [DataSampleBuffer.lockDataAt] at h
  split at h
  · obtain ⟨matched,-,rfl⟩ := Option.map_eq_some_iff.mp h
    exact .inl ⟨matched,rfl⟩
  · split at h
    · obtain ⟨matched,-,rfl⟩ := Option.map_eq_some_iff.mp h
      exact .inl ⟨matched,rfl⟩
    · cases h
      have hnone : buffer.samples.get? buffer.samples.size = none := getElem?_eq_none (le_refl _)
      exact .inr (by rw [DataSampleBuffer.lockMatched,hnone])

section
variable (h : signal.Inv)
include h

theorem handsOut_lockDataAt (tmSimulation : Int) (eSelectionFlags : Nat) (copied : Result) :
    signal.HandsOut (signal.lockDataAt tmSimulation eSelectionFlags copied) := by
  intro after nResult poSample hlocked
  rw [lockDataAt] at hlocked
  split at hlocked
  · split at hlocked
    · rename_i hcopied
      cases hlocked
      have hnew : signal.created ∉ signal.copies := fun hmem => lt_irrefl _ (h.2 _ hmem)
      refine ⟨(isOk_iff _).mpr hcopied,⟨hnew,rfl,rfl⟩,?_⟩
      simp [outstanding]
    · rename_i hcopied
      cases hlocked
      exact ⟨(isFailed_iff _).mpr hcopied,rfl⟩
  · obtain ⟨locked,hlock,heq⟩ := Option.map_eq_some_iff.mp hlocked
    cases heq
    rcases lockDataAt_cases hlock with ⟨matched,rfl⟩ | rfl
    · rcases lockMatched_cases signal.backlog.buffer matched .errNoError with
        ⟨slot,hget,hmatched⟩ | hmatched
      · have hdistinct := h.1.slots.distinct
        rw [DataSampleBuffer.slots,map_append,List.nodup_append] at hdistinct
        rw [hmatched]
        have hlocked := modify_eq_map hdistinct.1 (f := SampleSlot.lock) (fun _ => rfl) hget
        exact ⟨rfl,⟨rfl,rfl,hlocked⟩,by simp [outstanding,LockedBacklog.handOut]⟩
      · rw [hmatched]
        exact ⟨rfl,rfl⟩
    · exact ⟨rfl,rfl⟩

/-- The sample of a slot. What it counts are the locks, so it is refused exactly if there is none. -/
theorem givesBack_unlockData {slot : SampleSlot} (hslot : slot ∈ signal.backlog.buffer.slots)
    (choice : Nat) : signal.GivesBack (.unlockData (some (.slot slot.poSample)) choice) := by
  have hfind : signal.backlog.buffer.slots.find? (·.poSample == slot.poSample) = some slot := by
    have hsome := (find?_isSome (p := (·.poSample == slot.poSample))).mpr ⟨slot,hslot,beq_self_eq_true _⟩
    obtain ⟨found,hfound⟩ := isSome_iff_exists.mp hsome
    have hsame : found.poSample = slot.poSample := by simpa using find?_some hfound
    rw [hfound,eq_of_poSample_eq h.1.slots hslot (mem_of_find?_eq_some hfound) hsame]
  refine ⟨_,_,by rw [unlockData,hfind,map_some],?_⟩
  rw [map_some,getD_some,outstanding]
  have hcount := h.1.slots.counted slot hslot
  split
  · rename_i hnone
    rw [hnone] at hcount
    have hcase := unlockData_cases h.1.slots hslot
    have hdeleted (position : Nat) (hget : signal.backlog.buffer.deletedSlots.get? position = some slot) : False := by
      have hlocked := h.1.deleted slot (mem_of_get? hget)
      rw [hcount] at hlocked
      exact Int.lt_irrefl _ hlocked
    rw [LockedBacklog.unlock]
    generalize signal.backlog.buffer.unlockData slot.poSample slot.sample.timeStamp = unlocked at hcase
    cases hcase with
    | unlocked position hget hlocked =>
      rw [hcount] at hlocked
      exact absurd hlocked (Int.lt_irrefl _)
    | refused hunlocked => exact ⟨rfl,rfl⟩
    | released position hget hlast => exact (hdeleted position hget).elim
    | kept position hget hmore => exact (hdeleted position hget).elim
  · rename_i hlocked
    obtain ⟨lock,hlock,hsample⟩ := lockCount_pos_iff.mp (pos_of_ne_zero hlocked)
    obtain ⟨owner,howner,hsame,buffer,hunlock,hsamples,hdeleted⟩ := LockedBacklog.unlockable h.1 lock hlock
    obtain rfl := eq_of_poSample_eq h.1.slots hslot howner (hsame.trans hsample)
    obtain ⟨given,hgiven,hperm⟩ := release_perm (pos_of_ne_zero hlocked) choice
    rw [LockedBacklog.unlock,hunlock]
    refine ⟨rfl,fun locked hlocked' => ?_⟩
    cases hlocked'
    refine ⟨⟨rfl,hsample ▸ hsamples,hsample ▸ hdeleted⟩,?_⟩
    simp only [outstanding,isOk_iff,if_true]
    rw [lockCount_perm hperm,lockCount_cons,if_pos hgiven]

private theorem Inv.lockDataAt {tmSimulation : Int} {eSelectionFlags : Nat} {copied : Result} {after : UserSignal}
    (hstep : (signal.lockDataAt tmSimulation eSelectionFlags copied).map Prod.fst = some after) : after.Inv := by
  rw [UserSignal.lockDataAt] at hstep
  split at hstep
  · split at hstep
    · cases hstep
      refine ⟨h.1,forall_mem_cons.mpr ⟨lt_succ_self _,fun number hmem => ?_⟩⟩
      exact (h.2 number hmem).trans (lt_succ_self _)
    · cases hstep
      exact h
  · rw [Option.map_map] at hstep
    obtain ⟨locked,hlock,rfl⟩ := Option.map_eq_some_iff.mp hstep
    have hbacklog : signal.backlog.step (.lockDataAt tmSimulation eSelectionFlags) =
        some (signal.backlog.handOut locked) := by
      rw [LockedBacklog.step,hlock,map_some]
    exact ⟨(inv_step h.1 hbacklog).1,h.2⟩

theorem Inv.step {call : UserCall} {after : UserSignal} (hstep : signal.step call = some after) : after.Inv := by
  cases call with
  | lockData copied => exact h.lockDataAt hstep
  | lockDataAt tmSimulation eSelectionFlags copied => exact h.lockDataAt hstep
  | unlockData poSample choice =>
    rw [UserSignal.step] at hstep
    match poSample with
    | none =>
      cases hstep
      exact h
    | some (.slot poSample) =>
      rw [unlockData,Option.map_map] at hstep
      obtain ⟨slot,hslot,rfl⟩ := Option.map_eq_some_iff.mp hstep
      exact ⟨(inv_unlock h.1 (mem_of_find?_eq_some hslot) choice).1,h.2⟩
    | some (.copy number) =>
      rw [unlockData] at hstep
      split at hstep
      · cases hstep
        exact h
      · cases hstep
  | other action =>
    obtain ⟨backlog,hbacklog,rfl⟩ := Option.map_eq_some_iff.mp hstep
    exact ⟨(inv_step h.1 hbacklog).1,h.2⟩

theorem givesBack_iff (call : UserCall) : signal.GivesBack call ↔ signal.Careful call := by
  cases call with
  | lockData copied => exact iff_of_true (handsOut_lockDataAt h _ _ _) trivial
  | lockDataAt tmSimulation eSelectionFlags copied => exact iff_of_true (handsOut_lockDataAt h _ _ _) trivial
  | other action => exact iff_of_true trivial trivial
  | unlockData poSample choice =>
    match poSample with
    | none => exact iff_of_true ⟨signal,.errInvalidArg,rfl,rfl,rfl⟩ trivial
    | some (.slot poSample) =>
      constructor
      · rintro ⟨after,nResult,hunlock,-⟩
        obtain ⟨slot,hfind,-⟩ := Option.map_eq_some_iff.mp hunlock
        exact ⟨slot,mem_of_find?_eq_some hfind,by simpa using find?_some hfind⟩
      · rintro ⟨slot,hslot,rfl⟩
        exact givesBack_unlockData h hslot choice
    | some (.copy number) =>
      refine iff_of_false ?_ id
      rintro ⟨after,nResult,hunlock,hback⟩
      rw [unlockData] at hunlock
      split at hunlock
      · rename_i hmem
        cases hunlock
        have hcount : signal.outstanding (.copy number) ≠ 0 := ne_of_gt (count_pos_iff.mpr hmem)
        rw [map_some,getD_some,if_neg hcount] at hback
        cases hback.1
      · cases hunlock

end

/-- In every run each lock is given back by the one call that should exactly if no copy is given back. -/
theorem locks_given_back_iff (isMapped hasTriggers : Bool) (calls : List UserCall) :
    Throughout step GivesBack (new isMapped hasTriggers) calls ↔
      Throughout step Careful (new isMapped hasTriggers) calls :=
  throughout_iff (fun _ call (h : Inv _) => givesBack_iff h call) (fun _ _ _ h _ hstep => h.step hstep)
    (show (new isMapped hasTriggers).Inv from ⟨locksInv_new,fun _ hmem => nomatch hmem⟩) calls

/-- `LockData` on a mapped signal without triggers hands out a copy, which `UnlockData` refuses. -/
theorem copy_not_given_back : ¬∀ (isMapped hasTriggers : Bool) (calls : List UserCall),
    Throughout step GivesBack (new isMapped hasTriggers) calls := by
  intro h
  obtain ⟨-,hrun⟩ := h true false
    [.other (.signalRegistered 0 1 [0] [7]),.lockData .errNoError,.unlockData (some (.copy 0)) 0]
  obtain ⟨after,nResult,hunlock,hback⟩ := ((hrun _ rfl).2 _ rfl).1
  cases hunlock
  exact absurd hback.1 (by decide)

end UserSignal
end FepParticipant.DataAccess
