import FepParticipant.DataAccess.SampleProtection
import FepParticipant.DataAccess.TimeWindowWait
import FepParticipant.Signals.SignalComponents

/-! Changes of the backlog size of an input signal, among the receptions, the locks and the waits on it. -/
namespace FepParticipant.DataAccess
open Library Transmission Signals List Nat Option OrderedMultiset DataSampleBuffer

/-- A registered signal: its direction and backlog size in the signal registry, the size in the property tree, and
its backlog with the windows its readers wait for. -/
structure BackloggedSignal where
  handle : Nat
  eDirection : SignalDirection
  szSampleBacklog : Nat
  sampleBacklogLength : Int32
  backlog : LockedBacklog
  waiting : List TimeWindow

/-- The calls on a signal. A reader that waits is named by its place, it is woken up or its wait times out. -/
inductive BacklogCall where
  | setSignalSampleBacklog (szSampleBacklog : Nat) (memory : List UInt8)
  | update (sample : DataSample)
  | lockDataAt (tmSimulation : Int) (selectionFlags : Nat)
  | lockDataAtUpperBound (tmSimulationUpperBound : Int)
  | unlockData (poSample choice : Nat)
  | getMostRecent
  | waitUntilInTimeWindow (window : TimeWindow) (expired : Bool)
  | goOnWaiting (reader : Nat) (notified shutdown expired : Bool)

namespace BackloggedSignal

/-- An input signal right after its registration, with the default content as its only sample. -/
def registered (handle : Nat) (memory content : List UInt8) : BackloggedSignal where
  handle := handle
  eDirection := .sdInput
  szSampleBacklog := 1
  sampleBacklogLength := 1
  backlog := ⟨DataSampleBuffer.new.signalRegistered handle 1 memory content,[]⟩
  waiting := []

def buffer (signal : BackloggedSignal) : DataSampleBuffer := signal.backlog.buffer

def withBuffer (signal : BackloggedSignal) (buffer : DataSampleBuffer) : BackloggedSignal :=
  {signal with backlog := {signal.backlog with buffer := buffer}}

/-- `SetSignalSampleBacklog` of the signal registry. `memory` is what a new sample finds in its memory. -/
def setSignalSampleBacklog (signal : BackloggedSignal) (szSampleBacklog : Nat) (memory : List UInt8) :
    BackloggedSignal × Result :=
  if signal.eDirection ≠ .sdInput then (signal,.errInvalidType)
  else
    ({ signal with
        szSampleBacklog := szSampleBacklog
        sampleBacklogLength := Int32.ofNat szSampleBacklog }.withBuffer
      (signal.buffer.signalBacklogChanged signal.handle szSampleBacklog memory),.errNoError)

/-- A call has no successor where it leaves the backlog or its sample or reader does not exist. -/
def step (signal : BackloggedSignal) : BacklogCall → Option BackloggedSignal
  | .setSignalSampleBacklog szSampleBacklog memory => some (signal.setSignalSampleBacklog szSampleBacklog memory).1
  | .update sample => (signal.backlog.step (.update sample)).map ({signal with backlog := ·})
  | .lockDataAt tmSimulation selectionFlags =>
    (signal.backlog.step (.lockDataAt tmSimulation selectionFlags)).map ({signal with backlog := ·})
  | .lockDataAtUpperBound tmSimulationUpperBound =>
    (signal.backlog.step (.lockDataAtUpperBound tmSimulationUpperBound)).map ({signal with backlog := ·})
  | .unlockData poSample choice =>
    (signal.backlog.step (.unlockData poSample choice)).map ({signal with backlog := ·})
  | .getMostRecent => signal.buffer.mostRecent.map fun _ => signal
  | .waitUntilInTimeWindow window expired =>
    if window.olderThan < window.moreRecentThan then some signal
    else
      (window.decideFirst signal.buffer).map fun decision =>
        if decision.isSome ∨ expired then signal else {signal with waiting := signal.waiting ++ [window]}
  | .goOnWaiting reader notified shutdown expired =>
    signal.waiting[reader]?.bind fun window =>
      (window.decideAwake ⟨notified,signal.buffer,shutdown,expired⟩).map fun decision =>
        if decision.isSome then {signal with waiting := signal.waiting.eraseIdx reader} else signal

/-- The call is about to use an element of the backlog, and there is none. -/
def AccessesEmptyBacklog (signal : BackloggedSignal) (call : BacklogCall) : Prop :=
  signal.buffer.samples.size = 0 ∧
    match call with
    | .lockDataAt tmSimulation selectionFlags => signal.buffer.lockDataAt tmSimulation selectionFlags = none
    | .getMostRecent => signal.buffer.mostRecent = none
    | .waitUntilInTimeWindow window _ =>
      window.moreRecentThan ≤ window.olderThan ∧ window.decideFirst signal.buffer = none
    | .goOnWaiting reader notified shutdown expired => ∃ window ∈ signal.waiting[reader]?,
      window.decideAwake ⟨notified,signal.buffer,shutdown,expired⟩ = none
    -- these look for an element and stop at the end of the backlog
    | .setSignalSampleBacklog .. | .update _ | .lockDataAtUpperBound _ | .unlockData .. => False

/-- Every sample that is locked is still owned by a slot, in the backlog or aside. -/
def StorageValid (signal : BackloggedSignal) : Prop :=
  ∀ lock ∈ signal.backlog.locks, ∃ slot ∈ signal.buffer.slots, slot.poSample = lock.poSample

end BackloggedSignal

/-- The backlog has the requested number of slots and at least one. Shortened, it lost the slots with the smallest
times; lengthened, it has all slots of before and unused ones. -/
structure Resized (before after : DataSampleBuffer) (szSampleBacklog : Nat) : Prop where
  size : after.samples.size = szSampleBacklog
  nonempty : 1 ≤ after.samples.size
  shrunk : szSampleBacklog ≤ before.samples.size → ∃ gone, before.samples.elements = gone ++ after.samples.elements ∧
    ∀ slot ∈ gone, ∀ kept ∈ after.samples.elements, slot.tmSample ≤ kept.tmSample
  grown : before.samples.size ≤ szSampleBacklog → ∃ unused, (∀ slot ∈ unused, slot.isUnused = true) ∧
    after.samples.elements.Perm (unused ++ before.samples.elements)

namespace BackloggedSignal

def Right (signal : BackloggedSignal) (call : BacklogCall) : Prop :=
  ¬signal.AccessesEmptyBacklog call ∧ (∀ after, signal.step call = some after → after.StorageValid) ∧
    match call with
    | .setSignalSampleBacklog szSampleBacklog memory =>
      Resized signal.buffer (signal.setSignalSampleBacklog szSampleBacklog memory).1.buffer szSampleBacklog
    | _ => True

def AsksForSlots : BacklogCall → Prop
  | .setSignalSampleBacklog szSampleBacklog _ => szSampleBacklog ≠ 0
  | _ => True

end BackloggedSignal

namespace DataSampleBuffer

variable {buffer : DataSampleBuffer}

private theorem removeSlot_elements : buffer.removeSlot.samples.elements = buffer.samples.elements.tail := by
  unfold removeSlot
  split
  · exact eraseIdx_zero
  · rename_i hnone
    have hnil : buffer.samples.elements = [] := length_eq_zero_iff.mp
      (eq_zero_of_le_zero (List.getElem?_eq_none_iff.mp hnone))
    rw [hnil,tail_nil]

private theorem removeSlots_elements (buffer : DataSampleBuffer) (count : Nat) :
    (removeSlot^[count] buffer).samples.elements = buffer.samples.elements.drop count := by
  induction count with
  | zero => rfl
  | succ count ih => rw [Function.iterate_succ_apply',removeSlot_elements,ih,tail_drop]

private theorem insertSlots_perm (sample : DataSample) (buffer : DataSampleBuffer) (count : Nat) :
    ∃ added : List SampleSlot, added.length = count ∧ (∀ slot ∈ added, slot.tmSample = sample.timeStamp) ∧
      ((insertSlot sample)^[count] buffer).samples.elements.Perm (added ++ buffer.samples.elements) := by
  induction count with
  | zero => exact ⟨[],rfl,nofun,.refl _⟩
  | succ count ih =>
    obtain ⟨added,hlength,htime,hperm⟩ := ih
    rw [Function.iterate_succ_apply']
    refine ⟨⟨sample.timeStamp,((insertSlot sample)^[count] buffer).allocated,sample,0⟩::added,?_,?_,?_⟩
    · rw [length_cons,hlength]
    · intro slot hslot
      rcases mem_cons.mp hslot with rfl | hslot
      · rfl
      · exact htime slot hslot
    · exact (perm_insert ..).trans (hperm.cons _)

theorem resized_signalBacklogChanged (buffer : DataSampleBuffer) (hSignal : Nat) {szSampleBacklog : Nat}
    (hsize : szSampleBacklog ≠ 0) (memory : List UInt8) :
    Resized buffer (buffer.signalBacklogChanged hSignal szSampleBacklog memory) szSampleBacklog := by
  have hcut := removeSlots_elements buffer (buffer.samples.size - szSampleBacklog)
  obtain ⟨added,hlength,htime,hperm⟩ := insertSlots_perm ((DataSample.create hSignal memory).setTime (-1))
    (removeSlot^[buffer.samples.size - szSampleBacklog] buffer)
    (szSampleBacklog - (removeSlot^[buffer.samples.size - szSampleBacklog] buffer).samples.size)
  change (buffer.signalBacklogChanged hSignal szSampleBacklog memory).samples.elements.Perm _ at hperm
  rw [hcut] at hperm
  have hkept : (removeSlot^[buffer.samples.size - szSampleBacklog] buffer).samples.size =
      buffer.samples.size - (buffer.samples.size - szSampleBacklog) := by
    rw [OrderedMultiset.size,hcut,length_drop]
    rfl
  have htotal : (buffer.signalBacklogChanged hSignal szSampleBacklog memory).samples.size = szSampleBacklog := by
    have hlengths := hperm.length_eq
    rw [length_append,length_drop,hlength] at hlengths
    unfold OrderedMultiset.size at *
    omega
  refine ⟨htotal,by omega,?_,?_⟩
  · intro hshrink
    have hnone : szSampleBacklog - (removeSlot^[buffer.samples.size - szSampleBacklog] buffer).samples.size = 0 := by
      omega
    have hafter : (buffer.signalBacklogChanged hSignal szSampleBacklog memory).samples.elements =
        buffer.samples.elements.drop (buffer.samples.size - szSampleBacklog) := by
      rw [signalBacklogChanged,hnone,Function.iterate_zero_apply,hcut]
    have hsplit := take_append_drop (buffer.samples.size - szSampleBacklog) buffer.samples.elements
    rw [hafter]
    refine ⟨_,hsplit.symm,?_⟩
    have hsorted := pairwise_map.mp buffer.samples.sorted
    rw [← hsplit,pairwise_append] at hsorted
    exact hsorted.2.2
  · intro hgrow
    refine ⟨added,?_,?_⟩
    · intro slot hslot
      rw [SampleSlot.isUnused,htime slot hslot]
      rfl
    · rwa [Nat.sub_eq_zero_of_le hgrow,drop_zero] at hperm

theorem size_lockMatched (buffer : DataSampleBuffer) (matched : Nat) (result : Result) :
    (buffer.lockMatched matched result).1.samples.size = buffer.samples.size := by
  rcases lockMatched_cases buffer matched result with ⟨slot,-,hlocked⟩ | hlocked
  · rw [hlocked]
    exact size_modify (f := SampleSlot.lock) _ matched fun _ => rfl
  · rw [hlocked]

private theorem size_unlockData (buffer : DataSampleBuffer) (poSample : Nat) (time : Int) :
    (buffer.unlockData poSample time).1.samples.size = buffer.samples.size := by
  unfold unlockData
  split
  · split
    · exact size_modify (f := SampleSlot.unlock) _ _ fun _ => rfl
    · rfl
  · split
    · rfl
    · rfl

private theorem size_update (buffer : DataSampleBuffer) (sample : DataSample) :
    (buffer.update sample).1.samples.size = buffer.samples.size := by
  rcases update_cases with ⟨position,slot,-,hget,hupdate⟩ | hupdate
  · rw [hupdate,size_insert]
    exact (size_erase hget).symm
  · rw [hupdate]

end DataSampleBuffer

namespace BackloggedSignal

variable {signal after : BackloggedSignal} {call : BacklogCall} {action : BacklogAction} {backlog : LockedBacklog}

theorem size_step (hstep : signal.backlog.step action = some backlog)
    (hnochange : ∀ hSignal size memory, action ≠ .signalBacklogChanged hSignal size memory)
    (hnoregister : ∀ hSignal size memory content, action ≠ .signalRegistered hSignal size memory content) :
    backlog.buffer.samples.size = signal.buffer.samples.size := by
  cases action with
  | update sample =>
    cases hstep
    exact size_update ..
  | lockDataAt tmSimulation selectionFlags =>
    obtain ⟨locked,hlocked,rfl⟩ := map_eq_some_iff.mp hstep
    obtain ⟨matched,result,rfl⟩ := lockDataAt_eq_lockMatched hlocked
    exact size_lockMatched ..
  | lockDataAtUpperBound tmSimulationUpperBound =>
    cases hstep
    exact size_lockMatched ..
  | unlockData poSample choice =>
    obtain ⟨slot,_,rfl⟩ := map_eq_some_iff.mp hstep
    exact size_unlockData ..
  | signalBacklogChanged hSignal size memory => exact absurd rfl (hnochange hSignal size memory)
  | signalRegistered hSignal size memory content => exact absurd rfl (hnoregister hSignal size memory content)

/-- An input signal with at least one slot, all of whose locks are known. -/
structure Inv (signal : BackloggedSignal) : Prop where
  input : signal.eDirection = .sdInput
  locks : signal.backlog.Inv
  nonempty : signal.buffer.samples.size ≠ 0

theorem Inv.storageValid (h : signal.Inv) : signal.StorageValid := h.locks.slots.owned

theorem inv_registered (handle : Nat) (memory content : List UInt8) : (registered handle memory content).Inv where
  input := rfl
  locks := (keeps_signalRegistered handle 1 memory content _ locksInv_new).1
  nonempty := one_ne_zero

theorem setSignalSampleBacklog_input (hinput : signal.eDirection = .sdInput) (szSampleBacklog : Nat)
    (memory : List UInt8) : (signal.setSignalSampleBacklog szSampleBacklog memory).1 = { signal with
        szSampleBacklog := szSampleBacklog
        sampleBacklogLength := Int32.ofNat szSampleBacklog }.withBuffer
      (signal.buffer.signalBacklogChanged signal.handle szSampleBacklog memory) := by
  simp [setSignalSampleBacklog,hinput]

theorem inv_step (h : signal.Inv) (hslots : AsksForSlots call) (hstep : signal.step call = some after) : after.Inv := by
  have hbacklog (action : BacklogAction)
      (hnochange : ∀ hSignal size memory, action ≠ .signalBacklogChanged hSignal size memory)
      (hnoregister : ∀ hSignal size memory content, action ≠ .signalRegistered hSignal size memory content)
      (hstep : (signal.backlog.step action).map ({signal with backlog := ·}) = some after) : after.Inv := by
    obtain ⟨backlog,hbacklog,rfl⟩ := map_eq_some_iff.mp hstep
    refine ⟨h.input,(LockedBacklog.inv_step h.locks hbacklog).1,?_⟩
    rw [buffer,size_step hbacklog hnochange hnoregister]
    exact h.nonempty
  cases call with
  | setSignalSampleBacklog szSampleBacklog memory =>
    cases hstep
    rw [setSignalSampleBacklog_input h.input]
    have hchanged : signal.backlog.step (.signalBacklogChanged signal.handle szSampleBacklog memory) = some _ := rfl
    refine ⟨h.input,(LockedBacklog.inv_step h.locks hchanged).1,?_⟩
    have hresized := resized_signalBacklogChanged signal.buffer signal.handle hslots memory
    exact ne_of_gt hresized.nonempty
  | update sample => exact hbacklog (.update sample) (by simp) (by simp) hstep
  | lockDataAt tmSimulation selectionFlags =>
    exact hbacklog (.lockDataAt tmSimulation selectionFlags) (by simp) (by simp) hstep
  | lockDataAtUpperBound tmSimulationUpperBound =>
    exact hbacklog (.lockDataAtUpperBound tmSimulationUpperBound) (by simp) (by simp) hstep
  | unlockData poSample choice => exact hbacklog (.unlockData poSample choice) (by simp) (by simp) hstep
  | getMostRecent =>
    obtain ⟨_,_,rfl⟩ := map_eq_some_iff.mp hstep
    exact h
  | waitUntilInTimeWindow window expired =>
    simp only [step] at hstep
    split at hstep
    · cases hstep
      exact h
    · obtain ⟨decision,_,rfl⟩ := map_eq_some_iff.mp hstep
      split
      · exact h
      · exact ⟨h.input,h.locks,h.nonempty⟩
  | goOnWaiting reader notified shutdown expired =>
    obtain ⟨window,_,hlooked⟩ := bind_eq_some_iff.mp hstep
    obtain ⟨decision,_,rfl⟩ := map_eq_some_iff.mp hlooked
    split
    · exact ⟨h.input,h.locks,h.nonempty⟩
    · exact h

private theorem right_iff (h : signal.Inv) : signal.Right call ↔ AsksForSlots call := by
  constructor
  · intro hright
    cases call with
    | setSignalSampleBacklog szSampleBacklog memory =>
      have hresized := hright.2.2
      rw [AsksForSlots,← hresized.size]
      exact ne_of_gt hresized.nonempty
    | update | lockDataAt | lockDataAtUpperBound | unlockData | getMostRecent | waitUntilInTimeWindow
      | goOnWaiting => trivial
  · intro hslots
    refine ⟨fun haccess => h.nonempty haccess.1,fun after hstep => (inv_step h hslots hstep).storageValid,?_⟩
    cases call with
    | setSignalSampleBacklog szSampleBacklog memory =>
      dsimp only
      rw [setSignalSampleBacklog_input h.input]
      exact resized_signalBacklogChanged signal.buffer signal.handle hslots memory
    | update | lockDataAt | lockDataAtUpperBound | unlockData | getMostRecent | waitUntilInTimeWindow
      | goOnWaiting => trivial

/-- Every call of a run is right exactly if no backlog without slots is asked for in it. -/
theorem backlog_resizing (handle : Nat) (memory content : List UInt8) (calls : List BacklogCall) :
    Throughout step Right (registered handle memory content) calls ↔
      Throughout step (fun _ call => AsksForSlots call) (registered handle memory content) calls :=
  throughout_iff (fun _ _ (h : Inv _) => right_iff h) (fun _ _ _ h hslots hstep => inv_step h hslots hstep)
    (inv_registered handle memory content) calls

/-- A reader asks for the most recent time after the backlog was set to no slots, as the timing configuration
or a call may. -/
theorem no_slots_left : ¬∀ (handle : Nat) (memory content : List UInt8) (calls : List BacklogCall),
      Throughout step Right (registered handle memory content) calls := by
  intro hall
  obtain ⟨-,hrest⟩ := hall 0 [0] [7] [.setSignalSampleBacklog 0 [0],.getMostRecent]
  obtain ⟨⟨haccess,-⟩,-⟩ := hrest _ rfl
  exact haccess ⟨rfl,rfl⟩

end BackloggedSignal
end FepParticipant.DataAccess
