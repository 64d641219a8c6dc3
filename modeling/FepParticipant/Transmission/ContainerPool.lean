import FepParticipant.Transmission.ReceiveTurn

/-! The containers of a receiver are all accounted for, up to those lost with packets that were
refused for their size. -/
namespace FepParticipant.Transmission
open Library QueueManager

namespace ReceiveThread

/-- No packet that is too large for the receiver is about to be copied. -/
def fits (receiver : Nat) (config : ReceiverConfig) : ReceiveThread → Bool
  | .enqueueReceivedData own packet (.filling _) =>
    own ≠ receiver || config.raw || packet.length ≤ config.size + FepDataHeader.size
  | _ => true

section
variable {manager manager' : QueueManager} {thread thread' : ReceiveThread} {index : Nat} {copies : Bool}

theorem modify_refused {own : Nat} {change : Receiver → Receiver}
    (h : ∀ r, (change r).refused = r.refused) (receiver : Nat) :
    ((manager.modify own change).receivers receiver).refused = (manager.receivers receiver).refused := by
  by_cases hown : receiver = own
  · subst hown
    rw [modify_self,h]
  · rw [modify_of_ne hown]

private theorem fill_eq_refused_iff {r : Receiver} {packet : List UInt8} {container : DataContainer} :
    r.fill packet copies container = .refused ↔
      ¬r.config.raw = true ∧ r.config.size + FepDataHeader.size < packet.length := by
  unfold Receiver.fill
  constructor
  · intro h
    split at h
    · assumption
    · dsimp only at h
      repeat' split at h
      all_goals cases h
  · intro h
    rw [if_pos h]

theorem next_filling_refused {own : Nat} {packet : List UInt8} {container : DataContainer}
    (h : next manager index copies (.enqueueReceivedData own packet (.filling container)) = some (manager',thread'))
    (receiver : Nat) : (manager'.receivers receiver).refused.length = (manager.receivers receiver).refused.length +
      if fits receiver (manager.receivers receiver).config (.enqueueReceivedData own packet (.filling container)) = true
        then 0 else 1 := by
  have hrefused : (manager.receivers own).fill packet copies container = .refused ↔ _ := fill_eq_refused_iff
  rw [next] at h
  by_cases hown : own = receiver
  · subst hown
    split at h
    all_goals cases h
    all_goals
      rename_i hfill
      simp only [hfill,reduceCtorEq,false_iff,true_iff] at hrefused
    · rw [if_pos]
      · rfl
      · simp [fits]
        grind
    · rw [if_pos]
      · rfl
      · simp [fits]
        grind
    · rw [if_neg]
      · simp
      · simp [fits]
        grind
  · rw [if_pos (by simp [fits,hown])]
    split at h
    all_goals cases h
    · rfl
    · rfl
    · rw [modify_of_ne (Ne.symm hown)]
      rfl

theorem next_refused (h : next manager index copies thread = some (manager',thread')) (receiver : Nat) :
    (manager'.receivers receiver).refused.length = (manager.receivers receiver).refused.length +
      if thread.fits receiver (manager.receivers receiver).config = true then 0 else 1 := by
  cases thread with
  | doWork position =>
    apply congrArg List.length
    cases position <;> simp only [next] at h
    all_goals try split at h
    all_goals cases h
    all_goals first | rfl | (apply modify_refused; intro r; rfl)
  | flushQueue own position =>
    apply congrArg List.length
    cases position <;> simp only [next] at h
    all_goals try split at h
    all_goals cases h
    all_goals first | rfl | (apply modify_refused; intro r; rfl)
  | enqueueReceivedData own packet position =>
    by_cases hfilling : ∃ container, position = .filling container
    · obtain ⟨container,rfl⟩ := hfilling
      exact next_filling_refused h receiver
    · rw [if_pos (by cases position <;> first | rfl | exact absurd ⟨_,rfl⟩ hfilling)]
      apply congrArg List.length
      cases position <;> simp only [next] at h
      case filling container => exact absurd ⟨_,rfl⟩ hfilling
      all_goals try split at h
      all_goals cases h
      all_goals first | rfl | rw [enqueueJob_receivers] | (apply modify_refused; intro r; rfl)

end

end ReceiveThread

namespace Reception
variable {s s' : Reception} {receiver count : Nat} {configs : Nat → ReceiverConfig} {workers : Nat}
variable {action : ReceptionAction}

def containers (receiver : Nat) (s : Reception) : Nat :=
  (s.shared.receivers receiver).preAllocQueue.length + (s.shared.receivers receiver).receiveQueue.length +
    Threads.total (ReceiveThread.held receiver) s.threads

/-- The preallocated containers are those that are there and those lost. -/
structure ContainersInv (receiver count : Nat) (s : Reception) : Prop where
  active : s.shared.jobQueueActive = true
  accounted : s.containers receiver + (s.shared.receivers receiver).refused.length = count

theorem containersInv_create :
    ContainersInv receiver (configs receiver).preallocatedSamplesCount (create configs workers) where
  active := rfl
  accounted := by
    have hheld : Threads.total (ReceiveThread.held receiver) (List.replicate workers (.doWork .waiting)) = 0 := by
      simp [Threads.total,ReceiveThread.held]
    simp [containers,hheld,create,QueueManager.create,Receiver.create]

theorem accounted_turn {manager : QueueManager} {thread thread' : ReceiveThread} {index : Nat}
    (h : ContainersInv receiver count s) (hthread : s.threads[index]? = some thread)
    (hturn : Turn receiver index s.shared thread manager thread') :
    containers receiver ⟨manager,s.threads.set index thread'⟩ +
    (manager.receivers receiver).refused.length = count := by
  have htotal := Threads.total_set thread' (ReceiveThread.held receiver) hthread
  have haccounted := h.accounted
  unfold containers at haccounted ⊢
  cases hturn with
  | moves hqueue _ _ _ hcount =>
    rw [hqueue]
    dsimp only
    omega
  | dropsJob hstarting hmanager hwaiting =>
    subst hstarting hmanager hwaiting
    have hheld : ReceiveThread.held receiver (.doWork (.starting receiver)) = 0 := rfl
    have hheld' : ReceiveThread.held receiver (.doWork .waiting) = 0 := rfl
    dsimp only
    omega
  | locks _ hmanager _ _ hheld hheld' =>
    subst hmanager
    simp only [modify_self,ReceiveThread.setMtxJob]
    omega
  | unlocks hmanager _ _ hheld hheld' =>
    subst hmanager
    simp only [modify_self,ReceiveThread.setMtxJob]
    omega
  | dequeues number container queue given hqueue _ hmanager _ _ hheld hheld' =>
    subst hmanager
    simp only [hqueue,List.length_cons,modify_self] at haccounted ⊢
    omega
  | enqueues container hmanager _ _ hheld hheld' =>
    subst hmanager
    simp only [modify_self,List.length_append,List.length_singleton]
    omega

private theorem held_of_starts {thread : ReceiveThread} (h : thread.starts = true) : thread.held receiver = 0 := by
  cases thread with
  | doWork position => cases h
  | enqueueReceivedData own packet position => cases position <;> first | rfl | cases h
  | flushQueue own position => cases position <;> first | rfl | cases h

theorem containersInv_step (h : ContainersInv receiver count s)
    (hstep : s.step action = some s') : ContainersInv receiver count s' := by
  rcases Threads.act_cases hstep with
    ⟨index,copies,thread,manager,thread',-,hthread,hnext,rfl⟩ | ⟨thread,-,hstarts,rfl⟩
  · exact ⟨(ReceiveThread.next_jobQueueActive hnext).trans h.active,
      accounted_turn h hthread (ReceiveThread.turn hnext h.active receiver)⟩
  · refine ⟨h.active,?_⟩
    have hheld : Threads.total (ReceiveThread.held receiver) [thread] = 0 := by
      simp [Threads.total,held_of_starts hstarts]
    have haccounted := h.accounted
    unfold containers at haccounted ⊢
    rw [Threads.total_append,hheld]
    exact haccounted

theorem containers_of_refused (h : ContainersInv receiver count s) :
    s.containers receiver = count ↔ (s.shared.receivers receiver).refused.length = 0 := by
  have haccounted := h.accounted
  omega

/-- No step is made on a packet that is too large for the receiver. -/
def PacketFits (receiver : Nat) (s : Reception) : ReceptionAction → Prop
  | .step index _ => ∀ thread ∈ s.threads[index]?, thread.fits receiver (s.shared.receivers receiver).config = true
  | .start _ => True

instance (receiver : Nat) (s : Reception) (action : ReceptionAction) : Decidable (s.PacketFits receiver action) :=
  match action with
  | .step _ _ => inferInstanceAs (Decidable (∀ thread ∈ _, _))
  | .start _ => inferInstanceAs (Decidable True)

theorem refused_step (hstep : s.step action = some s') : (s'.shared.receivers receiver).refused.length =
      (s.shared.receivers receiver).refused.length + if s.PacketFits receiver action then 0 else 1 := by
  rcases Threads.act_cases hstep with
    ⟨index,copies,thread,manager,thread',rfl,hthread,hnext,rfl⟩ | ⟨thread,rfl,-,rfl⟩
  · have hfits : s.PacketFits receiver (.step index copies) ↔
        thread.fits receiver (s.shared.receivers receiver).config = true := by
      simp [PacketFits,hthread]
    simp only [hfits]
    exact ReceiveThread.next_refused hnext receiver
  · simp [PacketFits]

/-- The invariant of the runs in which all packets fit. -/
structure ConservedInv (receiver count : Nat) (s : Reception) : Prop where
  accounted : ContainersInv receiver count s
  none_refused : (s.shared.receivers receiver).refused.length = 0

private theorem conservedInv_step {action : ReceptionAction} (h : ConservedInv receiver count s)
    (hfits : s.PacketFits receiver action) (hstep : s.step action = some s') : ConservedInv receiver count s' := by
  refine ⟨containersInv_step h.accounted hstep,?_⟩
  rw [refused_step hstep,if_pos hfits,h.none_refused]

/-- As long as no packet is too large there are as many containers as preallocated, and the first too large one
loses one. -/
theorem containers_conserved_iff (configs : Nat → ReceiverConfig) (workers : Nat) (receiver : Nat) (s : Reception)
    (h : Reaches step (PacketFits receiver) (create configs workers) s) :
    s.containers receiver = (configs receiver).preallocatedSamplesCount ∧
      ∀ (action : ReceptionAction) (s' : Reception), s.step action = some s' →
        (s'.containers receiver = (configs receiver).preallocatedSamplesCount ↔ s.PacketFits receiver action) := by
  have hinv : ConservedInv receiver (configs receiver).preallocatedSamplesCount s :=
    h.invariant ⟨containersInv_create,rfl⟩ fun _ _ _ ht hfits hstep => conservedInv_step ht hfits hstep
  refine ⟨(containers_of_refused hinv.accounted).mpr hinv.none_refused,fun action s' hstep => ?_⟩
  rw [containers_of_refused (containersInv_step hinv.accounted hstep),refused_step hstep,hinv.none_refused]
  split <;> simp [*]

private def ddlSignal (_ : Nat) : ReceiverConfig := ⟨false,true,4⟩

theorem containers_conserved_accepted : ∃ s : Reception, Reaches step (PacketFits 0) (create ddlSignal 1) s ∧
      (s.shared.receivers 0).receiveQueue.length = 1 ∧ s.containers 0 = 20 := by
  obtain ⟨s,hreach,hqueued⟩ : ∃ s, Reaches step (PacketFits 0) (create ddlSignal 1) s ∧
      (s.shared.receivers 0).receiveQueue.length = 1 :=
    exists_of_runAllowed [.start (.enqueueReceivedData 0 [1,2] .allocating),.step 1 true,.step 1 true,
      .step 1 true] (by decide +kernel)
  exact ⟨s,hreach,hqueued,(containers_conserved_iff ddlSignal 1 0 s hreach).1⟩

/-- A packet with one byte too many takes its container with it. -/
theorem container_lost_with_large_packet : ∃ s : Reception, Reaches step anyAction (create ddlSignal 1) s ∧
    s.containers 0 ≠ (ddlSignal 0).preallocatedSamplesCount := by
  exact exists_of_runActions [.start (.enqueueReceivedData 0 (List.replicate 29 0) .allocating),.step 1 true,.step 1
      true] (by decide +kernel)

end Reception

end FepParticipant.Transmission
