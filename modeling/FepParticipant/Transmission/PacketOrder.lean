import FepParticipant.Transmission.ReceiveTurn

/-! Packets are processed in the order of their arrival by one worker at a time, and none stays in a receiver's queue
as long as no job is dropped while the receiver is being left. -/
namespace FepParticipant.Transmission
open Library List Threads QueueManager

namespace Reception
variable {s s' : Reception} {receiver : Nat} {configs : Nat → ReceiverConfig} {workers : Nat}

/-- The packets given to `Process`, in the order of their arrival and each once. -/
def InOrder (receiver : Nat) (s : Reception) : Prop := (s.shared.receivers receiver).processed.Pairwise (· < ·)

/-- `Process` is not executed twice at the same time. -/
def OneAtATime (receiver : Nat) (s : Reception) : Prop :=
  ∀ (index other : Nat) (container container' : DataContainer),
  s.threads[index]? = some (.doWork (.processing receiver container)) →
    s.threads[other]? = some (.doWork (.processing receiver container')) → index = other

/-- No job of the receiver is queued or being executed, and no call on it is in progress. -/
def Quiet (receiver : Nat) (s : Reception) : Prop :=
  receiver ∉ s.shared.jobQueue ∧ ∀ thread ∈ s.threads, thread.worksOn receiver = false

/-- Packets are processed in order, one at a time, and none is stranded. -/
structure Delivers (receiver : Nat) (s : Reception) : Prop where
  inOrder : s.InOrder receiver
  oneAtATime : s.OneAtATime receiver
  notStranded : s.Quiet receiver → (s.shared.receivers receiver).receiveQueue = []

/-- A worker does not try a lock whose owner has found the queue empty, when it is no longer empty. -/
def DropsNoJob (s : Reception) : ReceptionAction → Prop
  | .step index _ => ∀ thread ∈ s.threads[index]?, ∀ receiver ∈ thread.tries,
      ∀ owner ∈ (s.shared.receivers receiver).mtxJob, ∀ other ∈ s.threads[owner]?,
        other.leaves receiver = true → (s.shared.receivers receiver).receiveQueue = []
  | .start _ => True

/-- The lock has the owner that holds it, and numbers increase from the processed packets to the queue. -/
structure QueueInv (receiver : Nat) (s : Reception) : Prop where
  active : s.shared.jobQueueActive = true
  owner : ∀ index, (s.shared.receivers receiver).mtxJob = some index ↔
    ∃ thread, s.threads[index]? = some thread ∧ thread.holds receiver = true
  increasing : ((s.shared.receivers receiver).processed ++
    (s.shared.receivers receiver).receiveQueue.map Prod.fst).Pairwise (· < ·)
  accepted : ∀ number ∈ (s.shared.receivers receiver).processed ++
    (s.shared.receivers receiver).receiveQueue.map Prod.fst, number < (s.shared.receivers receiver).accepted

def Attended (receiver : Nat) (s : Reception) : Prop :=
  (s.shared.receivers receiver).receiveQueue ≠ [] →
    receiver ∈ s.shared.jobQueue ∨ ∃ thread ∈ s.threads, thread.attends receiver = true

theorem queueInv_create : QueueInv receiver (create configs workers) where
  active := rfl
  owner index := by
    constructor
    · nofun
    · rintro ⟨thread,hthread,hholds⟩
      obtain ⟨-,rfl⟩ := mem_replicate.mp (mem_of_getElem? hthread)
      cases hholds
  increasing := List.Pairwise.nil
  accepted := nofun

section
variable {manager : QueueManager} {thread thread' : ReceiveThread} {index : Nat} {copies : Bool}

theorem owner_turn (h : QueueInv receiver s) (hthread : s.threads[index]? = some thread)
    (hturn : Turn receiver index s.shared thread manager thread') (position : Nat) :
    (manager.receivers receiver).mtxJob = some position ↔
      ∃ other, (s.threads.set index thread')[position]? = some other ∧ other.holds receiver = true := by
  have hindex : thread.holds receiver = true ↔ (s.shared.receivers receiver).mtxJob = some index := by
    rw [h.owner index,hthread]
    simp
  have hsame (hholds : thread'.holds receiver = thread.holds receiver)
      (hlock : (manager.receivers receiver).mtxJob = (s.shared.receivers receiver).mtxJob) :
      (manager.receivers receiver).mtxJob = some position ↔
        ∃ other, (s.threads.set index thread')[position]? = some other ∧ other.holds receiver = true := by
    rw [hlock,exists_set_iff hthread,hholds]
    split
    · rename_i hposition
      rw [hposition,hindex]
    · exact h.owner position
  cases hturn with
  | moves _ hlock _ _ _ hholds => exact hsame hholds hlock
  | dropsJob hstarting hmanager hwaiting =>
    subst hstarting hmanager hwaiting
    exact hsame rfl rfl
  | locks hfree hmanager _ hholds =>
    subst hmanager
    rw [modify_self,exists_set_iff hthread]
    split
    · rename_i hposition
      simp [ReceiveThread.setMtxJob,hposition,hholds]
    · rename_i hposition
      rw [← h.owner position,hfree]
      simp [ReceiveThread.setMtxJob,Ne.symm hposition]
  | unlocks hmanager hholds hfree =>
    subst hmanager
    rw [modify_self,exists_set_iff hthread]
    split
    · simp [ReceiveThread.setMtxJob,hfree]
    · rename_i hposition
      rw [← h.owner position,hindex.mp hholds]
      simp [ReceiveThread.setMtxJob,Ne.symm hposition]
  | dequeues number container queue given hqueue hgiven hmanager hbefore hafter =>
    subst hmanager
    refine hsame (hafter.trans hbefore.symm) ?_
    rw [modify_self]
  | enqueues container hmanager hbefore hafter =>
    subst hmanager
    refine hsame (hafter.trans hbefore.symm) ?_
    rw [modify_self]

theorem numbers_turn (h : QueueInv receiver s) (hturn : Turn receiver index s.shared thread manager thread') :
    ((manager.receivers receiver).processed ++
      (manager.receivers receiver).receiveQueue.map Prod.fst).Pairwise (· < ·) ∧
    ∀ number ∈ (manager.receivers receiver).processed ++ (manager.receivers receiver).receiveQueue.map Prod.fst,
      number < (manager.receivers receiver).accepted := by
  cases hturn with
  | moves hqueue _ hprocessed haccepted =>
    rw [hqueue,hprocessed,haccepted]
    exact ⟨h.increasing,h.accepted⟩
  | dropsJob _ hmanager =>
    subst hmanager
    exact ⟨h.increasing,h.accepted⟩
  | locks _ hmanager =>
    subst hmanager
    rw [modify_self]
    exact ⟨h.increasing,h.accepted⟩
  | unlocks hmanager =>
    subst hmanager
    rw [modify_self]
    exact ⟨h.increasing,h.accepted⟩
  | dequeues number container queue given hqueue hgiven hmanager =>
    subst hmanager
    rw [modify_self]
    have hincreasing := h.increasing
    have haccepted := h.accepted
    rw [hqueue,map_cons] at hincreasing haccepted
    have hsublist : ((s.shared.receivers receiver).processed ++ given ++ queue.map Prod.fst).Sublist
        ((s.shared.receivers receiver).processed ++ number::queue.map Prod.fst) := by
      rcases hgiven with rfl | rfl
      · simp
      · simp
    exact ⟨hincreasing.sublist hsublist,fun other hother => haccepted other (hsublist.subset hother)⟩
  | enqueues container hmanager =>
    subst hmanager
    rw [modify_self]
    simp only [map_append,map_cons,map_nil,← append_assoc]
    constructor
    · refine pairwise_append.mpr ⟨h.increasing,pairwise_singleton ..,?_⟩
      intro number hnumber other hother
      rw [mem_singleton.mp hother]
      exact h.accepted number hnumber
    · intro number hnumber
      rcases mem_append.mp hnumber with hnumber | hnumber
      · exact Nat.lt_succ_of_lt (h.accepted number hnumber)
      · rw [mem_singleton.mp hnumber]
        exact Nat.lt_succ_self _

private theorem attends_set (hthread : s.threads[index]? = some thread)
    (h : ∃ other ∈ s.threads, other.attends receiver = true)
    (hturn : thread.attends receiver = true → receiver ∈ manager.jobQueue ∨ thread'.attends receiver = true) :
    receiver ∈ manager.jobQueue ∨ ∃ other ∈ s.threads.set index thread', other.attends receiver = true := by
  obtain ⟨other,hmem,hattends⟩ := h
  rcases mem_set_of_mem hthread hmem with hmem | rfl
  · exact .inr ⟨other,hmem,hattends⟩
  · refine (hturn hattends).imp id fun hattends => ⟨thread',?_,hattends⟩
    exact mem_set (List.getElem?_eq_some_iff.mp hthread).1 thread'

theorem attended_turn (hinv : QueueInv receiver s) (h : Attended receiver s)
    (hthread : s.threads[index]? = some thread) (hdrops : s.DropsNoJob (.step index copies))
    (hturn : Turn receiver index s.shared thread manager thread') :
    Attended receiver ⟨manager,s.threads.set index thread'⟩ := by
  have hset : thread' ∈ s.threads.set index thread' := mem_set (List.getElem?_eq_some_iff.mp hthread).1 thread'
  intro hqueue
  cases hturn with
  | moves hsame _ _ _ _ _ hjobs hattends =>
    rw [hsame] at hqueue
    rcases h hqueue with hjob | hattended
    · exact (hjobs hjob).imp id fun hattends => ⟨thread',hset,hattends⟩
    · exact attends_set hthread hattended fun hthread => hattends hthread hqueue
  | dropsJob hstarting hmanager hwaiting hlocked =>
    -- the owner of the lock still looks into the queue
    subst hmanager
    obtain ⟨owner,howner⟩ := Option.ne_none_iff_exists'.mp hlocked
    obtain ⟨other,hother,hholds⟩ := (hinv.owner owner).mp howner
    have hnotLeaves : other.leaves receiver ≠ true := fun hleaves =>
      hqueue (hdrops thread hthread receiver (hstarting ▸ rfl) owner howner other hother hleaves)
    have hattends : other.attends receiver = true := other.attends_of_holds hholds hnotLeaves
    have hne : other ≠ thread := by
      rintro rfl
      rw [hstarting] at hholds
      cases hholds
    rcases mem_set_of_mem hthread (mem_of_getElem? hother) with hmem | heq
    · exact .inr ⟨other,hmem,hattends⟩
    · exact absurd heq hne
  | locks _ _ _ _ _ _ hattends => exact .inr ⟨thread',hset,hattends⟩
  | unlocks hmanager _ _ _ _ hattends =>
    subst hmanager
    rw [modify_self] at hqueue
    refine (h hqueue).elim .inl fun hattended => attends_set hthread hattended fun hthread => ?_
    rw [hattends] at hthread
    cases hthread
  | dequeues _ _ _ _ _ _ _ _ _ _ _ hattends => exact .inr ⟨thread',hset,hattends⟩
  | enqueues _ _ _ _ _ _ hattends => exact .inr ⟨thread',hset,hattends⟩

end
variable {action : ReceptionAction}

private theorem holds_of_starts {thread : ReceiveThread} (h : thread.starts = true) :
    ¬thread.holds receiver = true := by
  cases thread with
  | doWork position => cases h
  | enqueueReceivedData own packet position => exact nofun
  | flushQueue own position => cases position <;> first | exact Bool.false_ne_true | cases h

theorem queueInv_step (h : QueueInv receiver s) (hstep : s.step action = some s') : QueueInv receiver s' := by
  rcases act_cases hstep with
    ⟨index,copies,thread,manager,thread',-,hthread,hnext,rfl⟩ | ⟨thread,-,hstarts,rfl⟩
  · have hturn := ReceiveThread.turn hnext h.active receiver
    obtain ⟨hincreasing,haccepted⟩ := numbers_turn h hturn
    exact ⟨(ReceiveThread.next_jobQueueActive hnext).trans h.active,owner_turn h hthread hturn,hincreasing,haccepted⟩
  · refine ⟨h.active,fun index => ?_,h.increasing,h.accepted⟩
    exact (h.owner index).trans (exists_append_iff (p := fun other => ReceiveThread.holds receiver other = true)
      (holds_of_starts hstarts) index).symm

theorem attended_step (hinv : QueueInv receiver s) (h : Attended receiver s)
    (hdrops : s.DropsNoJob action) (hstep : s.step action = some s') : Attended receiver s' := by
  rcases act_cases hstep with
    ⟨index,copies,thread,manager,thread',rfl,hthread,hnext,rfl⟩ | ⟨thread,-,-,rfl⟩
  · exact attended_turn hinv h hthread hdrops (ReceiveThread.turn hnext hinv.active receiver)
  · intro hqueue
    refine (h hqueue).imp id ?_
    rintro ⟨other,hmem,hattends⟩
    exact ⟨other,mem_append_left _ hmem,hattends⟩

theorem QueueInv.inOrder (h : QueueInv receiver s) : s.InOrder receiver :=
  h.increasing.sublist (sublist_append_left _ _)

theorem QueueInv.oneAtATime (h : QueueInv receiver s) : s.OneAtATime receiver := by
  intro index other container container' hindex hother
  have howner := (h.owner index).mpr ⟨_,hindex,by simp [ReceiveThread.holds]⟩
  have howner' := (h.owner other).mpr ⟨_,hother,by simp [ReceiveThread.holds]⟩
  exact Option.some.inj (howner.symm.trans howner')

private theorem Attended.notStranded (h : Attended receiver s) (hquiet : s.Quiet receiver) :
    (s.shared.receivers receiver).receiveQueue = [] := by
  apply Classical.byContradiction
  intro hqueue
  rcases h hqueue with hjob | ⟨thread,hmem,hattends⟩
  · exact hquiet.1 hjob
  · have hworks := thread.worksOn_of_attends hattends
    rw [hquiet.2 thread hmem] at hworks
    cases hworks

/-- The invariant of the runs in which no job is dropped too late. -/
structure DeliveryInv (receiver : Nat) (s : Reception) : Prop where
  queue : QueueInv receiver s
  attended : Attended receiver s

private theorem deliveryInv_create : DeliveryInv receiver (create configs workers) :=
  ⟨queueInv_create,fun hqueue => absurd rfl hqueue⟩

private theorem deliveryInv_step (h : DeliveryInv receiver s) (hdrops : s.DropsNoJob action)
    (hstep : s.step action = some s') : DeliveryInv receiver s' :=
  ⟨queueInv_step h.queue hstep,attended_step h.queue h.attended hdrops hstep⟩

/-- In every run in which no job is dropped while its receiver is being left, the packets of each receiver are
processed in order, one at a time, and none is stranded. -/
theorem packets_delivered (configs : Nat → ReceiverConfig) (workers : Nat) (s : Reception)
    (h : Reaches step DropsNoJob (create configs workers) s) (receiver : Nat) : s.Delivers receiver := by
  have hinv : DeliveryInv receiver s :=
    h.invariant deliveryInv_create fun _ _ _ ht hdrops hstep => deliveryInv_step ht hdrops hstep
  exact ⟨hinv.queue.inOrder,hinv.queue.oneAtATime,hinv.attended.notStranded⟩

instance (s : Reception) (action : ReceptionAction) : Decidable (s.DropsNoJob action) :=
  match action with
  | .step _ _ => inferInstanceAs (Decidable (∀ thread ∈ _, ∀ receiver ∈ _, ∀ owner ∈ _, ∀ other ∈ _, _ → _))
  | .start _ => inferInstanceAs (Decidable True)

instance (receiver : Nat) (s : Reception) : Decidable (s.Quiet receiver) :=
  inferInstanceAs (Decidable (_ ∧ ∀ thread ∈ _, _))

private def steps (index count : Nat) : List ReceptionAction := List.replicate count (.step index true)

private def receives (packet : List UInt8) : List ReceptionAction :=
  [.start (.enqueueReceivedData 0 packet .allocating)]

private def rawSignal (_ : Nat) : ReceiverConfig := ⟨true,true,4⟩

theorem packets_delivered_two : ∃ s : Reception, Reaches step DropsNoJob (create rawSignal 2) s ∧
    (s.shared.receivers 0).processed = [0,1] ∧ s.Delivers 0 := by
  obtain ⟨s,hreach,hboth⟩ : ∃ s, Reaches step DropsNoJob (create rawSignal 2) s ∧
      (s.shared.receivers 0).processed = [0,1] :=
    exists_of_runAllowed (receives [1] ++ steps 2 4 ++ receives [2] ++ steps 3 4 ++ steps 0 5 ++ steps 1 2 ++
      steps 0 5) (by decide +kernel)
  exact ⟨s,hreach,hboth,packets_delivered rawSignal 2 s hreach 0⟩

/-- The first worker has found the queue empty but not unlocked the receiver when the second drops the next packet's
job. -/
theorem packet_stranded : ∃ s : Reception, Reaches step anyAction (create rawSignal 2) s ∧ ¬s.Delivers 0 := by
  obtain ⟨s,hreach,hstranded⟩ : ∃ s, Reaches step anyAction (create rawSignal 2) s ∧ s.Quiet 0 ∧
      (s.shared.receivers 0).receiveQueue ≠ [] :=
    exists_of_runActions (receives [1] ++ steps 2 4 ++ steps 0 6 ++ receives [2] ++ steps 3 4 ++ steps 1 2 ++
      steps 0 1) (by decide +kernel)
  obtain ⟨hquiet,hqueue⟩ := hstranded
  exact ⟨s,hreach,fun hdelivers => hqueue (hdelivers.notStranded hquiet)⟩

end Reception

end FepParticipant.Transmission
