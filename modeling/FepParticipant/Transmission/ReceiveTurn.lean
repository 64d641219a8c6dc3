import FepParticipant.Transmission.ReceiveQueue

/-! What one step of a thread does to one receiver: to its queue, its lock and its containers. -/
namespace FepParticipant.Transmission
open Library QueueManager

namespace ReceiveThread

def holds (receiver : Nat) : ReceiveThread → Bool
  | .doWork (.dequeueing r) | .doWork (.processing r _) | .doWork (.freeing r _) | .doWork (.unlocking r) =>
    r == receiver
  | .flushQueue r .dequeueing | .flushQueue r (.freeing _) | .flushQueue r .unlocking => r == receiver
  | _ => false

def tries : ReceiveThread → Option Nat
  | .doWork (.starting r) => some r
  | _ => none

/-- The thread has found the queue empty and is about to unlock the receiver. -/
def leaves (receiver : Nat) : ReceiveThread → Bool
  | .doWork (.unlocking r) => r == receiver
  | .flushQueue r .unlocking => r == receiver
  | _ => false

/-- The thread has yet to look into the queue of the receiver, or to enqueue a job for it. -/
def attends (receiver : Nat) : ReceiveThread → Bool
  | .doWork (.starting r) | .doWork (.dequeueing r) | .doWork (.processing r _) | .doWork (.freeing r _) =>
    r == receiver
  | .enqueueReceivedData r _ .notifying => r == receiver
  | .flushQueue r .dequeueing | .flushQueue r (.freeing _) => r == receiver
  | _ => false

/-- The containers of the receiver that are being filled, processed or moved by the thread. -/
def held (receiver : Nat) : ReceiveThread → Nat
  | .doWork (.processing r _) | .doWork (.freeing r _) => if r = receiver then 1 else 0
  | .enqueueReceivedData r _ (.filling _) | .enqueueReceivedData r _ (.enqueueing _)
  | .enqueueReceivedData r _ (.freeing _) => if r = receiver then 1 else 0
  | .flushQueue r (.freeing _) => if r = receiver then 1 else 0
  | _ => 0

def worksOn (receiver : Nat) : ReceiveThread → Bool
  | .doWork .waiting => false
  | .doWork (.starting r) | .doWork (.dequeueing r) | .doWork (.processing r _) | .doWork (.freeing r _)
  | .doWork (.unlocking r) => r == receiver
  | .enqueueReceivedData _ _ .returned => false
  | .enqueueReceivedData r _ _ => r == receiver
  | .flushQueue _ .returned => false
  | .flushQueue r _ => r == receiver

theorem attends_of_holds {receiver : Nat} (thread : ReceiveThread) (hholds : thread.holds receiver = true)
    (hleaves : thread.leaves receiver ≠ true) : thread.attends receiver = true := by
  cases thread with
  | doWork position => cases position <;> first | exact hholds | exact absurd hholds hleaves
  | enqueueReceivedData own packet position => cases position <;> cases hholds
  | flushQueue own position => cases position <;> first | exact hholds | exact absurd hholds hleaves

theorem worksOn_of_attends {receiver : Nat} (thread : ReceiveThread) (hattends : thread.attends receiver = true) :
    thread.worksOn receiver = true := by
  cases thread with
  | doWork position => cases position <;> first | exact hattends | cases hattends
  | enqueueReceivedData own packet position => cases position <;> first | exact hattends | cases hattends
  | flushQueue own position => cases position <;> first | exact hattends | cases hattends

end ReceiveThread

/-- The effect of one step on one receiver. -/
inductive Turn (receiver index : Nat) (manager : QueueManager) (thread : ReceiveThread)
    (manager' : QueueManager) (thread' : ReceiveThread) : Prop
  /-- At most containers move between the thread and the pool, or are lost with a refused packet. -/
  | moves : (manager'.receivers receiver).receiveQueue = (manager.receivers receiver).receiveQueue →
      (manager'.receivers receiver).mtxJob = (manager.receivers receiver).mtxJob →
      (manager'.receivers receiver).processed = (manager.receivers receiver).processed →
      (manager'.receivers receiver).accepted = (manager.receivers receiver).accepted →
      (manager'.receivers receiver).preAllocQueue.length + thread'.held receiver +
          (manager'.receivers receiver).refused.length =
        (manager.receivers receiver).preAllocQueue.length + thread.held receiver +
          (manager.receivers receiver).refused.length →
      thread'.holds receiver = thread.holds receiver →
      (receiver ∈ manager.jobQueue → receiver ∈ manager'.jobQueue ∨ thread'.attends receiver = true) →
      (thread.attends receiver = true → (manager.receivers receiver).receiveQueue ≠ [] →
        receiver ∈ manager'.jobQueue ∨ thread'.attends receiver = true) →
      Turn receiver index manager thread manager' thread'
  | dropsJob : thread = .doWork (.starting receiver) → manager' = manager → thread' = .doWork .waiting →
      (manager.receivers receiver).mtxJob ≠ none →
      Turn receiver index manager thread manager' thread'
  | locks : (manager.receivers receiver).mtxJob = none →
      manager' = manager.modify receiver (ReceiveThread.setMtxJob (some index)) →
      thread.holds receiver = false → thread'.holds receiver = true →
      thread.held receiver = 0 → thread'.held receiver = 0 → thread'.attends receiver = true →
      Turn receiver index manager thread manager' thread'
  | unlocks : manager' = manager.modify receiver (ReceiveThread.setMtxJob none) →
      thread.holds receiver = true → thread'.holds receiver = false →
      thread.held receiver = 0 → thread'.held receiver = 0 → thread.attends receiver = false →
      Turn receiver index manager thread manager' thread'
  | dequeues (number : Nat) (container : DataContainer) (queue : List (Nat × DataContainer)) (given : List Nat) :
      (manager.receivers receiver).receiveQueue = (number,container)::queue →
      (given = [] ∨ given = [number]) →
      manager' = manager.modify receiver
        (fun r => {r with receiveQueue := queue, processed := r.processed ++ given}) →
      thread.holds receiver = true → thread'.holds receiver = true →
      thread.held receiver = 0 → thread'.held receiver = 1 → thread'.attends receiver = true →
      Turn receiver index manager thread manager' thread'
  | enqueues (container : DataContainer) : manager' = manager.modify receiver (fun r =>
        {r with receiveQueue := r.receiveQueue ++ [(r.accepted,container)], accepted := r.accepted + 1}) →
      thread.holds receiver = false → thread'.holds receiver = false →
      thread.held receiver = 1 → thread'.held receiver = 0 → thread'.attends receiver = true →
      Turn receiver index manager thread manager' thread'

namespace QueueManager

variable {manager : QueueManager} {receiver other : Nat} {change : Receiver → Receiver}

@[simp] theorem modify_self : (manager.modify receiver change).receivers receiver =
    change (manager.receivers receiver) := by
  simp [modify]

theorem modify_of_ne (h : other ≠ receiver) : (manager.modify receiver change).receivers other =
    manager.receivers other := by
  simp [modify,h]

@[simp] theorem modify_jobQueue : (manager.modify receiver change).jobQueue = manager.jobQueue := rfl

@[simp] theorem modify_jobQueueActive : (manager.modify receiver change).jobQueueActive = manager.jobQueueActive := rfl

@[simp] theorem enqueueJob_receivers : (manager.enqueueJob receiver).receivers = manager.receivers := by
  unfold enqueueJob
  split <;> rfl

@[simp] theorem enqueueJob_jobQueueActive : (manager.enqueueJob receiver).jobQueueActive = manager.jobQueueActive := by
  unfold enqueueJob
  split <;> rfl

theorem enqueueJob_jobQueue (hactive : manager.jobQueueActive = true) :
    (manager.enqueueJob receiver).jobQueue = manager.jobQueue ++ [receiver] := by
  rw [enqueueJob,if_pos hactive]

end QueueManager

namespace ReceiveThread
variable {manager manager' : QueueManager} {thread thread' : ReceiveThread} {index : Nat} {copies : Bool}
variable {receiver : Nat} {own : Nat}

theorem turn_silent (hheld : thread'.held receiver = thread.held receiver)
    (hholds : thread'.holds receiver = thread.holds receiver)
    (hattends : thread.attends receiver = true → (manager.receivers receiver).receiveQueue ≠ [] →
      thread'.attends receiver = true) : Turn receiver index manager thread manager thread' :=
  .moves rfl rfl rfl rfl (by rw [hheld]) hholds .inl fun hthread hqueue => .inr (hattends hthread hqueue)

theorem turn_elsewhere {other receiver : Nat} {change : Receiver → Receiver} (hother : other ≠ receiver)
    (hheld : thread'.held receiver = thread.held receiver) (hholds : thread'.holds receiver = thread.holds receiver)
    (hattends : thread.attends receiver = false) :
    Turn receiver index manager thread (manager.modify other change) thread' := by
  have hsame : (manager.modify other change).receivers receiver = manager.receivers receiver :=
    modify_of_ne hother.symm
  refine .moves ?_ ?_ ?_ ?_ ?_ hholds .inl fun hthread => ?_
  · rw [hsame]
  · rw [hsame]
  · rw [hsame]
  · rw [hsame]
  · rw [hsame,hheld]
  · rw [hattends] at hthread
    cases hthread

theorem turn_pool {change : Receiver → Receiver}
    (hqueue : (change (manager.receivers receiver)).receiveQueue = (manager.receivers receiver).receiveQueue)
    (hlock : (change (manager.receivers receiver)).mtxJob = (manager.receivers receiver).mtxJob)
    (hprocessed : (change (manager.receivers receiver)).processed = (manager.receivers receiver).processed)
    (haccepted : (change (manager.receivers receiver)).accepted = (manager.receivers receiver).accepted)
    (hcount : (change (manager.receivers receiver)).preAllocQueue.length + thread'.held receiver +
        (change (manager.receivers receiver)).refused.length =
      (manager.receivers receiver).preAllocQueue.length + thread.held receiver +
        (manager.receivers receiver).refused.length) (hholds : thread'.holds receiver = thread.holds receiver)
    (hattends : thread.attends receiver = true → thread'.attends receiver = true) :
    Turn receiver index manager thread (manager.modify receiver change) thread' := by
  have hself : (manager.modify receiver change).receivers receiver = change (manager.receivers receiver) :=
    modify_self
  refine .moves ?_ ?_ ?_ ?_ ?_ hholds .inl fun hthread _ => .inr (hattends hthread)
  · rw [hself,hqueue]
  · rw [hself,hlock]
  · rw [hself,hprocessed]
  · rw [hself,haccepted]
  · rw [hself,hcount]

theorem turn_freeing {container : DataContainer}
    (hheld : thread.held receiver = if own = receiver then 1 else 0) (hheld' : thread'.held receiver = 0)
    (hholds : thread'.holds receiver = thread.holds receiver)
    (hattends : thread.attends receiver = true → own = receiver ∧ thread'.attends receiver = true) :
    Turn receiver index manager thread (manager.modify own (freeContainer container)) thread' := by
  by_cases hown : own = receiver
  · subst hown
    refine turn_pool rfl rfl rfl rfl ?_ hholds fun hthread => (hattends hthread).2
    simp [freeContainer,hheld,hheld']
  · rw [if_neg hown,← hheld'] at hheld
    refine turn_elsewhere hown hheld.symm hholds ?_
    exact Bool.eq_false_iff.mpr fun hthread => hown (hattends hthread).1

theorem turn_locking (hfree : (manager.receivers own).mtxJob = none)
    (hholds : thread.holds receiver = false) (hholds' : thread'.holds receiver = (own == receiver))
    (hheld : thread.held receiver = 0) (hheld' : thread'.held receiver = 0)
    (hattends : thread.attends receiver = true → own = receiver)
    (hattends' : thread'.attends receiver = (own == receiver)) :
    Turn receiver index manager thread (manager.modify own (setMtxJob (some index))) thread' := by
  by_cases hown : own = receiver
  · subst hown
    rw [beq_self_eq_true] at hholds' hattends'
    exact .locks hfree rfl hholds hholds' hheld hheld' hattends'
  · rw [beq_false_of_ne hown,← hholds] at hholds'
    refine turn_elsewhere hown (hheld'.trans hheld.symm) hholds' ?_
    exact Bool.eq_false_iff.mpr fun hthread => hown (hattends hthread)

theorem turn_unlocking (hholds : thread.holds receiver = (own == receiver))
    (hholds' : thread'.holds receiver = false) (hheld : thread.held receiver = 0)
    (hheld' : thread'.held receiver = 0) (hattends : thread.attends receiver = false) :
    Turn receiver index manager thread (manager.modify own (setMtxJob none)) thread' := by
  by_cases hown : own = receiver
  · subst hown
    rw [beq_self_eq_true] at hholds
    exact .unlocks rfl hholds hholds' hheld hheld' hattends
  · rw [beq_false_of_ne hown,← hholds'] at hholds
    exact turn_elsewhere hown (hheld'.trans hheld.symm) hholds.symm hattends

theorem turn_doWork {position : QueueWorkerPosition}
    (h : next manager index copies (.doWork position) = some (manager',thread')) :
    Turn receiver index manager (.doWork position) manager' thread' := by
  cases position with
  | waiting =>
    rw [next] at h
    split at h
    · cases h
    · rename_i own jobs hjobs
      cases h
      refine .moves rfl rfl rfl rfl rfl rfl (fun hjob => ?_) nofun
      rw [hjobs] at hjob
      rcases List.mem_cons.mp hjob with rfl | hjob
      · exact .inr (beq_self_eq_true receiver)
      · exact .inl hjob
  | starting own =>
    rw [next] at h
    split at h
    · rename_i hfree
      cases h
      exact turn_locking hfree rfl rfl rfl rfl of_decide_eq_true rfl
    · rename_i hlocked
      cases h
      by_cases hown : own = receiver
      · subst hown
        exact .dropsJob rfl rfl rfl hlocked
      · exact turn_silent rfl rfl (by simp [attends,hown])
  | dequeueing own =>
    rw [next] at h
    split at h
    · rename_i hempty
      cases h
      refine turn_silent rfl rfl fun hthread hqueue => ?_
      obtain rfl : own = receiver := by simpa [attends] using hthread
      exact absurd hempty hqueue
    · rename_i number container queue hqueue
      cases h
      by_cases hown : own = receiver
      · subst hown
        exact .dequeues number container queue [number] hqueue (.inr rfl) rfl (by simp [holds]) (by simp [holds])
          rfl (by simp [held]) (by simp [attends])
      · exact turn_elsewhere hown (by simp [held,hown]) rfl (by simp [attends,hown])
  | processing own container =>
    cases h
    exact turn_silent rfl rfl fun hthread _ => hthread
  | freeing own container =>
    cases h
    exact turn_freeing rfl rfl rfl fun hthread => ⟨of_decide_eq_true hthread,hthread⟩
  | unlocking own =>
    cases h
    exact turn_unlocking rfl rfl rfl rfl rfl

theorem turn_enqueueReceivedData {packet : List UInt8} {position : EnqueuePosition}
    (h : next manager index copies (.enqueueReceivedData own packet position) = some (manager',thread'))
    (hactive : manager.jobQueueActive = true) :
    Turn receiver index manager (.enqueueReceivedData own packet position) manager' thread' := by
  cases position with
  | allocating =>
    rw [next] at h
    split at h
    · cases h
      exact turn_silent rfl rfl nofun
    · rename_i container pool hpool
      cases h
      by_cases hown : own = receiver
      · subst hown
        exact turn_pool rfl rfl rfl rfl (by simp [hpool,held]) rfl nofun
      · exact turn_elsewhere hown (by simp [held,hown]) rfl rfl
  | filling container =>
    rw [next] at h
    split at h
    · cases h
      exact turn_silent rfl rfl nofun
    · cases h
      exact turn_silent rfl rfl nofun
    · cases h
      by_cases hown : own = receiver
      · subst hown
        exact turn_pool rfl rfl rfl rfl (by simp [held]; omega) rfl nofun
      · exact turn_elsewhere hown (by simp [held,hown]) rfl rfl
  | enqueueing container =>
    cases h
    by_cases hown : own = receiver
    · subst hown
      exact .enqueues container rfl rfl rfl (by simp [held]) rfl (by simp [attends])
    · exact turn_elsewhere hown (by simp [held,hown]) rfl rfl
  | notifying =>
    cases h
    have hjobs := @enqueueJob_jobQueue manager own hactive
    refine .moves ?_ ?_ ?_ ?_ ?_ rfl (fun hjob => .inl ?_) (fun hthread _ => .inl ?_)
    · rw [enqueueJob_receivers]
    · rw [enqueueJob_receivers]
    · rw [enqueueJob_receivers]
    · rw [enqueueJob_receivers]
    · rw [enqueueJob_receivers]
      rfl
    · rw [hjobs]
      exact List.mem_append_left _ hjob
    · obtain rfl : own = receiver := by simpa [attends] using hthread
      rw [hjobs]
      exact List.mem_append_right _ List.mem_cons_self
  | freeing container =>
    cases h
    exact turn_freeing rfl rfl rfl nofun
  | returned => cases h

theorem turn_flushQueue {position : FlushPosition}
    (h : next manager index copies (.flushQueue own position) = some (manager',thread')) :
    Turn receiver index manager (.flushQueue own position) manager' thread' := by
  cases position with
  | locking =>
    rw [next] at h
    split at h
    · rename_i hfree
      cases h
      exact turn_locking hfree rfl rfl rfl rfl nofun rfl
    · cases h
  | dequeueing =>
    rw [next] at h
    split at h
    · rename_i hempty
      cases h
      refine turn_silent rfl rfl fun hthread hqueue => ?_
      obtain rfl : own = receiver := by simpa [attends] using hthread
      exact absurd hempty hqueue
    · rename_i number container queue hqueue
      cases h
      by_cases hown : own = receiver
      · subst hown
        refine .dequeues number container queue [] hqueue (.inl rfl) ?_ (by simp [holds]) (by simp [holds])
          rfl (by simp [held]) (by simp [attends])
        simp only [List.append_nil]
      · exact turn_elsewhere hown (by simp [held,hown]) rfl (by simp [attends,hown])
  | freeing container =>
    cases h
    exact turn_freeing rfl rfl rfl fun hthread => ⟨of_decide_eq_true hthread,hthread⟩
  | unlocking =>
    cases h
    exact turn_unlocking rfl rfl rfl rfl rfl
  | returned => cases h

section
variable (h : next manager index copies thread = some (manager',thread'))
include h

theorem turn (hactive : manager.jobQueueActive = true) (receiver : Nat) :
    Turn receiver index manager thread manager' thread' := by
  cases thread with
  | doWork position => exact turn_doWork h
  | enqueueReceivedData own packet position => exact turn_enqueueReceivedData h hactive
  | flushQueue own position => exact turn_flushQueue h

theorem next_jobQueueActive : manager'.jobQueueActive = manager.jobQueueActive := by
  unfold next at h
  split at h
  all_goals try split at h
  all_goals cases h
  all_goals simp only [modify_jobQueueActive,enqueueJob_jobQueueActive]

end

end ReceiveThread

end FepParticipant.Transmission
