import FepParticipant.Library.MachineWord
import FepParticipant.Library.Reachability

/-! The blocking queue of many producers and one consumer: queue, size, flag and semaphore are updated in separate
steps, between which other threads run. -/
namespace FepParticipant.Base
open Library List Option

/-- Before a call, or in `Dequeue` before its next step; `waited` tells whether it is in the loop behind `wait`. -/
inductive DequeuePosition (α : Type) where
  | idle
  | resetting (waited : Bool)
  | trying (waited : Bool)
  | waiting
  | woken
  | counting (data : α)
  deriving DecidableEq

/-- Who takes an item out of the inner queue. -/
inductive QueueRemover where
  | dequeue
  | clear
  deriving DecidableEq

/-- `cBlockingQueue` with the calls in progress: an `Enqueue` that has pushed or counted its item, a `CancelDequeue`
that has set the flag, and `Clear`. Remembered are the items that entered, left and were returned, the new
cancellations and the results ERR_CANCELLED. -/
structure BlockingQueue (α : Type) where
  oData : List α
  oEvent : Nat
  bCancelled : Bool
  nSize : Int
  consumer : DequeuePosition α
  pushed : Nat
  counted : Nat
  cancelling : Nat
  clearing : Nat
  cleared : Nat
  entered : List α
  removed : List (α × QueueRemover)
  returned : List α
  raised : Nat
  cancelled : Nat
  deriving DecidableEq

/-- The atomic steps; `dequeue` is the next one of the consumer. -/
inductive BlockingQueueAction (α : Type) where
  | enqueue (data : α)
  | countPushed
  | notifyEnqueued
  | dequeue
  | cancelDequeue
  | notifyCancelled
  | clear
  | clearNext
  | countCleared
  deriving DecidableEq

namespace BlockingQueue

variable {α : Type}

def new : BlockingQueue α := ⟨[],0,false,0,.idle,0,0,0,0,0,[],[],[],0,0⟩

/-- `Dequeue`, one step at a time. The consumer is blocked in `wait` while the semaphore has no token. -/
def dequeue (queue : BlockingQueue α) : Option (BlockingQueue α) :=
  match queue.consumer with
  | .idle => some {queue with consumer := if queue.bCancelled then .resetting false else .trying false}
  | .resetting _ => some {queue with bCancelled := false, cancelled := queue.cancelled + 1, consumer := .idle}
  | .trying _ => match queue.oData with
    | [] => some {queue with consumer := .waiting}
    | data::oData => some { queue with
        oData, removed := queue.removed ++ [(data,.dequeue)], consumer := .counting data }
  | .waiting => if queue.oEvent = 0 then none else some {queue with oEvent := queue.oEvent - 1, consumer := .woken}
  | .woken => some {queue with consumer := if queue.bCancelled then .resetting true else .trying true}
  | .counting data => some { queue with
      nSize := wrap32 (queue.nSize - 1), returned := queue.returned ++ [data], consumer := .idle }

def step (queue : BlockingQueue α) : BlockingQueueAction α → Option (BlockingQueue α)
  | .enqueue data => some { queue with
      oData := queue.oData ++ [data], entered := queue.entered ++ [data], pushed := queue.pushed + 1 }
  | .countPushed =>
    if queue.pushed = 0 then none
    else some { queue with
      nSize := wrap32 (queue.nSize + 1), pushed := queue.pushed - 1, counted := queue.counted + 1 }
  | .notifyEnqueued =>
    if queue.counted = 0 then none
    else some {queue with oEvent := queue.oEvent + 1, counted := queue.counted - 1}
  | .dequeue => queue.dequeue
  | .cancelDequeue => some { queue with
      bCancelled := true
      cancelling := queue.cancelling + 1
      raised := if queue.bCancelled then queue.raised else queue.raised + 1 }
  | .notifyCancelled =>
    if queue.cancelling = 0 then none
    else some {queue with oEvent := queue.oEvent + 1, cancelling := queue.cancelling - 1}
  | .clear => some {queue with clearing := queue.clearing + 1}
  | .clearNext =>
    if queue.clearing = 0 then none
    else match queue.oData with
      | [] => some {queue with clearing := queue.clearing - 1}
      | data::oData => some { queue with
          oData, removed := queue.removed ++ [(data,.clear)], clearing := queue.clearing - 1,
          cleared := queue.cleared + 1 }
  | .countCleared =>
    if queue.cleared = 0 then none
    else some { queue with
      nSize := wrap32 (queue.nSize - 1), cleared := queue.cleared - 1, clearing := queue.clearing + 1 }

/-- The item that `Dequeue` has taken and not returned yet. -/
def inHand (queue : BlockingQueue α) : List α :=
  match queue.consumer with
  | .counting data => [data]
  | _ => []

def flagged (queue : BlockingQueue α) : Nat := if queue.bCancelled then 1 else 0

/-- The notifications to come from the calls that are in progress. -/
def pending (queue : BlockingQueue α) : Nat := queue.pushed + queue.counted + queue.cancelling

/-- No operation is in progress. -/
def Quiet (queue : BlockingQueue α) : Prop :=
  queue.consumer = .idle ∧ queue.pending = 0 ∧ queue.clearing = 0 ∧ queue.cleared = 0

/-- What `Dequeue` took left the queue in order and was returned; the consumer is blocked beside an item or a
cancellation only if it will be notified; every new cancellation is pending or led to one ERR_CANCELLED; the size is
that of the queue, in 32 bits. -/
structure Delivers (queue : BlockingQueue α) : Prop where
  entered : queue.entered = queue.removed.map Prod.fst ++ queue.oData
  returned : (queue.removed.filter (·.2 = .dequeue)).map Prod.fst = queue.returned ++ queue.inHand
  awake : queue.consumer = .waiting → queue.oEvent = 0 → queue.oData ≠ [] ∨ queue.bCancelled = true →
    0 < queue.pending
  cancelled : queue.cancelled + queue.flagged = queue.raised
  size : queue.Quiet → queue.nSize = wrap32 queue.oData.length

/-- The token that the consumer took and has found neither an item nor a cancellation for. -/
def held (queue : BlockingQueue α) : Nat :=
  match queue.consumer with
  | .woken | .trying true | .resetting true => 1
  | _ => 0

/-- Every item and the flag have a notification, also a flag set after the consumer, token in hand, has looked at it. -/
structure Accounted (queue : BlockingQueue α) : Prop where
  entered : queue.entered = queue.removed.map Prod.fst ++ queue.oData
  returned : (queue.removed.filter (·.2 = .dequeue)).map Prod.fst = queue.returned ++ queue.inHand
  notified : queue.oData.length + queue.flagged ≤ queue.oEvent + queue.pending + queue.held
  looked : queue.consumer = .trying true → queue.flagged ≤ queue.oEvent + queue.pending
  resetting : ∀ waited, queue.consumer = .resetting waited → queue.bCancelled = true
  cancelled : queue.cancelled + queue.flagged = queue.raised
  size : queue.nSize = wrap32 (queue.oData.length + queue.inHand.length + queue.cleared - queue.pushed)

variable {queue queue' : BlockingQueue α} {action : BlockingQueueAction α} {actions : List (BlockingQueueAction α)}

theorem Accounted.delivers (h : queue.Accounted) : queue.Delivers := by
  refine ⟨h.entered,h.returned,fun hwaiting hevent hreason => ?_,h.cancelled,
    fun ⟨hidle,hpending,_,hcleared⟩ => ?_⟩
  · have hnotified := h.notified
    simp only [held,hwaiting,hevent] at hnotified
    rcases hreason with hdata | hflag
    · have hlength := length_pos_iff.mpr hdata
      omega
    · simp only [flagged,hflag,if_true] at hnotified
      omega
  · have hpushed : queue.pushed = 0 := by
      rw [pending] at hpending
      omega
    rw [h.size]
    simp [inHand,hidle,hpushed,hcleared]

theorem wrap32_count (x y : Int) : wrap32 (wrap32 x + y) = wrap32 (x + y) := Int.bmod_add_bmod

theorem wrap32_uncount (x y : Int) : wrap32 (wrap32 x - y) = wrap32 (x - y) := Int.bmod_sub_bmod

theorem of_unless {p : Prop} [Decidable p] {β : Type} {x y : β} (h : (if p then none else some x) = some y) :
    ¬p ∧ x = y := by
  split at h
  · cases h
  · exact ⟨‹_›,some.inj h⟩

/-- One step of the consumer. In the loop it finds the queue empty only with the token for the flag still there. -/
theorem Accounted.dequeue (h : queue.Accounted) (hstep : queue.dequeue = some queue') : queue'.Accounted := by
  obtain ⟨hentered,hreturned,hnotified,hlooked,hresetting,hcancelled,hsize⟩ := h
  rw [BlockingQueue.dequeue] at hstep
  cases hconsumer : queue.consumer with
  | idle =>
    simp only [hconsumer,some.injEq] at hstep
    subst hstep
    cases hflag : queue.bCancelled <;>
      constructor <;> simp_all [inHand,flagged,pending,held]
  | resetting waited =>
    have hflag := hresetting waited hconsumer
    simp only [hconsumer,some.injEq] at hstep
    subst hstep
    cases waited <;>
      constructor <;> simp_all [inHand,flagged,pending,held]
    all_goals omega
  | trying waited =>
    simp only [hconsumer] at hstep
    cases hdata : queue.oData with
    | nil =>
      simp only [hdata,some.injEq] at hstep
      subst hstep
      cases waited <;> constructor <;> simp_all [inHand,flagged,pending,held]
    | cons data oData =>
      simp only [hdata,some.injEq] at hstep
      subst hstep
      cases waited <;> constructor <;> simp_all [inHand,flagged,pending,held,add_right_comm] <;> omega
  | waiting =>
    simp only [hconsumer] at hstep
    split at hstep
    · cases hstep
    · cases hstep
      constructor <;> simp_all [inHand,flagged,pending,held]
      omega
  | woken =>
    simp only [hconsumer,some.injEq] at hstep
    subst hstep
    cases hflag : queue.bCancelled <;>
      constructor <;> simp_all [inHand,flagged,pending,held]
  | counting data =>
    simp only [hconsumer,some.injEq] at hstep
    subst hstep
    constructor <;> simp_all [inHand,flagged,pending,held,wrap32_uncount]
    congr 1
    omega

/-- The other threads leave the consumer where it is. -/
theorem Accounted.step (h : queue.Accounted) (hstep : queue.step action = some queue') : queue'.Accounted := by
  have hnotified := h.notified
  have hsize := h.size
  cases action with
  | dequeue => exact h.dequeue hstep
  | enqueue data =>
    cases hstep
    refine ⟨by simp [h.entered],h.returned,?_,fun htrying => ?_,h.resetting,h.cancelled,?_⟩
    · simp only [flagged,pending,held,length_append,length_singleton] at hnotified ⊢
      omega
    · have hlooked := h.looked htrying
      simp only [flagged,pending] at hlooked ⊢
      omega
    · rw [hsize]
      congr 1
      simp only [inHand,length_append,length_singleton]
      omega
  | countPushed =>
    obtain ⟨hpushed,rfl⟩ := of_unless hstep
    refine ⟨h.entered,h.returned,?_,fun htrying => ?_,h.resetting,h.cancelled,?_⟩
    · simp only [flagged,pending,held] at hnotified ⊢
      omega
    · have hlooked := h.looked htrying
      simp only [flagged,pending] at hlooked ⊢
      omega
    · dsimp only
      rw [hsize,wrap32_count]
      congr 1
      simp only [inHand]
      omega
  | notifyEnqueued | notifyCancelled =>
    obtain ⟨hcalls,rfl⟩ := of_unless hstep
    refine ⟨h.entered,h.returned,?_,fun htrying => ?_,h.resetting,h.cancelled,hsize⟩
    · simp only [flagged,pending,held] at hnotified ⊢
      omega
    · have hlooked := h.looked htrying
      simp only [flagged,pending] at hlooked ⊢
      omega
  | cancelDequeue =>
    have hcancelled := h.cancelled
    cases hstep
    refine ⟨h.entered,h.returned,?_,fun htrying => ?_,fun _ _ => rfl,?_,hsize⟩
    · simp only [flagged,pending,held,if_true] at hnotified ⊢
      omega
    · simp only [flagged,pending,if_true]
      omega
    · cases hflag : queue.bCancelled <;> simp_all [flagged]
  | clear =>
    cases hstep
    exact ⟨h.entered,h.returned,hnotified,h.looked,h.resetting,h.cancelled,hsize⟩
  | clearNext =>
    rw [BlockingQueue.step] at hstep
    split at hstep
    · cases hstep
    · split at hstep
      · cases hstep
        exact ⟨h.entered,h.returned,hnotified,h.looked,h.resetting,h.cancelled,hsize⟩
      · rename_i data oData hdata
        cases hstep
        rw [hdata,length_cons] at hnotified hsize
        refine ⟨by simp [h.entered,hdata],by simpa [inHand] using h.returned,?_,h.looked,h.resetting,h.cancelled,
          ?_⟩
        · simp only [flagged,pending,held] at hnotified ⊢
          omega
        · rw [hsize]
          congr 1
          simp only [inHand]
          omega
  | countCleared =>
    obtain ⟨hcleared,rfl⟩ := of_unless hstep
    refine ⟨h.entered,h.returned,hnotified,h.looked,h.resetting,h.cancelled,?_⟩
    dsimp only
    rw [hsize,wrap32_uncount]
    congr 1
    simp only [inHand]
    omega

theorem delivers_of_runActions (h : runActions step new actions = some queue) : queue.Delivers := by
  have hnew : (new : BlockingQueue α).Accounted :=
    ⟨rfl,rfl,Nat.le_refl _,nofun,nofun,rfl,by simp [new,inHand,wrap32,signedWord]⟩
  exact ((reaches_of_runActions h).invariant hnew fun _ _ _ hinv _ hstep => hinv.step hstep).delivers

/-- The steps of the consumer, at most, until it returns ERR_CANCELLED for a flag that is set. -/
def stepsToCancelled (queue : BlockingQueue α) : Nat :=
  match queue.consumer with
  | .resetting _ => 1
  | .idle | .woken => 2
  | .waiting | .counting _ => 3
  | .trying _ => 4

def isDequeue : BlockingQueueAction α → Bool
  | .dequeue => true
  | _ => false

/-- Nobody but the consumer resets the flag or returns ERR_CANCELLED. -/
theorem step_other (hother : isDequeue action = false) (hstep : queue.step action = some queue') :
    queue'.consumer = queue.consumer ∧ queue'.cancelled = queue.cancelled ∧
      (queue.bCancelled = true → queue'.bCancelled = true) ∧
      (action ≠ .cancelDequeue → queue'.raised = queue.raised) := by
  cases action with
  | dequeue => cases hother
  | countPushed | notifyEnqueued | notifyCancelled | countCleared =>
    obtain ⟨-,rfl⟩ := of_unless hstep
    exact ⟨rfl,rfl,id,fun _ => rfl⟩
  | clearNext =>
    rw [step] at hstep
    split at hstep
    · cases hstep
    · split at hstep <;> cases hstep <;> exact ⟨rfl,rfl,id,fun _ => rfl⟩
  | enqueue data | clear =>
    cases hstep
    exact ⟨rfl,rfl,id,fun _ => rfl⟩
  | cancelDequeue =>
    cases hstep
    exact ⟨rfl,rfl,fun _ => rfl,fun hne => absurd rfl hne⟩

/-- A consumer gets nearer to ERR_CANCELLED while the flag is set. -/
theorem dequeue_flagged (hflag : queue.bCancelled = true) (hstep : queue.dequeue = some queue') :
    queue'.cancelled = queue.cancelled + 1 ∨ (queue'.bCancelled = true ∧ queue'.cancelled = queue.cancelled ∧
      queue'.stepsToCancelled + 1 ≤ queue.stepsToCancelled) := by
  rw [BlockingQueue.dequeue] at hstep
  cases hconsumer : queue.consumer with
  | waiting =>
    simp only [hconsumer] at hstep
    obtain ⟨-,rfl⟩ := of_unless hstep
    simp [stepsToCancelled,hconsumer,hflag]
  | trying waited =>
    simp only [hconsumer] at hstep
    split at hstep <;> cases hstep <;> simp [stepsToCancelled,hconsumer,hflag]
  | counting data =>
    simp only [hconsumer,some.injEq] at hstep
    subst hstep
    simp [stepsToCancelled,hconsumer,hflag]
  | _ =>
    simp only [hconsumer,hflag,if_true,some.injEq] at hstep
    subst hstep
    simp [stepsToCancelled,hconsumer]

private theorem dequeue_cancelled_raised (hstep : queue.dequeue = some queue') :
    queue.cancelled ≤ queue'.cancelled ∧ queue'.raised = queue.raised := by
  rw [BlockingQueue.dequeue] at hstep
  split at hstep <;> (try split at hstep) <;> cases hstep <;> simp

theorem cancelled_raised_of_runActions (hrun : runActions step queue actions = some queue') :
    queue.cancelled ≤ queue'.cancelled ∧ (.cancelDequeue ∉ actions → queue'.raised = queue.raised) := by
  induction actions generalizing queue with
  | nil =>
    cases hrun
    exact ⟨Nat.le_refl _,fun _ => rfl⟩
  | cons action actions ih =>
    obtain ⟨next,hstep,hrest⟩ := bind_eq_some_iff.mp hrun
    have hfirst : queue.cancelled ≤ next.cancelled ∧ (action ≠ .cancelDequeue → next.raised = queue.raised) := by
      cases hdequeue : isDequeue action with
      | true =>
        cases action <;> first | exact (dequeue_cancelled_raised hstep).imp_right fun h _ => h | cases hdequeue
      | false =>
        obtain ⟨-,hcancelled,-,hraised⟩ := step_other hdequeue hstep
        exact ⟨hcancelled.ge,hraised⟩
    obtain ⟨hlater,hkept⟩ := ih hrest
    refine ⟨hfirst.1.trans hlater,fun hnot => ?_⟩
    rw [mem_cons,not_or] at hnot
    rw [hkept hnot.2,hfirst.2 fun h => hnot.1 h.symm]

theorem cancelled_of_runActions (hrun : runActions step queue actions = some queue') (hflag : queue.bCancelled = true)
    (hsteps : queue.stepsToCancelled ≤ actions.countP isDequeue) : queue.cancelled < queue'.cancelled := by
  induction actions generalizing queue with
  | nil =>
    rw [stepsToCancelled] at hsteps
    cases hconsumer : queue.consumer <;> simp [hconsumer] at hsteps
  | cons action actions ih =>
    obtain ⟨next,hstep,hrest⟩ := bind_eq_some_iff.mp hrun
    rw [countP_cons] at hsteps
    cases hdequeue : isDequeue action with
    | true =>
      have hnext : queue.dequeue = some next := by
        cases action <;> first | exact hstep | cases hdequeue
      rcases dequeue_flagged hflag hnext with hcancelled | ⟨hnext,hcancelled,hnearer⟩
      · have hkept := (cancelled_raised_of_runActions hrest).1
        omega
      · rw [hdequeue,if_pos rfl] at hsteps
        rw [← hcancelled]
        exact ih hrest hnext (by omega)
    | false =>
      obtain ⟨hconsumer,hcancelled,hkept,-⟩ := step_other hdequeue hstep
      rw [hdequeue,if_neg Bool.false_ne_true] at hsteps
      rw [← hcancelled]
      refine ih hrest (hkept hflag) ?_
      rw [stepsToCancelled,hconsumer]
      exact hsteps

/-- In every interleaving `Dequeue` returns what entered, once and in order; the consumer is woken; and a
cancellation that no other follows leads to one ERR_CANCELLED within four steps of the consumer. -/
theorem items_delivered_once (h : runActions step new actions = some queue) :
    queue.Delivers ∧ ∀ (later : List (BlockingQueueAction α)) (queue' : BlockingQueue α),
      runActions step queue later = some queue' → .cancelDequeue ∉ later → queue.bCancelled = true →
      queue'.cancelled ≤ queue.cancelled + 1 ∧
      (4 ≤ later.countP isDequeue → queue'.cancelled = queue.cancelled + 1) := by
  have hdelivers := delivers_of_runActions h
  refine ⟨hdelivers,fun later queue' hrun hnot hflag => ?_⟩
  have hraised := (cancelled_raised_of_runActions hrun).2 hnot
  have hbefore := hdelivers.cancelled
  have hwhole : runActions step new (actions ++ later) = some queue' := by
    rw [runActions_append,h]
    exact hrun
  have hafter := (delivers_of_runActions hwhole).cancelled
  rw [flagged,if_pos hflag] at hbefore
  have hle : queue'.cancelled ≤ queue.cancelled + 1 := by omega
  refine ⟨hle,fun hlater => Nat.le_antisymm hle (cancelled_of_runActions hrun hflag (hlater.trans' ?_))⟩
  rw [stepsToCancelled]
  split <;> omega

/-- Three items enter, one of them is returned and the others are cleared, while the consumer is being cancelled. -/
def clearedAndCancelled : List (BlockingQueueAction String) :=
  [.enqueue "one",.enqueue "two",.countPushed,.notifyEnqueued,.dequeue,.dequeue,.enqueue "three",.clear,
    .dequeue,.clearNext,.countPushed,.countCleared,.clearNext,.countPushed,.countCleared,.clearNext,
    .notifyEnqueued,.notifyEnqueued,.dequeue,.dequeue,.cancelDequeue]

theorem items_delivered_once_cancelled :
    ∃ queue queue' : BlockingQueue String, runActions step new clearedAndCancelled = some queue ∧
      runActions step queue [.dequeue,.notifyCancelled,.dequeue,.dequeue,.dequeue] = some queue' ∧ queue.Delivers ∧
      queue.returned = ["one"] ∧ queue.removed = [("one",.dequeue),("two",.clear),("three",.clear)] ∧
      queue'.cancelled = queue.cancelled + 1 := by
  have hrun : runActions step new clearedAndCancelled = some
      ⟨[],3,true,0,.waiting,0,0,1,0,0,["one","two","three"],
        [("one",.dequeue),("two",.clear),("three",.clear)],["one"],1,0⟩ := by decide
  have hlater : runActions step
      ⟨[],3,true,0,.waiting,0,0,1,0,0,["one","two","three"],
        [("one",.dequeue),("two",.clear),("three",.clear)],["one"],1,0⟩
      [.dequeue,.notifyCancelled,.dequeue,.dequeue,.dequeue] = some
      ⟨[],3,false,0,.trying false,0,0,0,0,0,["one","two","three"],
        [("one",.dequeue),("two",.clear),("three",.clear)],["one"],1,1⟩ := by decide
  obtain ⟨hdelivers,hcancelled⟩ := items_delivered_once hrun
  exact ⟨_,_,hrun,hlater,hdelivers,rfl,rfl,(hcancelled _ _ hlater (by decide) rfl).2 (by decide)⟩

private theorem exists_quiet_of_length (n : Nat) : ∃ queue : BlockingQueue Unit, ∃ actions,
    runActions step new actions = some queue ∧ queue.Quiet ∧ queue.oData.length = n := by
  induction n with
  | zero => exact ⟨new,[],rfl,⟨rfl,rfl,rfl,rfl⟩,rfl⟩
  | succ n ih =>
    obtain ⟨queue,actions,hrun,⟨hidle,hpending,hclearing,hcleared⟩,hlength⟩ := ih
    have hcalls : queue.pushed = 0 ∧ queue.counted = 0 := by
      rw [pending] at hpending
      omega
    let next : BlockingQueue Unit := { queue with
      oData := queue.oData ++ [()], entered := queue.entered ++ [()], nSize := wrap32 (queue.nSize + 1),
      oEvent := queue.oEvent + 1 }
    have hnext : runActions step queue [.enqueue (),.countPushed,.notifyEnqueued] = some next := by
      simp [runActions,step,hcalls,next]
    refine ⟨next,actions ++ [.enqueue (),.countPushed,.notifyEnqueued],?_,⟨hidle,hpending,hclearing,hcleared⟩,?_⟩
    · rw [runActions_append,hrun]
      exact hnext
    · simp [next,hlength]

/-- With 2^31 items in the queue `GetSize` is negative. -/
theorem size_negative : ¬∀ (queue : BlockingQueue Unit) (actions : List (BlockingQueueAction Unit)),
    runActions step new actions = some queue → queue.Quiet → queue.nSize = queue.oData.length := by
  intro h
  obtain ⟨queue,actions,hrun,hquiet,hlength⟩ := exists_quiet_of_length (2 ^ 31)
  have hsize := (delivers_of_runActions hrun).size hquiet
  rw [h queue actions hrun hquiet,hlength] at hsize
  exact absurd hsize (by decide)

end BlockingQueue
end FepParticipant.Base
