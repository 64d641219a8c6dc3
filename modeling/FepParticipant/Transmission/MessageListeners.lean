import FepParticipant.Library.Reachability
import FepParticipant.Result
import Mathlib.Data.List.Nodup

/-! The command and notification listeners of the transmission adapter, while messages are delivered to them and
any thread registers and unregisters listeners, also from inside the listeners. -/
namespace FepParticipant.Transmission
open Library List Option

inductive MessageKind where
  | command
  | notification
  deriving DecidableEq

/-- The listeners of one list after `Register…Listener`, and its result. -/
def registerListener (listeners : List Nat) : Option Nat → List Nat × Result
  | none => (listeners,.errPointer)
  | some poListener =>
    if poListener ∈ listeners then (listeners,.errUnexpected) else (listeners ++ [poListener],.errNoError)

/-- The listeners of one list after `Unregister…Listener`, and its result. -/
def unregisterListener (listeners : List Nat) : Option Nat → List Nat × Result
  | none => (listeners,.errPointer)
  | some poListener =>
    if poListener ∈ listeners then (listeners.erase poListener,.errNoError) else (listeners,.errNotFound)

structure ListenerLists where
  vecCommandListeners : List Nat
  vecNotificationListeners : List Nat

namespace ListenerLists
variable (lists : ListenerLists)

def registerCommandListener (poCommandListener : Option Nat) : ListenerLists × Result :=
  let (listeners,nResult) := registerListener lists.vecCommandListeners poCommandListener
  ({lists with vecCommandListeners := listeners},nResult)

def registerNotificationListener (poStatusListener : Option Nat) : ListenerLists × Result :=
  let (listeners,nResult) := registerListener lists.vecNotificationListeners poStatusListener
  ({lists with vecNotificationListeners := listeners},nResult)

def unregisterCommandListener (poCommandListener : Option Nat) : ListenerLists × Result :=
  let (listeners,nResult) := unregisterListener lists.vecCommandListeners poCommandListener
  ({lists with vecCommandListeners := listeners},nResult)

def unregisterNotificationListener (poStatusListener : Option Nat) : ListenerLists × Result :=
  let (listeners,nResult) := unregisterListener lists.vecNotificationListeners poStatusListener
  ({lists with vecNotificationListeners := listeners},nResult)

def ofKind : MessageKind → List Nat
  | .command => lists.vecCommandListeners
  | .notification => lists.vecNotificationListeners

def register : MessageKind → Option Nat → ListenerLists × Result
  | .command => lists.registerCommandListener
  | .notification => lists.registerNotificationListener

def unregister : MessageKind → Option Nat → ListenerLists × Result
  | .command => lists.unregisterCommandListener
  | .notification => lists.unregisterNotificationListener

end ListenerLists

/-- `ProvideCommand` or `ProvideNotification` under way. -/
structure Delivery where
  kind : MessageKind
  /-- The listeners of the copy from `itListener` on. -/
  remaining : List Nat
  /-- The `Update` of the listener before them has not returned. -/
  updating : Bool
  nResult : Result
  /-- Who was registered when the message came in, who has been called, and who has been unregistered since. -/
  registered : List Nat
  called : List Nat
  unregistered : List Nat

/-- The listeners with the thread that has locked `m_oAdapterMutex` and the deliveries it is in, the innermost
first. -/
structure MessageListeners where
  lists : ListenerLists
  owner : Option Nat
  deliveries : List Delivery
  delivered : List Delivery
  /-- Listeners that have been called while they were not registered. -/
  strays : List Nat

/-- What a thread does. `m_oContForkMutex` is never held beyond one of these steps. -/
inductive ListenerAction where
  | provide (thread : Nat) (kind : MessageKind)
  | update (thread : Nat)
  | updateReturns (thread : Nat) (nResult : Result)
  | provideReturns (thread : Nat)
  | register (thread : Nat) (kind : MessageKind) (poListener : Option Nat)
  | unregister (thread : Nat) (kind : MessageKind) (poListener : Option Nat)

def Delivery.withoutListener (kind : MessageKind) (poListener : Option Nat) (delivery : Delivery) : Delivery :=
  if delivery.kind = kind then {delivery with unregistered := poListener.toList ++ delivery.unregistered}
  else delivery

namespace MessageListeners
variable (adapter : MessageListeners)

def new : MessageListeners := ⟨⟨[],[]⟩,none,[],[],[]⟩

/-- A thread can call into the adapter when nobody has locked it, or from inside the `Update` it calls itself. -/
def mayEnter (thread : Nat) : Bool :=
  match adapter.owner, adapter.deliveries with
  | none, _ => true
  | some owner, delivery::_ => owner = thread && delivery.updating
  | some _, [] => false

/-- The innermost delivery of a thread, if it is at this point of the loop, and the outer ones. -/
def innermost (thread : Nat) (updating : Bool) : Option (Delivery × List Delivery) :=
  match adapter.deliveries with
  | delivery::outer =>
    if adapter.owner = some thread ∧ delivery.updating = updating then some (delivery,outer) else none
  | [] => none

def step : ListenerAction → Option MessageListeners
  | .provide thread kind =>
    let listeners := adapter.lists.ofKind kind
    if adapter.mayEnter thread then
      some { adapter with
        owner := some thread
        deliveries := ⟨kind,listeners,false,.errNoError,listeners,[],[]⟩::adapter.deliveries }
    else none
  | .update thread => do
    let (delivery,outer) ← adapter.innermost thread false
    match delivery.remaining with
    | [] => none
    | listener::remaining =>
      return { adapter with
        deliveries :=
          {delivery with remaining := remaining, updating := true, called := delivery.called ++ [listener]} :: outer
        strays :=
          if listener ∈ adapter.lists.ofKind delivery.kind then adapter.strays else listener::adapter.strays }
  | .updateReturns thread nResult => do
    let (delivery,outer) ← adapter.innermost thread true
    return {adapter with deliveries := {delivery with updating := false, nResult := nResult} :: outer}
  | .provideReturns thread => do
    let (delivery,outer) ← adapter.innermost thread false
    match delivery.remaining with
    | _::_ => none
    | [] =>
      return { adapter with
        owner := if outer = [] then none else adapter.owner
        deliveries := outer
        delivered := delivery::adapter.delivered }
  | .register thread kind poListener =>
    if adapter.mayEnter thread then some {adapter with lists := (adapter.lists.register kind poListener).1} else none
  | .unregister thread kind poListener =>
    if adapter.mayEnter thread then
      let (lists,nResult) := adapter.lists.unregister kind poListener
      some { adapter with
        lists := lists
        deliveries :=
          if isOk nResult then adapter.deliveries.map (Delivery.withoutListener kind poListener)
          else adapter.deliveries }
    else none

structure Served (adapter : MessageListeners) : Prop where
  /-- Those that were registered throughout a delivery have got the message once, in their order. -/
  inOrder : ∀ delivery ∈ adapter.delivered, delivery.registered.Nodup ∧
    delivery.called.filter (fun listener => listener ∉ delivery.unregistered) =
      delivery.registered.filter fun listener => listener ∉ delivery.unregistered
  /-- No listener gets a message twice, whenever it was registered. -/
  atMostOnce : ∀ delivery ∈ adapter.delivered ++ adapter.deliveries, delivery.called.Nodup
  /-- Who is called is registered then, so has not been unregistered since. -/
  registered : adapter.strays = []

/-- No listener is removed that a delivery under way has still to call. -/
def RemovesNoPending (adapter : MessageListeners) : ListenerAction → Prop
  | .unregister _ kind (some poListener) =>
    ∀ delivery ∈ adapter.deliveries, delivery.kind = kind → poListener ∉ delivery.remaining
  | _ => True

instance (adapter : MessageListeners) (action : ListenerAction) : Decidable (adapter.RemovesNoPending action) :=
  match action with
  | .unregister _ kind (some poListener) => inferInstanceAs
      (Decidable (∀ delivery ∈ adapter.deliveries, delivery.kind = kind → poListener ∉ delivery.remaining))
  | .unregister _ _ none | .provide .. | .update _ | .updateReturns .. | .provideReturns _ | .register .. =>
    .isTrue trivial

end MessageListeners

theorem registerListener_cases (listeners : List Nat) (poListener : Option Nat) :
    (isOk (registerListener listeners poListener).2 = false ∧ (registerListener listeners poListener).1 = listeners) ∨
    ∃ listener, poListener = some listener ∧ listener ∉ listeners ∧
      registerListener listeners poListener = (listeners ++ [listener],.errNoError) := by
  cases poListener with
  | none => exact .inl ⟨rfl,rfl⟩
  | some listener =>
    rw [registerListener]
    by_cases hmem : listener ∈ listeners
    · rw [if_pos hmem]
      exact .inl ⟨rfl,rfl⟩
    · rw [if_neg hmem]
      exact .inr ⟨listener,rfl,hmem,rfl⟩

theorem unregisterListener_cases (listeners : List Nat) (poListener : Option Nat) :
    (isOk (unregisterListener listeners poListener).2 = false ∧
      (unregisterListener listeners poListener).1 = listeners) ∨
    ∃ listener, poListener = some listener ∧ listener ∈ listeners ∧
      unregisterListener listeners poListener = (listeners.erase listener,.errNoError) := by
  cases poListener with
  | none => exact .inl ⟨rfl,rfl⟩
  | some listener =>
    rw [unregisterListener]
    by_cases hmem : listener ∈ listeners
    · rw [if_pos hmem]
      exact .inr ⟨listener,rfl,hmem,rfl⟩
    · rw [if_neg hmem]
      exact .inl ⟨rfl,rfl⟩

namespace ListenerLists

def replace (lists : ListenerLists) (kind : MessageKind) (listeners : List Nat) : ListenerLists :=
  match kind with
  | .command => {lists with vecCommandListeners := listeners}
  | .notification => {lists with vecNotificationListeners := listeners}

variable (lists : ListenerLists) (kind other : MessageKind) (listeners : List Nat) (poListener : Option Nat)

theorem ofKind_replace :
    (lists.replace kind listeners).ofKind other = if kind = other then listeners else lists.ofKind other := by
  cases kind <;> cases other <;> rfl

theorem replace_ofKind : lists.replace kind (lists.ofKind kind) = lists := by
  cases kind <;> rfl

theorem register_eq : lists.register kind poListener =
    (lists.replace kind (registerListener (lists.ofKind kind) poListener).1,
      (registerListener (lists.ofKind kind) poListener).2) := by
  cases kind <;> rfl

theorem unregister_eq : lists.unregister kind poListener =
    (lists.replace kind (unregisterListener (lists.ofKind kind) poListener).1,
      (unregisterListener (lists.ofKind kind) poListener).2) := by
  cases kind <;> rfl

end ListenerLists

/-- A delivery has called the listeners of its copy up to `itListener`. -/
structure Delivery.Passed (delivery : Delivery) : Prop where
  nodup : delivery.registered.Nodup
  passed : delivery.called ++ delivery.remaining = delivery.registered

namespace MessageListeners
variable {adapter after : MessageListeners} {delivery : Delivery} {outer : List Delivery} {action : ListenerAction}

/-- What a run keeps in which nobody removes a listener that is still to be called. -/
structure NonePending (adapter : MessageListeners) : Prop where
  nodup : ∀ kind, (adapter.lists.ofKind kind).Nodup
  underWay : ∀ delivery ∈ adapter.deliveries, delivery.Passed ∧
    ∀ listener ∈ delivery.remaining, listener ∈ adapter.lists.ofKind delivery.kind
  delivered : ∀ delivery ∈ adapter.delivered, delivery.Passed ∧ delivery.remaining = []
  registered : adapter.strays = []

theorem deliveries_of_innermost {thread : Nat} {updating : Bool}
    (h : adapter.innermost thread updating = some (delivery,outer)) : adapter.deliveries = delivery::outer := by
  rw [innermost] at h
  split at h
  · rename_i hdeliveries
    split at h
    · cases h
      exact hdeliveries
    · cases h
  · cases h

section
variable (h : adapter.NonePending)
include h

theorem NonePending.update {listener : Nat} {remaining : List Nat}
    (hdeliveries : adapter.deliveries = delivery::outer) (hremaining : delivery.remaining = listener::remaining) :
    NonePending { adapter with
      deliveries :=
        {delivery with remaining := remaining, updating := true, called := delivery.called ++ [listener]} :: outer
      strays :=
        if listener ∈ adapter.lists.ofKind delivery.kind then adapter.strays else listener::adapter.strays } := by
  have hall := h.underWay
  rw [hdeliveries] at hall
  obtain ⟨⟨hpassed,hpending⟩,houter⟩ := forall_mem_cons.mp hall
  rw [hremaining] at hpending
  refine ⟨h.nodup,forall_mem_cons.mpr ⟨⟨⟨hpassed.nodup,?_⟩,fun other hother => ?_⟩,houter⟩,h.delivered,?_⟩
  · rw [← hpassed.passed,hremaining,append_assoc,singleton_append]
  · exact hpending other (.tail _ hother)
  · rw [if_pos (hpending listener mem_cons_self)]
    exact h.registered

theorem NonePending.register (kind : MessageKind) (poListener : Option Nat) :
    NonePending {adapter with lists := (adapter.lists.register kind poListener).1} := by
  rw [ListenerLists.register_eq]
  rcases registerListener_cases (adapter.lists.ofKind kind) poListener with ⟨-,hsame⟩ | ⟨listener,-,hnew,hregistered⟩
  · rw [hsame,ListenerLists.replace_ofKind]
    exact h
  · rw [hregistered]
    refine ⟨fun other => ?_,fun delivery hdelivery => ⟨(h.underWay delivery hdelivery).1,fun pending hpending => ?_⟩,
      h.delivered,h.registered⟩
    · rw [ListenerLists.ofKind_replace]
      split
      · rw [← concat_eq_append]
        exact List.Nodup.concat hnew (h.nodup kind)
      · exact h.nodup other
    · have hmem := (h.underWay delivery hdelivery).2 pending hpending
      rw [ListenerLists.ofKind_replace]
      split
      · rename_i hkind
        exact mem_append_left _ (hkind ▸ hmem)
      · exact hmem

private theorem NonePending.unregister {kind : MessageKind} {listener : Nat}
    (hcareful : ∀ delivery ∈ adapter.deliveries, delivery.kind = kind → listener ∉ delivery.remaining) :
    NonePending { adapter with
      lists := adapter.lists.replace kind ((adapter.lists.ofKind kind).erase listener)
      deliveries := adapter.deliveries.map (Delivery.withoutListener kind (some listener)) } := by
  refine ⟨fun other => ?_,forall_mem_map.mpr fun delivery hdelivery => ?_,h.delivered,h.registered⟩
  · rw [ListenerLists.ofKind_replace]
    split
    · exact (h.nodup kind).erase listener
    · exact h.nodup other
  · obtain ⟨hpassed,hpending⟩ := h.underWay delivery hdelivery
    rw [Delivery.withoutListener]
    split
    · rename_i hkind
      refine ⟨⟨hpassed.nodup,hpassed.passed⟩,fun pending hmem => ?_⟩
      have hne : pending ≠ listener := fun hsame => hcareful delivery hdelivery hkind (hsame ▸ hmem)
      rw [ListenerLists.ofKind_replace,if_pos hkind.symm]
      exact (mem_erase_of_ne hne).mpr (hkind ▸ hpending pending hmem)
    · rename_i hkind
      refine ⟨hpassed,fun pending hmem => ?_⟩
      rw [ListenerLists.ofKind_replace,if_neg (Ne.symm hkind)]
      exact hpending pending hmem

theorem NonePending.step (hcareful : adapter.RemovesNoPending action)
    (hstep : adapter.step action = some after) : after.NonePending := by
  cases action with
  | provide thread kind =>
    obtain ⟨-,⟨⟩⟩ := ite_none_right_eq_some.mp hstep
    exact ⟨h.nodup,forall_mem_cons.mpr ⟨⟨⟨h.nodup kind,rfl⟩,fun _ => id⟩,h.underWay⟩,h.delivered,h.registered⟩
  | update thread =>
    obtain ⟨⟨delivery,outer⟩,hinnermost,hstep⟩ := bind_eq_some_iff.mp hstep
    dsimp only at hstep
    split at hstep
    · cases hstep
    · rename_i hremaining
      cases hstep
      exact h.update (deliveries_of_innermost hinnermost) hremaining
  | updateReturns thread nResult =>
    obtain ⟨⟨delivery,outer⟩,hinnermost,hstep⟩ := bind_eq_some_iff.mp hstep
    cases hstep
    have hall := h.underWay
    rw [deliveries_of_innermost hinnermost] at hall
    obtain ⟨⟨hpassed,hpending⟩,houter⟩ := forall_mem_cons.mp hall
    exact ⟨h.nodup,forall_mem_cons.mpr ⟨⟨⟨hpassed.nodup,hpassed.passed⟩,hpending⟩,houter⟩,h.delivered,h.registered⟩
  | provideReturns thread =>
    obtain ⟨⟨delivery,outer⟩,hinnermost,hstep⟩ := bind_eq_some_iff.mp hstep
    dsimp only at hstep
    split at hstep
    · cases hstep
    · rename_i hremaining
      cases hstep
      have hall := h.underWay
      rw [deliveries_of_innermost hinnermost] at hall
      obtain ⟨⟨hpassed,-⟩,houter⟩ := forall_mem_cons.mp hall
      exact ⟨h.nodup,houter,forall_mem_cons.mpr ⟨⟨hpassed,hremaining⟩,h.delivered⟩,h.registered⟩
  | register thread kind poListener =>
    obtain ⟨-,⟨⟩⟩ := ite_none_right_eq_some.mp hstep
    exact h.register kind poListener
  | unregister thread kind poListener =>
    rw [MessageListeners.step,ListenerLists.unregister_eq] at hstep
    obtain ⟨-,hstep⟩ := ite_none_right_eq_some.mp hstep
    rcases unregisterListener_cases (adapter.lists.ofKind kind) poListener with
      ⟨hrefused,hsame⟩ | ⟨listener,rfl,-,hunregistered⟩
    · dsimp only at hstep
      rw [hsame,ListenerLists.replace_ofKind,hrefused] at hstep
      cases hstep
      exact h
    · rw [hunregistered] at hstep
      cases hstep
      exact h.unregister hcareful

private theorem NonePending.served : adapter.Served := by
  have hcalled {delivery : Delivery} (hpassed : delivery.Passed) : delivery.called.Nodup :=
    (List.nodup_append.mp (hpassed.passed ▸ hpassed.nodup)).1
  refine ⟨fun delivery hdelivery => ?_,fun delivery hdelivery => ?_,h.registered⟩
  · obtain ⟨hpassed,hremaining⟩ := h.delivered delivery hdelivery
    refine ⟨hpassed.nodup,?_⟩
    rw [← hpassed.passed,hremaining,append_nil]
  · rcases mem_append.mp hdelivery with hdelivered | hunderWay
    · exact hcalled (h.delivered delivery hdelivered).1
    · exact hcalled (h.underWay delivery hunderWay).1

end

/-- In every run of any threads and listeners in which nobody removes a listener that is still to be called. -/
theorem listeners_served (h : Reaches step RemovesNoPending new adapter) : adapter.Served := by
  have hnew : new.NonePending := by
    refine ⟨fun kind => ?_,nofun,nofun,rfl⟩
    cases kind <;> exact nodup_nil
  exact (h.invariant hnew fun _ _ _ hbefore hcareful hstep => hbefore.step hcareful hstep).served

/-- The listener 1 removes itself in its `Update`; another thread can register only afterwards. -/
theorem removing_itself : ∃ adapter : MessageListeners, adapter.Served ∧
    adapter.delivered.map Delivery.called = [[1,2]] ∧ adapter.lists.vecCommandListeners = [2,3] :=
  ⟨_,listeners_served (@reaches_of_runAllowed _ _ step RemovesNoPending _ new _
    [.register 0 .command (some 1),.register 0 .command (some 2),
    .provide 1 .command,.update 1,.unregister 1 .command (some 1),.updateReturns 1 .errNoError,.update 1,
    .updateReturns 1 .errNoError,.provideReturns 1,.register 0 .command (some 3)] rfl),rfl,rfl⟩

/-- The listener 1 removes the listener 2 in its `Update`, which gets the message nevertheless. -/
theorem removed_listener_called : ∃ adapter : MessageListeners, Reaches step anyAction new adapter ∧
    ¬adapter.Served := by
  refine ⟨_,@reaches_of_runActions _ _ step new _ [.register 0 .command (some 1),.register 0 .command (some 2),
    .provide 1 .command,.update 1,.unregister 1 .command (some 2),.updateReturns 1 .errNoError,.update 1] rfl,
    fun hserved => ?_⟩
  have hregistered := hserved.registered
  exact absurd hregistered (by decide)

end MessageListeners

end FepParticipant.Transmission
