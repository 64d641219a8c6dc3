import Mathlib.Data.List.Induction
import Mathlib.Data.List.Nodup
import Mathlib.Data.List.Perm.Subperm
import FepParticipant.Library.Reachability
import FepParticipant.StateMachine.SetState

/-! The registry of listeners, whose notification goes on while the callbacks register and unregister
listeners. The registration calls and the callbacks are recorded. -/
namespace FepParticipant.StateMachine
open Library List Option

variable {σ L : Type} [DecidableEq L]

/-- The calls on a listener registry; a pointer may be `NULL`. -/
inductive RegistryCall (L : Type) where
  | registerListener (pListener : Option L)
  | unregisterListener (pListener : Option L)
  | unregisterAllListeners

namespace RegistryCall

def apply (registered : List L) : RegistryCall L → List L × Result
  | registerListener none | unregisterListener none => (registered,.errPointer)
  | registerListener (some listener) => (registered ++ [listener],.errNoError)
  | unregisterListener (some listener) =>
    if listener ∈ registered then (registered.erase listener,.errNoError) else (registered,.errNotFound)
  | unregisterAllListeners => ([],.errNoError)

def unregisters (listener : L) : RegistryCall L → Bool
  | unregisterListener (some other) => other == listener
  | unregisterAllListeners => true
  | _ => false

end RegistryCall

inductive NotificationEvent (L : Type) where
  | called (listener : L) (result : Result)
  | changed (call : RegistryCall L)

abbrev Callback (σ L : Type) := σ → List L → L → σ × List (RegistryCall L) × Result

/-- The state of `NotifyListener`, with the record of what happened since its begin. -/
structure Notification (σ L : Type) where
  surroundings : σ
  registered : List L
  finished : List L
  result : Result
  events : List (NotificationEvent L)

namespace NotificationEvent

def apply (registered : List L) : NotificationEvent L → List L
  | called _ _ => registered
  | changed call => (call.apply registered).1

def registeredAfter (registered : List L) (events : List (NotificationEvent L)) : List L :=
  events.foldl apply registered

def callee : NotificationEvent L → Option L
  | called listener _ => some listener
  | changed _ => none

def returned : NotificationEvent L → Option Result
  | called _ result => some result
  | changed _ => none

def newListener : NotificationEvent L → Option L
  | changed (.registerListener pListener) => pListener
  | _ => none

def unregisters (listener : L) : NotificationEvent L → Bool
  | called _ _ => false
  | changed call => call.unregisters listener

end NotificationEvent

namespace Notification

def begin (surroundings : σ) (registered : List L) : Notification σ L := ⟨surroundings,registered,[],.errNoError,[]⟩

/-- `FindNextListenerNotContainedInFinishedList`. -/
def findNext (notification : Notification σ L) : Option L :=
  notification.registered.find? fun listener => listener ∉ notification.finished

/-- The listeners that were called, one after the other. -/
def callees (notification : Notification σ L) : List L := notification.events.filterMap NotificationEvent.callee

def results (notification : Notification σ L) : List Result := notification.events.filterMap NotificationEvent.returned

def registrations (notification : Notification σ L) : List L :=
  notification.events.filterMap NotificationEvent.newListener

/-- The listener is called and finished; the result of its callback counts as long as none has failed. -/
def call (callback : Callback σ L) (notification : Notification σ L) (listener : L) : Notification σ L :=
  let (surroundings,calls,result) := callback notification.surroundings notification.registered listener
  { surroundings := surroundings
    registered := calls.foldl (fun registered call => (call.apply registered).1) notification.registered
    finished := notification.finished ++ [listener]
    result := if isOk notification.result then result else notification.result
    events := notification.events ++ .called listener result::calls.map .changed }

/-- One turn of the loop; there is none if all listeners are finished. -/
def turn (callback : Callback σ L) (notification : Notification σ L) : Option (Notification σ L) :=
  notification.findNext.map (notification.call callback)

def step (callback : Callback σ L) (notification : Notification σ L) (_ : Unit) : Option (Notification σ L) :=
  notification.turn callback

/-- `NotifyListener` with at most so many turns. -/
def notifyListener (callback : Callback σ L) : Nat → Notification σ L → Option (Notification σ L)
  | 0, _ => none
  | fuel + 1, notification =>
    match notification.turn callback with
    | none => some notification
    | some next => notifyListener callback fuel next

end Notification

/-- The first place of a listener is in front of every place of the other one. -/
def Precedes (listeners : List L) (listener other : L) : Prop :=
  ∃ front behind, listeners = front ++ listener::behind ∧ other ∉ front

namespace NotificationEvent

variable {registered : List L} {listener other : L} {event : NotificationEvent L} {events : List (NotificationEvent L)}

theorem registeredAfter_append (events later : List (NotificationEvent L)) :
    registeredAfter registered (events ++ later) = registeredAfter (registeredAfter registered events) later :=
  foldl_append

theorem registeredAfter_call (result : Result) (calls : List (RegistryCall L)) :
    registeredAfter registered (called listener result::calls.map changed) =
      calls.foldl (fun registered call => (call.apply registered).1) registered := by
  rw [registeredAfter,foldl_cons,foldl_map]
  rfl

private theorem mem_apply (h : other ∈ event.apply registered) : other ∈ registered ∨
    event.newListener = some other := by
  cases event with
  | called listener result => exact .inl h
  | changed call =>
    cases call with
    | registerListener pListener =>
      cases pListener with
      | none => exact .inl h
      | some listener =>
        rcases mem_append.mp h with hold | hnew
        · exact .inl hold
        · rw [mem_singleton.mp hnew]
          exact .inr rfl
    | unregisterListener pListener =>
      cases pListener with
      | none => exact .inl h
      | some listener =>
        rw [apply,RegistryCall.apply] at h
        split at h
        · exact .inl (mem_of_mem_erase h)
        · exact .inl h
    | unregisterAllListeners => exact absurd h not_mem_nil

theorem mem_registeredAfter (h : other ∈ registeredAfter registered events) :
    other ∈ registered ++ events.filterMap newListener := by
  induction events generalizing registered with
  | nil => exact mem_append_left _ h
  | cons event events ih =>
    rcases mem_append.mp (ih h) with hafter | hlater
    · rcases mem_apply hafter with hold | hnew
      · exact mem_append_left _ hold
      · exact mem_append_right _ (mem_filterMap.mpr ⟨event,mem_cons_self,hnew⟩)
    · obtain ⟨later,hmem,hnew⟩ := mem_filterMap.mp hlater
      exact mem_append_right _ (mem_filterMap.mpr ⟨later,mem_cons_of_mem _ hmem,hnew⟩)

theorem precedes_apply (h : Precedes registered listener other) (hkept : event.unregisters listener = false) :
    Precedes (event.apply registered) listener other := by
  obtain ⟨front,behind,rfl,hfront⟩ := h
  cases event with
  | called _ _ => exact ⟨front,behind,rfl,hfront⟩
  | changed call =>
    cases call with
    | registerListener pListener =>
      cases pListener with
      | none => exact ⟨front,behind,rfl,hfront⟩
      | some new => exact ⟨front,behind ++ [new],append_assoc ..,hfront⟩
    | unregisterListener pListener =>
      cases pListener with
      | none => exact ⟨front,behind,rfl,hfront⟩
      | some gone =>
        rw [unregisters,RegistryCall.unregisters,beq_eq_false_iff_ne] at hkept
        rw [apply,RegistryCall.apply]
        split
        · rw [erase_append]
          split
          · exact ⟨front.erase gone,behind,rfl,fun hmem => hfront (mem_of_mem_erase hmem)⟩
          · refine ⟨front,behind.erase gone,?_,hfront⟩
            rw [erase_cons_tail (by simpa using hkept.symm)]
        · exact ⟨front,behind,rfl,hfront⟩
    | unregisterAllListeners => cases hkept

theorem precedes_registeredAfter (h : Precedes registered listener other)
    (hkept : ∀ event ∈ events, event.unregisters listener = false) :
    Precedes (registeredAfter registered events) listener other := by
  induction events generalizing registered with
  | nil => exact h
  | cons event events ih =>
    rw [forall_mem_cons] at hkept
    exact ih (precedes_apply h hkept.1) hkept.2

end NotificationEvent

namespace Notification

variable {callback : Callback σ L} {notification outcome : Notification σ L} {registered : List L}
  {listener other : L} {events front behind : List (NotificationEvent L)} {surroundings : σ} {result : Result}

def FirstNotCalled (registered : List L) (events : List (NotificationEvent L)) (listener : L) : Prop :=
  listener ∉ events.filterMap NotificationEvent.callee ∧
  ∃ before behind, NotificationEvent.registeredAfter registered events = before ++ listener::behind ∧
    ∀ other ∈ before, other ∈ events.filterMap NotificationEvent.callee

def StaysRegistered (registered : List L) (events : List (NotificationEvent L)) (listener : L) : Prop :=
  ∀ front, front <+: events → listener ∈ NotificationEvent.registeredAfter registered front

/-- What the loop keeps: the finished listeners are those that were called, each as the first one left. -/
structure NotificationInv (registered : List L) (notification : Notification σ L) : Prop where
  registry : notification.registered = NotificationEvent.registeredAfter registered notification.events
  finished : notification.finished = notification.callees
  once : notification.callees.Nodup
  first : ∀ front listener result behind, notification.events = front ++ .called listener result::behind →
    FirstNotCalled registered front listener
  result : notification.result = (notification.results.find? isFailed).getD .errNoError

theorem notificationInv_begin : NotificationInv registered (begin surroundings registered) where
  registry := rfl
  finished := rfl
  once := nodup_nil
  first := by
    intro front listener result behind hevents
    cases front <;> cases hevents
  result := rfl

omit [DecidableEq L] in
theorem called_cases {calls : List (RegistryCall L)} {new : Result}
    (h : events ++ .called listener new::calls.map .changed = front ++ .called other result::behind) :
    (∃ rest, events = front ++ .called other result::rest) ∨ front = events ∧ other = listener := by
  rcases append_eq_append_iff.mp h with ⟨rest,hfront,hrest⟩ | ⟨rest,hevents,hrest⟩
  · cases rest with
    | nil =>
      obtain ⟨hcall,-⟩ := List.cons.inj hrest
      obtain ⟨rfl,-⟩ := NotificationEvent.called.inj hcall
      exact .inr ⟨hfront.trans (append_nil _),rfl⟩
    | cons event rest =>
      obtain ⟨-,htail⟩ := List.cons.inj hrest
      have hmem : NotificationEvent.called other result ∈ calls.map NotificationEvent.changed := by
        rw [htail]
        exact mem_append_right _ mem_cons_self
      obtain ⟨call,-,hcall⟩ := mem_map.mp hmem
      cases hcall
  · cases rest with
    | nil =>
      obtain ⟨hcall,-⟩ := List.cons.inj hrest
      obtain ⟨rfl,-⟩ := NotificationEvent.called.inj hcall
      exact .inr ⟨(hevents.trans (append_nil _)).symm,rfl⟩
    | cons event rest =>
      cases hrest
      exact .inl ⟨rest,hevents⟩

omit [DecidableEq L] in
theorem filterMap_turn {β : Type} {f : NotificationEvent L → Option β} {b : β}
    (calls : List (RegistryCall L)) (hcalled : f (.called listener result) = some b)
    (hchanged : ∀ call, f (.changed call) = none) :
    (events ++ NotificationEvent.called listener result::calls.map NotificationEvent.changed).filterMap f =
      events.filterMap f ++ [b] := by
  have hcalls : (calls.map NotificationEvent.changed).filterMap f = [] := by
    rw [filterMap_map,filterMap_eq_nil_iff]
    exact fun call _ => hchanged call
  rw [filterMap_append,filterMap_cons_some hcalled,hcalls]

private theorem firstFailure_append (results : List Result) : ((results ++ [result]).find? isFailed).getD .errNoError =
      if isOk ((results.find? isFailed).getD .errNoError) then result
      else (results.find? isFailed).getD .errNoError := by
  rw [find?_append]
  cases hfound : results.find? isFailed with
  | none =>
    have hok : isOk Result.errNoError = true := rfl
    rw [none_or,getD_none,if_pos hok,find?_singleton]
    split
    · rfl
    · rename_i hresult
      rw [isFailed_iff,not_ne_iff] at hresult
      exact hresult.symm
  | some failure =>
    have hfailed := find?_some hfound
    rw [some_or,getD_some,if_neg (by simpa using hfailed)]

theorem notificationInv_call (h : NotificationInv registered notification)
    (hnext : notification.findNext = some listener) :
    NotificationInv registered (notification.call callback listener) := by
  obtain ⟨hnew,before,behind,hregistered,hbefore⟩ := find?_eq_some_iff_append.mp hnext
  have hnew' : listener ∉ notification.callees := by
    rw [← h.finished]
    simpa using hnew
  rw [call]
  generalize callback notification.surroundings notification.registered listener = answer
  obtain ⟨surroundings,calls,result⟩ := answer
  have hcallees : (notification.events ++ NotificationEvent.called listener result ::
      calls.map NotificationEvent.changed).filterMap NotificationEvent.callee = notification.callees ++ [listener] :=
    filterMap_turn _ rfl fun _ => rfl
  have hresults : (notification.events ++ NotificationEvent.called listener result ::
      calls.map NotificationEvent.changed).filterMap NotificationEvent.returned = notification.results ++ [result] :=
    filterMap_turn _ rfl fun _ => rfl
  refine ⟨?_,?_,?_,?_,?_⟩
  · rw [NotificationEvent.registeredAfter_append,NotificationEvent.registeredAfter_call,← h.registry]
  · rw [callees,hcallees,h.finished]
  · rw [callees,hcallees,nodup_append]
    refine ⟨h.once,pairwise_singleton _ _,?_⟩
    intro called hcalled last hlast heq
    rw [heq,mem_singleton.mp hlast] at hcalled
    exact hnew' hcalled
  · intro front other result behind' hevents
    rcases called_cases hevents with ⟨rest,hold⟩ | ⟨rfl,rfl⟩
    · exact h.first front other result rest hold
    · refine ⟨hnew',before,behind,h.registry.symm.trans hregistered,?_⟩
      intro called hcalled
      have hfinished := hbefore called hcalled
      rw [h.finished] at hfinished
      simpa [callees] using hfinished
  · rw [results,hresults,firstFailure_append,h.result]

private theorem notificationInv_step {action : Unit} {next : Notification σ L}
    (h : NotificationInv registered notification)
    (hstep : step callback notification action = some next) : NotificationInv registered next := by
  obtain ⟨listener,hnext,rfl⟩ := map_eq_some_iff.mp hstep
  exact notificationInv_call h hnext

section
variable (h : Reaches (step callback) anyAction (begin surroundings registered) notification)
include h

theorem notificationInv_of_reaches : NotificationInv registered notification :=
  h.invariant (notificationInv_begin) fun _ _ _ hinv _ hstep => notificationInv_step hinv hstep

end

private theorem callees_subset (h : NotificationInv registered notification) :
    notification.callees ⊆ registered ++ notification.registrations := by
  intro listener hlistener
  obtain ⟨event,hevent,hcallee⟩ := mem_filterMap.mp hlistener
  cases event with
  | changed call => cases hcallee
  | called other result =>
    obtain rfl := some.inj hcallee
    obtain ⟨front,behind,hsplit⟩ := append_of_mem hevent
    obtain ⟨-,before,rest,hafter,-⟩ := h.first front other result behind hsplit
    have hmem : other ∈ NotificationEvent.registeredAfter registered front := by
      rw [hafter]
      exact mem_append_right _ mem_cons_self
    rcases mem_append.mp (NotificationEvent.mem_registeredAfter hmem) with hold | hnew
    · exact mem_append_left _ hold
    · rw [registrations,hsplit,filterMap_append]
      exact mem_append_right _ (mem_append_left _ hnew)

private theorem length_finished_le (h : NotificationInv registered notification) :
    notification.finished.length ≤ registered.length + notification.registrations.length := by
  rw [h.finished,← length_append]
  exact (List.Nodup.subperm h.once (callees_subset h)).length_le

theorem exists_outcome {bound : Nat}
    (hbound : ∀ reached, Reaches (step callback) anyAction (begin surroundings registered) reached →
      reached.registrations.length ≤ bound)
    (h : Reaches (step callback) anyAction (begin surroundings registered) notification) {fuel : Nat}
    (hfuel : registered.length + bound < notification.finished.length + fuel) :
    ∃ outcome, notifyListener callback fuel notification = some outcome := by
  induction fuel generalizing notification with
  | zero =>
    have hfinished := length_finished_le (notificationInv_of_reaches h)
    have hregistrations := hbound notification h
    omega
  | succ fuel ih =>
    rw [notifyListener]
    cases hturn : notification.turn callback with
    | none => exact ⟨notification,rfl⟩
    | some next =>
      have hlonger : next.finished.length = notification.finished.length + 1 := by
        obtain ⟨listener,-,rfl⟩ := map_eq_some_iff.mp hturn
        exact length_append
      exact ih (h.tail (a := ()) trivial hturn) (by omega)

theorem reaches_outcome {fuel : Nat} (h : notifyListener callback fuel notification = some outcome) :
    Reaches (step callback) anyAction notification outcome ∧ outcome.findNext = none := by
  induction fuel generalizing notification with
  | zero => cases h
  | succ fuel ih =>
    rw [notifyListener] at h
    split at h
    · rename_i hturn
      cases h
      exact ⟨.refl,map_eq_none_iff.mp hturn⟩
    · rename_i next hturn
      obtain ⟨hreach,hend⟩ := ih h
      exact ⟨.head (a := ()) trivial hturn hreach,hend⟩

theorem mem_callees (h : NotificationInv registered notification) (hend : notification.findNext = none)
    (hmem : listener ∈ notification.registered) : listener ∈ notification.callees := by
  have hfinished := find?_eq_none.mp hend listener hmem
  rw [h.finished] at hfinished
  simpa using hfinished

theorem precedes_callees (h : NotificationInv registered notification) (hcalled : listener ∈ notification.callees)
    (hkept : ∀ event ∈ notification.events, event.unregisters listener = false)
    (hbefore : Precedes registered listener other) : Precedes notification.callees listener other := by
  obtain ⟨event,hevent,hcallee⟩ := mem_filterMap.mp hcalled
  obtain ⟨front,behind,hsplit⟩ := append_of_mem hevent
  have hcallees : notification.callees =
      front.filterMap NotificationEvent.callee ++ listener::behind.filterMap NotificationEvent.callee := by
    rw [callees,hsplit,filterMap_append,filterMap_cons_some hcallee]
  refine ⟨_,_,hcallees,?_⟩
  intro hother
  -- the other one was called first, when the listener stood in front of it
  obtain ⟨event',hevent',hcallee'⟩ := mem_filterMap.mp hother
  obtain ⟨earlier,between,rfl⟩ := append_of_mem hevent'
  cases event' with
  | changed call => cases hcallee'
  | called other' result =>
    obtain rfl := some.inj hcallee'
    rw [append_assoc,cons_append] at hsplit
    obtain ⟨-,before,rest,hafter,hcalled'⟩ := h.first earlier other' result _ hsplit
    have hearlier : ∀ event ∈ earlier, event.unregisters listener = false := by
      intro event hmem
      apply hkept
      rw [hsplit]
      exact mem_append_left _ hmem
    obtain ⟨front',behind',hfront',hnot⟩ := NotificationEvent.precedes_registeredAfter hbefore hearlier
    have hmem : listener ∈ before ∨ listener = other' := by
      rw [hafter] at hfront'
      rcases append_eq_append_iff.mp hfront' with ⟨middle,hlonger,hrest⟩ | ⟨middle,hshorter,hrest⟩
      · cases middle with
        | nil => exact .inr (List.cons.inj hrest).1.symm
        | cons first middle =>
          obtain ⟨rfl,-⟩ := List.cons.inj hrest
          exact absurd (hlonger ▸ mem_append_right _ mem_cons_self) hnot
      · cases middle with
        | nil => exact .inr (List.cons.inj hrest).1
        | cons first middle =>
          obtain ⟨rfl,-⟩ := List.cons.inj hrest
          exact .inl (hshorter ▸ mem_append_right _ mem_cons_self)
    have honce := h.once
    rw [hcallees,nodup_append] at honce
    rcases hmem with hfirst | rfl
    · have hagain : listener ∈ (earlier ++ .called other' result::between).filterMap NotificationEvent.callee := by
        rw [filterMap_append]
        exact mem_append_left _ (hcalled' listener hfirst)
      exact honce.2.2 listener hagain listener mem_cons_self rfl
    · exact honce.2.2 listener hother listener mem_cons_self rfl

/-- Notification is robust against what the callbacks do to the registry. -/
theorem notification_robust (callback : Callback σ L) (surroundings : σ) (registered : List L) :
    ((∃ bound, ∀ reached, Reaches (step callback) anyAction (begin surroundings registered) reached →
        reached.registrations.length ≤ bound) →
      ∃ fuel outcome, notifyListener callback fuel (begin surroundings registered) = some outcome) ∧
    (∀ reached, Reaches (step callback) anyAction (begin surroundings registered) reached → reached.callees.Nodup ∧
      ∀ front listener result behind, reached.events = front ++ .called listener result::behind →
        FirstNotCalled registered front listener) ∧
    ∀ fuel outcome, notifyListener callback fuel (begin surroundings registered) = some outcome →
      (∀ listener, StaysRegistered registered outcome.events listener → outcome.callees.count listener = 1) ∧
      (∀ listener other, (∀ event ∈ outcome.events, event.unregisters listener = false) →
        Precedes registered listener other → Precedes outcome.callees listener other) ∧
      outcome.result = (outcome.results.find? isFailed).getD .errNoError := by
  refine ⟨?_,?_,?_⟩
  · rintro ⟨bound,hbound⟩
    exact ⟨registered.length + bound + 1,exists_outcome hbound .refl (by simp [begin])⟩
  · intro reached hreach
    have hinv := notificationInv_of_reaches hreach
    exact ⟨hinv.once,hinv.first⟩
  · intro fuel outcome hrun
    obtain ⟨hreach,hend⟩ := reaches_outcome hrun
    have hinv := notificationInv_of_reaches hreach
    refine ⟨?_,?_,hinv.result⟩
    · intro listener hstays
      have hmem := hstays outcome.events prefix_rfl
      rw [← hinv.registry] at hmem
      exact nodup_iff_count_eq_one.mp hinv.once _ (mem_callees hinv hend hmem)
    · intro listener other hkept hbefore
      have hmem : listener ∈ outcome.registered := by
        obtain ⟨before,behind,hafter,-⟩ := NotificationEvent.precedes_registeredAfter hbefore hkept
        rw [hinv.registry,hafter]
        exact mem_append_right _ mem_cons_self
      exact precedes_callees hinv (mem_callees hinv hend hmem) hkept hbefore

/-- The first listener takes itself and the second one out for a fourth, the third one fails, and the fourth
brings the first one back. -/
def relaying : Callback Unit Nat
  | _, _, 1 => ((),[.unregisterListener (some 1),.registerListener (some 4),.unregisterListener (some 2)],.errNoError)
  | _, _, 3 => ((),[],.errNotFound)
  | _, _, 4 => ((),[.registerListener (some 1)],.errFailed)
  | _, _, _ => ((),[],.errNoError)

private def turns : Nat → Notification Unit Nat
  | 0 => begin () [1,2,3]
  | n + 1 => ((turns n).turn relaying).getD (turns n)

private theorem exists_turns {reached : Notification Unit Nat}
    (h : Reaches (step relaying) anyAction (begin () [1,2,3]) reached) : ∃ n ≤ 3, reached = turns n := by
  induction h with
  | refl => exact ⟨0,Nat.zero_le 3,rfl⟩
  | tail _ _ hstep ih =>
    obtain ⟨n,hle,rfl⟩ := ih
    rcases Nat.lt_or_eq_of_le hle with hlt | rfl
    · exact ⟨n + 1,hlt,by rw [turns,show (turns n).turn relaying = some _ from hstep,getD_some]⟩
    · cases hstep

theorem notification_robust_relaying :
    (∃ fuel outcome, notifyListener relaying fuel (begin () [1,2,3]) = some outcome) ∧
    ∃ outcome, notifyListener relaying 4 (begin () [1,2,3]) = some outcome ∧ outcome.callees = [1,3,4] ∧
      outcome.result = .errNotFound := by
  refine ⟨(notification_robust relaying () [1,2,3]).1 ⟨2,fun reached hreach => ?_⟩,_,rfl,rfl,rfl⟩
  obtain ⟨n,hle,rfl⟩ := exists_turns hreach
  have hall : ∀ n ≤ 3, (turns n).registrations.length ≤ 2 := by decide
  exact hall n hle

end Notification
end FepParticipant.StateMachine
