import FepParticipant.Library.Reachability
import FepParticipant.Result
import Mathlib.Data.List.Basic

/-! What the signal mapping keeps for the mapping engine: sources, with their signals and data listeners, and periodic
timers, with their step listeners. -/
namespace FepParticipant.Mapping
open Library List

/-- A step listener, whose distinct name tells the period; its callee is a periodic listener's wrapper, maybe erased. -/
structure PeriodicStepListener where
  tmPeriod : Int
  pListener : Nat
  erased : Bool
  deriving DecidableEq

/-- The maps of `cSignalMapping`, its signals, data listeners and step listeners, and on record the sources and timers
registered with success. -/
structure EngineEnvironment where
  m_mapListenerTranslation : List (Nat × Option Nat)
  m_mapPeriodicWrappers : List Nat
  signals : List Nat
  dataListeners : List Nat
  stepListeners : List PeriodicStepListener
  sources : List Nat
  timers : List (Int × Nat)

/-- The calls of the engine, with what the components that they call return. -/
inductive EngineCall where
  | registerSource (pListener hHandle : Nat) (signalRegistered listenerRegistered : Result)
  | unregisterSource (hHandle : Nat) (signalUnregistered listenerUnregistered : Result)
  | registerPeriodicTimer (tmPeriod : Int) (pListener : Nat) (stepListenerRegistered : Result)
  | unregisterPeriodicTimer (tmPeriod : Int) (pListener : Nat) (stepListenerUnregistered : Result)
  | update (hHandle : Nat)

namespace EngineEnvironment
variable (environment : EngineEnvironment)

def new : EngineEnvironment := ⟨[],[],[],[],[],[],[]⟩

def registerSource (pListener hHandle : Nat) (signalRegistered listenerRegistered : Result) :
    EngineEnvironment × Result :=
  if isOk signalRegistered then
    let environment := {environment with signals := hHandle::environment.signals}
    if isOk listenerRegistered then
      let translation := environment.m_mapListenerTranslation
      ({ environment with
        dataListeners := hHandle::environment.dataListeners
        m_mapListenerTranslation :=
          if hHandle ∈ translation.map Prod.fst then translation
          else (hHandle,some pListener)::translation },
        listenerRegistered)
    else (environment,listenerRegistered)
  else (environment,signalRegistered)

def unregisterSource (hHandle : Nat) (signalUnregistered listenerUnregistered : Result) : EngineEnvironment × Result :=
  if isOk signalUnregistered then
    let environment := {environment with signals := environment.signals.filter (· ≠ hHandle)}
    if isOk listenerUnregistered then
      ({ environment with
        dataListeners := environment.dataListeners.filter (· ≠ hHandle)
        m_mapListenerTranslation := environment.m_mapListenerTranslation.filter (·.1 ≠ hHandle) },
        listenerUnregistered)
    else (environment,listenerUnregistered)
  else (environment,signalUnregistered)

/-- `RegisterStepListener`, which fails for a name that is in use. -/
def registerStepListener (tmPeriod : Int) (pListener : Nat) (stepListenerRegistered : Result) :
    EngineEnvironment × Result :=
  if tmPeriod ∈ environment.stepListeners.map PeriodicStepListener.tmPeriod then (environment,.errResourceInUse)
  else if isOk stepListenerRegistered then
    ({environment with stepListeners := ⟨tmPeriod,pListener,false⟩::environment.stepListeners},
      stepListenerRegistered)
  else (environment,stepListenerRegistered)

def registerPeriodicTimer (tmPeriod : Int) (pListener : Nat) (stepListenerRegistered : Result) :
    EngineEnvironment × Result :=
  if pListener ∈ environment.m_mapPeriodicWrappers then (environment,.errNoError)
  else
    registerStepListener
      {environment with m_mapPeriodicWrappers := pListener::environment.m_mapPeriodicWrappers}
      tmPeriod pListener stepListenerRegistered

/-- The step listeners that `UnregisterStepListener` leaves. -/
def unregisterStepListener (tmPeriod : Int) (stepListenerUnregistered : Result) : List PeriodicStepListener :=
  if isOk stepListenerUnregistered then environment.stepListeners.filter (·.tmPeriod ≠ tmPeriod)
  else environment.stepListeners

/-- The result of `UnregisterStepListener` is not looked at. -/
def unregisterPeriodicTimer (tmPeriod : Int) (pListener : Nat) (stepListenerUnregistered : Result) :
    EngineEnvironment × Result :=
  if pListener ∈ environment.m_mapPeriodicWrappers then
    ({ environment with
      m_mapPeriodicWrappers := environment.m_mapPeriodicWrappers.filter (· ≠ pListener)
      stepListeners := (environment.unregisterStepListener tmPeriod stepListenerUnregistered).map fun listener =>
        if listener.pListener = pListener then {listener with erased := true} else listener },.errNoError)
  else (environment,.errNoError)

/-- `Update` for a sample. A handle without an entry gets one, whose listener is none: the call ends there. -/
def update (hHandle : Nat) : EngineEnvironment :=
  if hHandle ∈ environment.m_mapListenerTranslation.map Prod.fst then environment
  else {environment with m_mapListenerTranslation := (hHandle,none)::environment.m_mapListenerTranslation}

/-- A new source has a handle of its own, only registered signals are unregistered, and samples come for handles
with a data listener. -/
def step : EngineCall → Option EngineEnvironment
  | .registerSource pListener hHandle signalRegistered listenerRegistered =>
    let (next,nRes) := environment.registerSource pListener hHandle signalRegistered listenerRegistered
    if hHandle ∈ environment.signals then none
    else some {next with sources := if isOk nRes then hHandle::next.sources else next.sources}
  | .unregisterSource hHandle signalUnregistered listenerUnregistered =>
    let (next,_) := environment.unregisterSource hHandle signalUnregistered listenerUnregistered
    if hHandle ∉ environment.signals then none
    else some { next with
      sources := if isOk signalUnregistered then next.sources.filter (· ≠ hHandle) else next.sources }
  | .registerPeriodicTimer tmPeriod pListener stepListenerRegistered =>
    let (next,nRes) := environment.registerPeriodicTimer tmPeriod pListener stepListenerRegistered
    some {next with timers := if isOk nRes then (tmPeriod,pListener)::next.timers else next.timers}
  | .unregisterPeriodicTimer tmPeriod pListener stepListenerUnregistered =>
    let (next,_) := environment.unregisterPeriodicTimer tmPeriod pListener stepListenerUnregistered
    some {next with timers := next.timers.filter (· ≠ (tmPeriod,pListener))}
  | .update hHandle => if hHandle ∈ environment.dataListeners then some (environment.update hHandle) else none

/-- Every timer has its step listener, none has an erased wrapper, and the entries, signals and data listeners are
those of the sources. -/
structure Kept : Prop where
  timers : ∀ timer ∈ environment.timers, ⟨timer.1,timer.2,false⟩ ∈ environment.stepListeners
  wrappers : ∀ listener ∈ environment.stepListeners, listener.erased = false
  entries : ∀ hHandle, hHandle ∈ environment.m_mapListenerTranslation.map Prod.fst ↔ hHandle ∈ environment.sources
  signals : environment.signals ⊆ environment.sources
  dataListeners : environment.dataListeners ⊆ environment.sources

/-- The calls in the middle do not fail. A listener with a wrapper is registered for its own period alone, and
unregistered from it where no other listener has the period. -/
def Careful : EngineCall → Prop
  | .registerSource _ hHandle signalRegistered listenerRegistered =>
    hHandle ∉ environment.signals → isOk signalRegistered = true → isOk listenerRegistered = true
  | .unregisterSource hHandle signalUnregistered listenerUnregistered =>
    hHandle ∈ environment.signals → isOk signalUnregistered = true → isOk listenerUnregistered = true
  | .registerPeriodicTimer tmPeriod pListener _ =>
    pListener ∈ environment.m_mapPeriodicWrappers → (tmPeriod,pListener) ∈ environment.timers
  | .unregisterPeriodicTimer tmPeriod pListener stepListenerUnregistered =>
    pListener ∈ environment.m_mapPeriodicWrappers →
      (∀ timer ∈ environment.timers, timer.2 = pListener →
        timer.1 = tmPeriod ∧ isOk stepListenerUnregistered = true) ∧
      (∀ timer ∈ environment.timers, timer.1 = tmPeriod → isOk stepListenerUnregistered = true → timer.2 = pListener)
  | .update _ => True

def Keeps (call : EngineCall) : Prop := ∀ next, environment.step call = some next → next.Kept

/-- Beyond what is kept: every step listener is that of a timer whose listener has a wrapper, and every source has a
signal and a data listener. -/
structure Accounted : Prop extends Kept environment where
  listeners : ∀ listener ∈ environment.stepListeners, (listener.tmPeriod,listener.pListener) ∈ environment.timers ∧
    listener.pListener ∈ environment.m_mapPeriodicWrappers
  sources : environment.sources ⊆ environment.signals

variable {environment}

theorem mem_unregisterStepListener {tmPeriod : Int} {stepListenerUnregistered : Result}
    {listener : PeriodicStepListener} :
    listener ∈ environment.unregisterStepListener tmPeriod stepListenerUnregistered ↔
      listener ∈ environment.stepListeners ∧ (isOk stepListenerUnregistered = true → listener.tmPeriod ≠ tmPeriod) := by
  rw [unregisterStepListener]
  split
  · rename_i hok
    simp [(isOk_iff _).mp hok,mem_filter]
  · rename_i hfailed
    exact ⟨fun hmem => ⟨hmem,fun hok => absurd hok hfailed⟩,And.left⟩

theorem Accounted.step (h : environment.Accounted) {call : EngineCall} (hcareful : environment.Careful call) {next}
    (hstep : environment.step call = some next) : next.Accounted := by
  cases call with
  | registerSource pListener hHandle signalRegistered listenerRegistered =>
    simp only [EngineEnvironment.step] at hstep
    split at hstep
    · cases hstep
    · rename_i hnew
      cases hstep
      have hentry : hHandle ∉ environment.m_mapListenerTranslation.map Prod.fst := fun hentry =>
        hnew (h.sources ((h.entries hHandle).mp hentry))
      cases hsignal : isOk signalRegistered with
      | false =>
        simp only [EngineEnvironment.registerSource,hsignal,Bool.false_eq_true,if_false]
        exact h
      | true =>
        have hlistener : isOk listenerRegistered = true := hcareful hnew hsignal
        simp only [EngineEnvironment.registerSource,hsignal,hlistener,if_true,if_neg hentry]
        refine ⟨⟨h.timers,h.wrappers,fun handle => ?_,?_,?_⟩,h.listeners,?_⟩
        · simp only [map_cons,mem_cons,h.entries]
        · exact cons_subset_cons _ h.signals
        · exact cons_subset_cons _ h.dataListeners
        · exact cons_subset_cons _ h.sources
  | unregisterSource hHandle signalUnregistered listenerUnregistered =>
    simp only [EngineEnvironment.step] at hstep
    split at hstep
    · cases hstep
    · rename_i hregistered
      cases hstep
      cases hsignal : isOk signalUnregistered with
      | false =>
        simp only [EngineEnvironment.unregisterSource,hsignal,Bool.false_eq_true,if_false]
        exact h
      | true =>
        have hlistener : isOk listenerUnregistered = true := hcareful (not_not.mp hregistered) hsignal
        simp only [EngineEnvironment.unregisterSource,hsignal,hlistener,if_true]
        refine ⟨⟨h.timers,h.wrappers,fun handle => ?_,?_,?_⟩,h.listeners,?_⟩
        · have hentries := h.entries handle
          simp only [mem_map,mem_filter,decide_eq_true_eq] at hentries ⊢
          rw [← hentries]
          constructor
          · rintro ⟨entry,⟨hmem,hne⟩,rfl⟩
            exact ⟨⟨entry,hmem,rfl⟩,hne⟩
          · rintro ⟨⟨entry,hmem,rfl⟩,hne⟩
            exact ⟨entry,⟨hmem,hne⟩,rfl⟩
        · exact filter_subset _ h.signals
        · exact filter_subset _ h.dataListeners
        · exact filter_subset _ h.sources
  | registerPeriodicTimer tmPeriod pListener stepListenerRegistered =>
    simp only [EngineEnvironment.step,Option.some.injEq] at hstep
    subst hstep
    by_cases hwrapper : pListener ∈ environment.m_mapPeriodicWrappers
    · have htimer := hcareful hwrapper
      simp only [EngineEnvironment.registerPeriodicTimer,if_pos hwrapper,isOk_iff,if_true]
      refine ⟨⟨forall_mem_cons.mpr ⟨h.timers _ htimer,h.timers⟩,h.wrappers,h.entries,h.signals,
        h.dataListeners⟩,fun listener hlistener => ?_,h.sources⟩
      exact (h.listeners listener hlistener).imp_left (mem_cons_of_mem _)
    · have hfailed : Accounted { environment with
          m_mapPeriodicWrappers := pListener::environment.m_mapPeriodicWrappers } :=
        ⟨⟨h.timers,h.wrappers,h.entries,h.signals,h.dataListeners⟩,fun listener hlistener =>
          (h.listeners listener hlistener).imp_right (mem_cons_of_mem _),h.sources⟩
      simp only [EngineEnvironment.registerPeriodicTimer,if_neg hwrapper,registerStepListener]
      split
      · exact hfailed
      · cases hregistered : isOk stepListenerRegistered with
        | false =>
          simp only [hregistered,Bool.false_eq_true,if_false]
          exact hfailed
        | true =>
          simp only [hregistered,if_true]
          refine ⟨⟨forall_mem_cons.mpr ⟨mem_cons_self,fun timer htimer => ?_⟩,?_,h.entries,h.signals,
            h.dataListeners⟩,?_,h.sources⟩
          · exact mem_cons_of_mem _ (h.timers timer htimer)
          · exact forall_mem_cons.mpr ⟨rfl,h.wrappers⟩
          · refine forall_mem_cons.mpr ⟨⟨mem_cons_self,mem_cons_self⟩,fun listener hlistener => ?_⟩
            exact (h.listeners listener hlistener).imp (mem_cons_of_mem _) (mem_cons_of_mem _)
  | unregisterPeriodicTimer tmPeriod pListener stepListenerUnregistered =>
    simp only [EngineEnvironment.step,Option.some.injEq] at hstep
    subst hstep
    by_cases hwrapper : pListener ∈ environment.m_mapPeriodicWrappers
    · obtain ⟨hown,hothers⟩ := hcareful hwrapper
      have hother : ∀ listener ∈ environment.unregisterStepListener tmPeriod stepListenerUnregistered,
          listener.pListener ≠ pListener := fun listener hlistener hsame => by
        obtain ⟨hmem,hleft⟩ := mem_unregisterStepListener.mp hlistener
        obtain ⟨hperiod,hok⟩ := hown _ (h.listeners listener hmem).1 hsame
        exact hleft hok hperiod
      have hmap : (environment.unregisterStepListener tmPeriod stepListenerUnregistered).map (fun listener =>
          if listener.pListener = pListener then {listener with erased := true} else listener) =
          environment.unregisterStepListener tmPeriod stepListenerUnregistered :=
        (map_congr_left fun listener hlistener => if_neg (hother listener hlistener)).trans (map_id' _)
      simp only [EngineEnvironment.unregisterPeriodicTimer,if_pos hwrapper,hmap]
      refine ⟨⟨fun timer htimer => ?_,fun listener hlistener => ?_,h.entries,h.signals,h.dataListeners⟩,
        fun listener hlistener => ?_,h.sources⟩
      · obtain ⟨htimer,hne⟩ := mem_filter.mp htimer
        refine mem_unregisterStepListener.mpr ⟨h.timers timer htimer,fun hok hperiod => ?_⟩
        exact of_decide_eq_true hne (Prod.ext hperiod (hothers timer htimer hperiod hok))
      · exact h.wrappers listener (mem_unregisterStepListener.mp hlistener).1
      · have hne := hother listener hlistener
        obtain ⟨htimer,hlistenerWrapper⟩ := h.listeners listener (mem_unregisterStepListener.mp hlistener).1
        refine ⟨mem_filter.mpr ⟨htimer,decide_eq_true fun hsame => hne ?_⟩,
          mem_filter.mpr ⟨hlistenerWrapper,decide_eq_true hne⟩⟩
        exact congrArg Prod.snd hsame
    · simp only [EngineEnvironment.unregisterPeriodicTimer,if_neg hwrapper]
      refine ⟨⟨fun timer htimer => h.timers timer (mem_filter.mp htimer).1,h.wrappers,h.entries,h.signals,
        h.dataListeners⟩,fun listener hlistener => ?_,h.sources⟩
      obtain ⟨htimer,hlistenerWrapper⟩ := h.listeners listener hlistener
      refine ⟨mem_filter.mpr ⟨htimer,decide_eq_true fun hsame => hwrapper ?_⟩,hlistenerWrapper⟩
      rwa [← show listener.pListener = pListener from congrArg Prod.snd hsame]
  | update hHandle =>
    simp only [EngineEnvironment.step] at hstep
    split at hstep
    · rename_i hlistener
      cases hstep
      rw [EngineEnvironment.update,if_pos ((h.entries hHandle).mpr (h.dataListeners hlistener))]
      exact h
    · cases hstep

/-- A failure in the middle leaves a signal or an entry of no source; a second period, or one of another listener,
leaves a timer without step listener or a step listener without wrapper. -/
theorem Accounted.careful (h : environment.Accounted) {call : EngineCall} (hkeeps : environment.Keeps call) :
    environment.Careful call := by
  cases call with
  | registerSource pListener hHandle signalRegistered listenerRegistered =>
    intro hnew hsignal
    by_contra hlistener
    simp only [Keeps,EngineEnvironment.step,registerSource,if_neg hnew,hsignal,if_true,if_neg hlistener,
      Option.some.injEq,forall_eq'] at hkeeps
    exact hnew (h.sources (hkeeps.signals mem_cons_self))
  | unregisterSource hHandle signalUnregistered listenerUnregistered =>
    intro hregistered hsignal
    by_contra hlistener
    simp only [Keeps,EngineEnvironment.step,unregisterSource,if_neg (not_not.mpr hregistered),hsignal,if_true,
      if_neg hlistener,Option.some.injEq,forall_eq'] at hkeeps
    have hentry := (hkeeps.entries hHandle).mp ((h.entries hHandle).mpr (h.signals hregistered))
    exact of_decide_eq_true (mem_filter.mp hentry).2 rfl
  | registerPeriodicTimer tmPeriod pListener stepListenerRegistered =>
    intro hwrapper
    simp only [Keeps,EngineEnvironment.step,registerPeriodicTimer,if_pos hwrapper,isOk_iff,if_true,
      Option.some.injEq,forall_eq'] at hkeeps
    exact (h.listeners _ (hkeeps.timers _ mem_cons_self)).1
  | unregisterPeriodicTimer tmPeriod pListener stepListenerUnregistered =>
    intro hwrapper
    simp only [Keeps,EngineEnvironment.step,unregisterPeriodicTimer,if_pos hwrapper,Option.some.injEq,
      forall_eq'] at hkeeps
    constructor
    · intro timer htimer hsame
      by_contra hnot
      have hleft := mem_unregisterStepListener.mpr ⟨h.timers timer htimer,fun hok hperiod => hnot ⟨hperiod,hok⟩⟩
      have herased := hkeeps.wrappers _ (mem_map_of_mem hleft)
      rw [if_pos hsame] at herased
      cases herased
    · intro timer htimer hperiod hok
      by_contra hne
      have hmem := hkeeps.timers timer (mem_filter.mpr ⟨htimer,decide_eq_true fun hsame =>
        hne (congrArg Prod.snd hsame)⟩)
      obtain ⟨listener,hlistener,heq⟩ := mem_map.mp hmem
      refine (mem_unregisterStepListener.mp hlistener).2 hok ?_
      rw [← hperiod]
      split at heq
      · cases congrArg PeriodicStepListener.erased heq
      · rw [heq]
  | update hHandle => trivial

/-- In a run everything is kept exactly if every call is careful. -/
theorem engine_environment_kept_iff (calls : List EngineCall) :
    Throughout step Keeps new calls ↔ Throughout step Careful new calls := by
  refine throughout_iff (fun environment call (h : environment.Accounted) => ⟨h.careful,fun hcareful next hstep =>
    (h.step hcareful hstep).toKept⟩) (fun environment call next h hcareful hstep => h.step hcareful hstep) ?_ calls
  exact ⟨⟨nofun,nofun,fun _ => Iff.rfl,List.Subset.refl _,List.Subset.refl _⟩,nofun,List.Subset.refl _⟩

/-- A listener that is registered for a second period reports success without a step listener for it. -/
theorem second_period_ignored : ¬∀ calls, Throughout step Keeps new calls := by
  intro h
  obtain ⟨-,hrun⟩ := h [.registerPeriodicTimer 1000 1 .errNoError,.registerPeriodicTimer 2000 1 .errNoError]
  have hkept := (hrun _ rfl).1 _ rfl
  exact absurd (hkept.timers (2000,1) (by decide)) (by decide)

end EngineEnvironment
end FepParticipant.Mapping
