import FepParticipant.Incidents.StrategyBookkeeping
import FepParticipant.Library.OrderedMap

/-! Which strategies an incident is handed to: every one at most once, whatever the catch-all strategies and the
delegates of its code have in common. -/
namespace FepParticipant.Incidents
open Library List

/-- The arguments of `InvokeIncident`. -/
structure LocalIncident where
  nIncidentCode : Int
  severity : SeverityLevel
  strDescription : Option String
  strOrigin : Option String
  nLine : Int
  strFile : Option String

/-- The arguments of `ForwardIncident`. -/
structure GlobalIncident where
  nIncidentCode : Int
  severity : SeverityLevel
  strSource : Option String
  tmSimTime : Int
  strDescription : Option String

namespace IncidentHandler

/-- `m_pNotifStratRef`, which is there as long as the handler has its module. -/
def notifStratRef : Nat := IncidentStrategy.esLogNotification.stratRef

/-- The strategies that were called, and `bCriticalHandledByNotification`. -/
abbrev Called := List Nat × Bool

def callStrategy (called : Called) (strategy : Nat) : Called :=
  (called.1 ++ [strategy],called.2 || notifStratRef == strategy)

/-- The loop over the catch-all strategies, of which the enabled ones are called. -/
def callCatchAll (handler : IncidentHandler) (called : Called) : Called :=
  handler.catchAllDelegates.foldl (fun called delegate =>
    if delegate.2 then callStrategy called delegate.1 else called) called

def callsDelegate (handler : IncidentHandler) (strategy : Nat) : Bool :=
  match handler.catchAllDelegates.lookup strategy with
  | none => true
  | some enabled => !enabled

/-- The loop over the delegates of a code. -/
def callDelegates (handler : IncidentHandler) (incident : Int) (called : Called) : Called :=
  (handler.delegatesOf incident).foldl (fun called strategy =>
    if handler.callsDelegate strategy then callStrategy called strategy else called) called

/-- `ForwardIncident`, with the strategies whose `HandleGlobalIncident` is called. -/
def forwardIncident (handler : IncidentHandler) (bEnabled : Bool) (incident : GlobalIncident) : Result × List Nat :=
  if incident.strSource.isNone then (.errInvalidArg,[])
  else if !bEnabled then (.errNotReady,[])
  else if incident.nIncidentCode = 0 then (.errInvalidArg,[])
  else (.errNoError,(handler.callDelegates incident.nIncidentCode (handler.callCatchAll ([],false))).1)

/-- `InvokeIncident`, with the strategies whose `HandleLocalIncident` is called. -/
def invokeIncident (handler : IncidentHandler) (bEnabled : Bool) (incident : LocalIncident) : Result × List Nat :=
  if !handler.hasModule then (.errNotInitialised,[])
  else if !bEnabled then (.errNotReady,[])
  else if incident.nIncidentCode = 0 then (.errInvalidArg,[])
  else
    let called := handler.callDelegates incident.nIncidentCode (handler.callCatchAll ([],false))
    if incident.severity = .criticalGlobal && !called.2 then (.errNoError,called.1 ++ [notifStratRef])
    else (.errNoError,called.1)

def enabledCatchAll (handler : IncidentHandler) : List Nat :=
  (handler.catchAllDelegates.filter fun delegate => delegate.2).map fun delegate => delegate.1

/-- The strategies that both loops call. -/
def dispatched (handler : IncidentHandler) (incident : Int) : List Nat :=
  handler.enabledCatchAll ++ (handler.delegatesOf incident).filter handler.callsDelegate

/-- The strategy is enabled as catch-all or associated with the code. -/
def Concerned (handler : IncidentHandler) (incident : Int) (strategy : Nat) : Prop :=
  (strategy,true) ∈ handler.catchAllDelegates ∨ (incident,strategy) ∈ handler.incidentDelegates

/-- No strategy catches all twice, and none is associated twice with a code. -/
structure Distinct (handler : IncidentHandler) : Prop where
  hasModule : handler.hasModule = true
  catchAll : handler.catchAll.Nodup
  delegates : handler.incidentDelegates.Nodup

/-- The strategies are called once each, and they are those of a set. -/
def CallsExactly (called : List Nat) (wanted : Nat → Prop) : Prop :=
  called.Nodup ∧ ∀ strategy, strategy ∈ called ↔ wanted strategy

variable {handler next : IncidentHandler} {strategy : Nat} {incident : Int}

private theorem foldl_callStrategy {α : Type} (test : α → Bool) (delegate : α → Nat) (l : List α) (called : Called) :
    l.foldl (fun called a => if test a then callStrategy called (delegate a) else called) called =
      (called.1 ++ (l.filter test).map delegate,
        called.2 || ((l.filter test).map delegate).contains notifStratRef) := by
  induction l generalizing called with
  | nil => simp
  | cons a l ih =>
    rw [foldl_cons,ih]
    by_cases htest : test a = true
    · rw [if_pos htest,filter_cons_of_pos htest,map_cons,contains_cons,callStrategy,append_assoc,Bool.or_assoc]
      rfl
    · rw [if_neg htest,filter_cons_of_neg htest]

theorem callDelegates_callCatchAll : handler.callDelegates incident (handler.callCatchAll ([],false)) =
      (handler.dispatched incident,(handler.dispatched incident).contains notifStratRef) := by
  have hcatchAll : handler.callCatchAll ([],false) =
      (handler.enabledCatchAll,handler.enabledCatchAll.contains notifStratRef) :=
    foldl_callStrategy _ _ handler.catchAllDelegates ([],false)
  have hdelegates := foldl_callStrategy handler.callsDelegate id (handler.delegatesOf incident)
    (handler.enabledCatchAll,handler.enabledCatchAll.contains notifStratRef)
  rw [map_id] at hdelegates
  rw [hcatchAll,callDelegates,dispatched,contains_append]
  exact hdelegates

theorem mem_enabledCatchAll : strategy ∈ handler.enabledCatchAll ↔ (strategy,true) ∈ handler.catchAllDelegates := by
  simp [enabledCatchAll]

private theorem callsDelegate_iff (h : handler.catchAll.Nodup) :
    handler.callsDelegate strategy = true ↔ strategy ∉ handler.enabledCatchAll := by
  rw [mem_enabledCatchAll,← OrderedMap.lookup_eq_some_iff_mem h,callsDelegate]
  cases handler.catchAllDelegates.lookup strategy with
  | none => simp
  | some enabled => cases enabled <;> simp

private theorem nodup_delegatesOf (h : handler.incidentDelegates.Nodup) : (handler.delegatesOf incident).Nodup := by
  refine List.Nodup.map_on ?_ (h.filter _)
  rintro ⟨code,lhs⟩ hlhs ⟨code',rhs⟩ hrhs hsame
  have hcode := (mem_filter.mp hlhs).2
  have hcode' := (mem_filter.mp hrhs).2
  rw [beq_iff_eq] at hcode hcode'
  exact Prod.ext (hcode.trans hcode'.symm) hsame

/-- Both loops together call each strategy once, and all that are enabled as catch-all or associated with the code. -/
theorem dispatched_exactly (h : handler.Distinct) :
    CallsExactly (handler.dispatched incident) (handler.Concerned incident) := by
  constructor
  · refine nodup_append.mpr ⟨?_,(nodup_delegatesOf h.delegates).filter _,?_⟩
    · exact h.catchAll.sublist (filter_sublist.map _)
    · rintro lhs hlhs rhs hrhs rfl
      exact (callsDelegate_iff h.catchAll).mp (mem_filter.mp hrhs).2 hlhs
  · intro strategy
    rw [dispatched,mem_append,mem_filter,mem_delegatesOf,callsDelegate_iff h.catchAll,mem_enabledCatchAll,Concerned]
    by_cases henabled : (strategy,true) ∈ handler.catchAllDelegates
    · simp [henabled]
    · simp [henabled]

private theorem insertDelegate_perm (entry : Int × Nat) (delegates : List (Int × Nat)) :
    (insertDelegate entry delegates).Perm (entry::delegates) := by
  induction delegates with
  | nil => exact .refl _
  | cons delegate delegates ih =>
    rw [insertDelegate]
    split
    · exact .refl _
    · exact (ih.cons delegate).trans (.swap entry delegate delegates)

private theorem nodup_insertDelegate {entry : Int × Nat} {delegates : List (Int × Nat)} (hnew : entry ∉ delegates)
    (h : delegates.Nodup) : (insertDelegate entry delegates).Nodup :=
  (insertDelegate_perm entry delegates).nodup_iff.mpr (nodup_cons.mpr ⟨hnew,h⟩)

section
variable (h : handler.Distinct)
include h

theorem distinct_configure (strategy : Nat) (path : String) (answers : ConfigAnswers) :
    (handler.configure strategy path answers).1.Distinct := by
  rcases handler.configure_cases strategy path answers with ⟨-,hkept,-⟩ | ⟨-,-,hnext⟩
  · rwa [hkept]
  · rw [hnext]
    split
    · exact h
    · exact ⟨h.hasModule,h.catchAll,h.delegates⟩

theorem distinct_dropWrapper (strategy : Nat) : (handler.dropWrapper strategy).Distinct := by
  unfold dropWrapper
  split
  · exact h
  · exact ⟨h.hasModule,h.catchAll,h.delegates⟩

theorem distinct_associateStrategy (incident : Int) (strategyDelegate : Option Nat)
    (configurationPath : Option String) (association : StrategyAssociation) (answers : ConfigAnswers) :
    (handler.associateStrategy incident strategyDelegate configurationPath association answers).1.Distinct := by
  rw [associateStrategy.eq_def]
  split
  · exact h
  split
  · exact h
  · exact h
  · rename_i strategy path
    split
    · exact h
    cases association with
    | append =>
      dsimp only
      split
      · exact h
      · rename_i hnew
        rw [contains_iff_mem,mem_delegatesOf] at hnew
        refine distinct_configure ?_ strategy path answers
        exact ⟨h.hasModule,h.catchAll,nodup_insertDelegate hnew h.delegates⟩
    | replace =>
      have hnew : (incident,strategy) ∉ handler.incidentDelegates.filter fun entry => entry.1 != incident := by
        simp
      refine distinct_configure ?_ strategy path answers
      exact ⟨h.hasModule,h.catchAll,nodup_insertDelegate hnew (h.delegates.filter _)⟩

theorem distinct_associateCatchAll (strategyDelegate : Option Nat)
    (configurationPath : Option String) (association : StrategyAssociation) (answers : ConfigAnswers) :
    (handler.associateCatchAllStrategy strategyDelegate configurationPath association answers).1.Distinct := by
  rw [associateCatchAllStrategy.eq_def]
  split
  · exact h
  · exact h
  · rename_i strategy path
    split
    · exact h
    cases association with
    | append =>
      dsimp only
      split
      · exact h
      · rename_i hnew
        rw [contains_iff_mem] at hnew
        have hcatchAll : ((handler.catchAllDelegates ++ [(strategy,true)]).map fun delegate => delegate.1).Nodup := by
          rw [map_append,nodup_append]
          refine ⟨h.catchAll,nodup_singleton strategy,?_⟩
          rintro lhs hlhs rhs hrhs rfl
          cases mem_singleton.mp hrhs
          exact hnew hlhs
        refine distinct_configure ?_ strategy path answers
        exact ⟨h.hasModule,hcatchAll,h.delegates⟩
    | replace =>
      refine distinct_configure ?_ strategy path answers
      exact ⟨h.hasModule,nodup_singleton strategy,h.delegates⟩

private theorem distinct_disassociateStrategy (incident : Int) (strategyDelegate : Option Nat) :
    (handler.disassociateStrategy incident strategyDelegate).1.Distinct := by
  cases strategyDelegate with
  | none => exact h
  | some strategy =>
    refine distinct_dropWrapper ?_ strategy
    exact ⟨h.hasModule,h.catchAll,h.delegates.filter _⟩

private theorem distinct_disassociateCatchAll (strategyDelegate : Option Nat) :
    (handler.disassociateCatchAllStrategy strategyDelegate).1.Distinct := by
  cases strategyDelegate with
  | none => exact h
  | some strategy =>
    refine distinct_dropWrapper ?_ strategy
    exact ⟨h.hasModule,h.catchAll.sublist (filter_sublist.map _),h.delegates⟩

private theorem distinct_processPropertyChange {which : IncidentStrategy} {getValue : Except Result Bool}
    {result : Result} (hnext : handler.processPropertyChange which getValue = some (next,result)) : next.Distinct := by
  obtain ⟨hmodule,hcatchAll,hdelegates,-⟩ := processPropertyChange_kept hnext
  exact ⟨hmodule.trans h.hasModule,hcatchAll ▸ h.catchAll,hdelegates ▸ h.delegates⟩

theorem distinct_step {action : HandlerAction} (hstep : handler.step action = some next) : next.Distinct := by
  obtain ⟨⟨after,result⟩,hcall,rfl⟩ := Option.map_eq_some_iff.mp hstep
  cases action with
  | associateStrategy incident strategyDelegate configurationPath association answers =>
    cases hcall
    exact distinct_associateStrategy h incident strategyDelegate configurationPath association answers
  | associateBuiltIn incident strategy association answers =>
    cases hcall
    exact distinct_associateStrategy h incident (some strategy.stratRef) (some strategy.configurationPath) association
      answers
  | associateCatchAllStrategy strategyDelegate configurationPath association answers =>
    cases hcall
    exact distinct_associateCatchAll h strategyDelegate configurationPath association answers
  | disassociateStrategy incident strategyDelegate =>
    have hafter := distinct_disassociateStrategy h incident strategyDelegate
    rwa [Option.some.inj hcall] at hafter
  | disassociateBuiltIn incident strategy =>
    have hafter := distinct_disassociateStrategy h incident (some strategy.stratRef)
    rwa [← disassociateBuiltIn,Option.some.inj hcall] at hafter
  | disassociateCatchAllStrategy strategyDelegate =>
    have hafter := distinct_disassociateCatchAll h strategyDelegate
    rwa [Option.some.inj hcall] at hafter
  | processPropertyChange strategy getValue => exact distinct_processPropertyChange h hcall

theorem invokeIncident_exactly (incident : LocalIncident) (hcode : incident.nIncidentCode ≠ 0) :
    (handler.invokeIncident true incident).1 = .errNoError ∧
      CallsExactly (handler.invokeIncident true incident).2 fun strategy =>
        handler.Concerned incident.nIncidentCode strategy ∨
          incident.severity = .criticalGlobal ∧ strategy = notifStratRef := by
  obtain ⟨hnodup,hmem⟩ := dispatched_exactly h
  unfold invokeIncident
  rw [h.hasModule,Bool.not_true,if_neg Bool.false_ne_true,if_neg Bool.false_ne_true,if_neg hcode]
  rw [callDelegates_callCatchAll]
  by_cases hcritical : incident.severity = .criticalGlobal
  · by_cases hnotified : notifStratRef ∈ handler.dispatched incident.nIncidentCode
    · rw [if_neg (by simp [hnotified])]
      refine ⟨rfl,hnodup,fun strategy => ?_⟩
      rw [hmem strategy]
      constructor
      · exact .inl
      · rintro (hcalled | ⟨-,rfl⟩)
        · exact hcalled
        · exact (hmem _).mp hnotified
    · rw [if_pos (by simp [hcritical,hnotified])]
      refine ⟨rfl,nodup_append.mpr ⟨hnodup,nodup_singleton _,?_⟩,fun strategy => ?_⟩
      · rintro lhs hlhs rhs hrhs rfl
        exact hnotified (mem_singleton.mp hrhs ▸ hlhs)
      · rw [mem_append,hmem strategy,mem_singleton]
        simp only [hcritical,true_and]
  · rw [if_neg (by simp [hcritical])]
    refine ⟨rfl,hnodup,fun strategy => ?_⟩
    rw [hmem strategy]
    simp only [hcritical,false_and,or_false]

private theorem forwardIncident_exactly (incident : GlobalIncident)
    (hsource : incident.strSource.isSome = true) (hcode : incident.nIncidentCode ≠ 0) :
    (handler.forwardIncident true incident).1 = .errNoError ∧
      CallsExactly (handler.forwardIncident true incident).2 (handler.Concerned incident.nIncidentCode) := by
  have hnone : incident.strSource.isNone = false := by rw [← Option.not_isSome,hsource,Bool.not_true]
  unfold forwardIncident
  rw [hnone,if_neg Bool.false_ne_true,Bool.not_true,if_neg Bool.false_ne_true,if_neg hcode,
    callDelegates_callCatchAll]
  exact ⟨rfl,dispatched_exactly h⟩

end

/-- In every state from a handler that has got its module, an incident is handed once to each enabled catch-all
strategy, each strategy associated with its code, and, if local and critical for all, the notification strategy. -/
theorem incident_dispatch (hreach : Reaches step anyAction {new with hasModule := true} handler) :
    (∀ incident : LocalIncident, incident.nIncidentCode ≠ 0 → (handler.invokeIncident true incident).1 = .errNoError ∧
        CallsExactly (handler.invokeIncident true incident).2 fun strategy =>
          handler.Concerned incident.nIncidentCode strategy ∨
            incident.severity = .criticalGlobal ∧ strategy = notifStratRef) ∧
    ∀ incident : GlobalIncident, incident.strSource.isSome = true → incident.nIncidentCode ≠ 0 →
      (handler.forwardIncident true incident).1 = .errNoError ∧
        CallsExactly (handler.forwardIncident true incident).2 (handler.Concerned incident.nIncidentCode) := by
  have h : handler.Distinct := hreach.invariant ⟨rfl,.nil,.nil⟩ fun _ _ _ hinv _ hstep => distinct_step hinv hstep
  exact ⟨invokeIncident_exactly h,forwardIncident_exactly h⟩

/-- The console strategy catches all, is associated with the code 5 like a strategy of the user, and is called once. -/
theorem incident_dispatch_overlap : ∃ handler : IncidentHandler,
    Reaches step anyAction {new with hasModule := true} handler ∧
      CallsExactly (handler.invokeIncident true ⟨5,.criticalGlobal,none,none,0,none⟩).2 fun strategy =>
        strategy = 1 ∨ strategy = 7 ∨ strategy = 3 := by
  obtain ⟨handler,hreach,hmaps⟩ : ∃ handler, Reaches step anyAction {new with hasModule := true} handler ∧
      handler.catchAllDelegates = [(1,true)] ∧ handler.incidentDelegates = [(5,1),(5,7)] :=
    exists_of_runActions [.associateCatchAllStrategy (some 1) (some "console") .append configured,
      .associateBuiltIn 5 .esLogConsole .append configured,
      .associateStrategy 5 (some 7) (some "user") .append configured] (by decide +kernel)
  obtain ⟨-,hnodup,hmem⟩ := (incident_dispatch hreach).1 ⟨5,.criticalGlobal,none,none,0,none⟩ (by decide)
  refine ⟨handler,hreach,hnodup,fun strategy => ?_⟩
  refine (hmem strategy).trans ?_
  simp only [Concerned,hmaps.1,hmaps.2]
  simp [notifStratRef,IncidentStrategy.stratRef,or_assoc]

end IncidentHandler
end FepParticipant.Incidents
