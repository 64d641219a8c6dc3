import FepParticipant.Incidents.IncidentHandler

/-! Each associated strategy has one wrapper and no other has any, as long as no call gives up
an association without its wrapper or makes one without the wrapper. -/
namespace FepParticipant.Incidents
open Library List

def WrappersExact (wrappers : List StrategyConfigWrapper) (associated : Nat → Prop) : Prop :=
  ∀ strategy, (associated strategy → wrappers.countP (·.strategyDelegate == strategy) = 1) ∧
    (¬associated strategy → wrappers.countP (·.strategyDelegate == strategy) = 0)

section CountP

variable {α : Type} {p q : α → Bool}

theorem countP_eraseP_self (l : List α) : (l.eraseP p).countP p = l.countP p - 1 := by
  induction l with
  | nil => rfl
  | cons a l ih =>
    by_cases ha : p a = true
    · rw [eraseP_cons_of_pos ha,countP_cons_of_pos ha,Nat.add_sub_cancel]
    · rw [eraseP_cons_of_neg ha,countP_cons_of_neg ha,countP_cons_of_neg ha,ih]

theorem countP_eraseP_other (hdisjoint : ∀ a, p a = true → q a = false) (l : List α) :
    (l.eraseP p).countP q = l.countP q := by
  induction l with
  | nil => rfl
  | cons a l ih =>
    by_cases ha : p a = true
    · rw [eraseP_cons_of_pos ha,countP_cons_of_neg (by simp [hdisjoint a ha])]
    · rw [eraseP_cons_of_neg ha,countP_cons,countP_cons,ih]

end CountP

namespace WrappersExact

variable {wrappers : List StrategyConfigWrapper} {associated associated' : Nat → Prop}

section
variable (h : WrappersExact wrappers associated)
include h

theorem congr (hsame : ∀ x, associated' x ↔ associated x) : WrappersExact wrappers associated' := by
  intro x
  rw [hsame x]
  exact h x

theorem any_iff (x : Nat) : wrappers.any (·.strategyDelegate == x) = true ↔ associated x := by
  rw [any_eq_true,← countP_pos_iff]
  constructor
  · intro hpos
    refine Classical.byContradiction fun hnot => ?_
    rw [(h x).2 hnot] at hpos
    exact absurd hpos (Nat.lt_irrefl 0)
  · intro hassociated
    rw [(h x).1 hassociated]
    exact Nat.one_pos

theorem append {strategy : Nat} (hnew : ¬associated strategy)
    (path : String) (hassociated : ∀ x, associated' x ↔ associated x ∨ x = strategy) :
    WrappersExact (wrappers ++ [⟨strategy,path⟩]) associated' := by
  intro x
  rw [hassociated x,countP_append,countP_singleton]
  by_cases hx : x = strategy
  · subst hx
    rw [(h x).2 hnew]
    simp
  · have hother : (strategy == x) = false := by simpa using Ne.symm hx
    simp only [hx,or_false,hother]
    exact h x

theorem eraseP {strategy : Nat} (hassociated : ∀ x, associated' x ↔ associated x ∧ x ≠ strategy) :
    WrappersExact (wrappers.eraseP (·.strategyDelegate == strategy)) associated' := by
  intro x
  rw [hassociated x]
  by_cases hx : x = strategy
  · subst hx
    refine ⟨fun hno => absurd rfl hno.2,fun _ => ?_⟩
    rw [countP_eraseP_self]
    by_cases hold : associated x
    · rw [(h x).1 hold]
    · rw [(h x).2 hold]
  · have hother : ∀ wrapper : StrategyConfigWrapper, (wrapper.strategyDelegate == strategy) = true →
        (wrapper.strategyDelegate == x) = false := by
      intro wrapper hw
      rw [beq_iff_eq.mp hw]
      simpa using Ne.symm hx
    rw [countP_eraseP_other hother]
    simp only [ne_eq,hx,not_false_eq_true,and_true]
    exact h x

end

end WrappersExact

namespace IncidentHandler

variable {handler next : IncidentHandler} {strategy : Nat} {path : String} {answers : ConfigAnswers}

def Associated (handler : IncidentHandler) (strategy : Nat) : Prop :=
  strategy ∈ handler.catchAll ∨ strategy ∈ handler.incidentDelegates.map (·.2)

theorem isAssociated_iff : handler.isAssociated strategy = true ↔ handler.Associated strategy := by
  simp [isAssociated,Associated]

variable {delegates : List (Int × Nat)} {incident : Int}

theorem mem_insertDelegate {entry other : Int × Nat} :
    other ∈ insertDelegate entry delegates ↔ other = entry ∨ other ∈ delegates := by
  induction delegates with
  | nil => simp [insertDelegate]
  | cons d delegates ih =>
    rw [insertDelegate]
    split
    · rw [mem_cons]
    · rw [mem_cons,mem_cons,ih]
      tauto

theorem mem_delegatesOf :
    strategy ∈ handler.delegatesOf incident ↔ (incident,strategy) ∈ handler.incidentDelegates := by
  simp only [delegatesOf,mem_map,mem_filter,beq_iff_eq]
  constructor
  · rintro ⟨⟨code,other⟩,⟨hmem,rfl⟩,rfl⟩
    exact hmem
  · intro hmem
    exact ⟨_,⟨hmem,rfl⟩,rfl⟩

structure Bookkept (handler : IncidentHandler) : Prop where
  hasModule : handler.hasModule = true
  sorted : handler.incidentDelegates.Pairwise fun lhs rhs => lhs.1 ≤ rhs.1
  wrappers : WrappersExact handler.globalStrategies handler.Associated

/-- Neither delegate map is changed. -/
def MapsKept (handler next : IncidentHandler) : Prop :=
  next.incidentDelegates = handler.incidentDelegates ∧ next.catchAllDelegates = handler.catchAllDelegates

theorem configure_cases (handler : IncidentHandler) (strategy : Nat) (path : String) (answers : ConfigAnswers) :
    (answers.accepted = false ∧ (handler.configure strategy path answers).1 = handler ∧
      (handler.configure strategy path answers).2.1 ≠ .errNoError) ∨
    (answers.accepted = true ∧ (handler.configure strategy path answers).2.1 = .errNoError ∧
      (handler.configure strategy path answers).1 = if handler.hasWrapper strategy then handler
        else {handler with globalStrategies := handler.globalStrategies ++ [⟨strategy,path⟩]}) := by
  by_cases hprepared : answers.prepared = .errNoError
  · by_cases hrefresh : answers.refreshConfiguration = .errNoError
    · right
      refine ⟨by simp [ConfigAnswers.accepted,hprepared,hrefresh],?_⟩
      simp only [configure,hprepared,hrefresh,isFailed_iff,ne_eq,not_true_eq_false,if_false]
      split
      · exact ⟨rfl,rfl⟩
      · exact ⟨rfl,rfl⟩
    · left
      refine ⟨by simp [ConfigAnswers.accepted,hrefresh,isOk],?_⟩
      simp only [configure,hprepared,isFailed_iff,ne_eq,not_true_eq_false,if_false,hrefresh,
        not_false_eq_true,if_true,and_self]
  · left
    refine ⟨by simp [ConfigAnswers.accepted,hprepared,isOk],?_⟩
    simp only [configure,isFailed_iff,ne_eq,hprepared,not_false_eq_true,if_true,and_self]

theorem bookkept_configure (h : handler.Bookkept) {mapped : IncidentHandler}
    (hmodule : mapped.hasModule = true) (hsorted : mapped.incidentDelegates.Pairwise fun lhs rhs => lhs.1 ≤ rhs.1)
    (hwrappers : mapped.globalStrategies = handler.globalStrategies)
    (hassociated : ∀ x, mapped.Associated x ↔ handler.Associated x ∨ x = strategy)
    (haccepted : answers.accepted = true ∨ handler.Associated strategy) :
    (mapped.configure strategy path answers).1.Bookkept := by
  have hhas : mapped.hasWrapper strategy = true ↔ handler.Associated strategy := by
    rw [hasWrapper,hwrappers]
    exact h.wrappers.any_iff strategy
  have hsame (hold : handler.Associated strategy) : mapped.Bookkept := by
    refine ⟨hmodule,hsorted,?_⟩
    rw [hwrappers]
    refine h.wrappers.congr fun x => (hassociated x).trans ⟨?_,.inl⟩
    rintro (hx | rfl)
    · exact hx
    · exact hold
  rcases mapped.configure_cases strategy path answers with ⟨hfailed,hkept,-⟩ | ⟨-,-,hnext⟩
  · rw [hkept]
    rcases haccepted with hok | hold
    · rw [hok] at hfailed
      cases hfailed
    · exact hsame hold
  · rw [hnext]
    by_cases hold : handler.Associated strategy
    · rw [if_pos (hhas.mpr hold)]
      exact hsame hold
    · rw [if_neg (mt hhas.mp hold)]
      refine ⟨hmodule,hsorted,?_⟩
      rw [hwrappers]
      exact h.wrappers.append hold path hassociated

theorem bookkept_dropWrapper (h : handler.Bookkept) {erased : IncidentHandler}
    (hmodule : erased.hasModule = true) (hsorted : erased.incidentDelegates.Pairwise fun lhs rhs => lhs.1 ≤ rhs.1)
    (hwrappers : erased.globalStrategies = handler.globalStrategies)
    (hassociated : ∀ x, x ≠ strategy → (erased.Associated x ↔ handler.Associated x))
    (hkept : erased.Associated strategy → handler.Associated strategy) : (erased.dropWrapper strategy).Bookkept := by
  unfold dropWrapper
  by_cases hstill : erased.Associated strategy
  · rw [if_pos (isAssociated_iff.mpr hstill)]
    refine ⟨hmodule,hsorted,?_⟩
    rw [hwrappers]
    refine h.wrappers.congr fun x => ?_
    by_cases hx : x = strategy
    · subst hx
      exact iff_of_true hstill (hkept hstill)
    · exact hassociated x hx
  · rw [if_neg (mt isAssociated_iff.mp hstill)]
    refine ⟨hmodule,hsorted,?_⟩
    rw [hwrappers]
    refine h.wrappers.eraseP fun x => ?_
    by_cases hx : x = strategy
    · subst hx
      exact iff_of_false hstill fun hno => hno.2 rfl
    · simp only [ne_eq,hx,not_false_eq_true,and_true]
      exact hassociated x hx

theorem pairwise_insertDelegate (entry : Int × Nat) (h : delegates.Pairwise fun lhs rhs => lhs.1 ≤ rhs.1) :
    (insertDelegate entry delegates).Pairwise fun lhs rhs => lhs.1 ≤ rhs.1 := by
  induction delegates with
  | nil => exact pairwise_singleton ..
  | cons d delegates ih =>
    obtain ⟨hd,hrest⟩ := pairwise_cons.mp h
    rw [insertDelegate]
    split
    · rename_i hlt
      refine pairwise_cons.mpr ⟨fun other hmem => ?_,h⟩
      rcases mem_cons.mp hmem with rfl | hmem
      · exact Int.le_of_lt hlt
      · exact Int.le_trans (Int.le_of_lt hlt) (hd other hmem)
    · rename_i hle
      refine pairwise_cons.mpr ⟨fun other hmem => ?_,ih hrest⟩
      rcases mem_insertDelegate.mp hmem with rfl | hmem
      · exact Int.not_lt.mp hle
      · exact hd other hmem

theorem insertDelegate_replace (hsorted : delegates.Pairwise fun lhs rhs => lhs.1 ≤ rhs.1)
    (honly : (delegates.filter (·.1 == incident)).map (·.2) = [strategy]) :
    insertDelegate (incident,strategy) (delegates.filter (·.1 != incident)) = delegates := by
  induction delegates with
  | nil => simp at honly
  | cons d delegates ih =>
    obtain ⟨hd,hrest⟩ := pairwise_cons.mp hsorted
    by_cases hcode : d.1 = incident
    · rw [filter_cons_of_pos (by simpa using hcode)] at honly
      obtain ⟨hstrategy,hnone⟩ := List.cons.inj honly
      have hothers : ∀ other ∈ delegates, other.1 ≠ incident := by
        intro other hmem hother
        have hin : other.2 ∈ (delegates.filter (·.1 == incident)).map (·.2) :=
          mem_map_of_mem (mem_filter.mpr ⟨hmem,by simpa using hother⟩)
        rw [hnone] at hin
        cases hin
      have hkeep : delegates.filter (·.1 != incident) = delegates :=
        filter_eq_self.mpr fun other hmem => by simpa using hothers other hmem
      rw [filter_cons_of_neg (by simpa using hcode),hkeep,← hstrategy,← hcode]
      cases delegates with
      | nil => rfl
      | cons e delegates =>
        have hlt : d.1 < e.1 := by
          have hle := hd e mem_cons_self
          have hne := hothers e mem_cons_self
          omega
        rw [insertDelegate,if_pos hlt]
    · rw [filter_cons_of_neg (by simpa using hcode)] at honly
      have hle : d.1 ≤ incident := by
        obtain ⟨other,hother⟩ : ∃ other, other ∈ delegates.filter (·.1 == incident) := by
          cases hfilter : delegates.filter (·.1 == incident) with
          | nil => simp [hfilter] at honly
          | cons e es => exact ⟨e,mem_cons_self⟩
        obtain ⟨hmem,hsame⟩ := mem_filter.mp hother
        exact beq_iff_eq.mp hsame ▸ hd other hmem
      rw [filter_cons_of_pos (by simpa using hcode),insertDelegate,if_neg (Int.not_lt.mpr hle),ih hrest honly]

/-- The strategy keeps another association when the delegates of a code are replaced. -/
def AssociatedElsewhere (handler : IncidentHandler) (incident : Int) (strategy : Nat) : Prop :=
  strategy ∈ handler.catchAll ∨ ∃ entry ∈ handler.incidentDelegates, entry.1 ≠ incident ∧ entry.2 = strategy

/-- An association with a refused code, that is configured and takes another strategy's last association, or that
replaces a strategy by itself. -/
def CarefulAssociate (handler : IncidentHandler) (incident : Int) (strategy : Nat)
    (association : StrategyAssociation) (answers : ConfigAnswers) : Prop :=
  incident = 0 ∨ match association with
    | .append => strategy ∈ handler.delegatesOf incident ∨ answers.accepted = true
    | .replace => handler.delegatesOf incident = [strategy] ∨ (answers.accepted = true ∧
        ∀ other ∈ handler.delegatesOf incident, other = strategy ∨ handler.AssociatedElsewhere incident other)

def CarefulCatchAll (handler : IncidentHandler) (strategy : Nat) (association : StrategyAssociation)
    (answers : ConfigAnswers) : Prop :=
  match association with
  | .append => strategy ∈ handler.catchAll ∨ answers.accepted = true
  | .replace => handler.catchAllDelegates = [(strategy,true)] ∨ (answers.accepted = true ∧
      ∀ other ∈ handler.catchAll, other = strategy ∨ other ∈ handler.incidentDelegates.map (·.2))

/-- Associations are careful, and `bEnableCatchAll` changes for strategies that catch all. -/
def Careful (handler : IncidentHandler) : HandlerAction → Prop
  | .associateStrategy incident (some strategy) (some _) association answers =>
    handler.CarefulAssociate incident strategy association answers
  | .associateBuiltIn incident strategy association answers =>
    handler.CarefulAssociate incident strategy.stratRef association answers
  | .associateCatchAllStrategy (some strategy) (some _) association answers =>
    handler.CarefulCatchAll strategy association answers
  | .processPropertyChange strategy _ => strategy.stratRef ∈ handler.catchAll
  | .associateStrategy .. | .associateCatchAllStrategy .. | .disassociateStrategy .. | .disassociateBuiltIn ..
  | .disassociateCatchAllStrategy _ => True

/-- What an association owes: the bookkeeping, and untouched maps if it returns an error. -/
structure AssociationKept (handler : IncidentHandler) (outcome : IncidentHandler × Result × List Incident) :
    Prop where
  bookkept : outcome.1.Bookkept
  failed : outcome.2.1 ≠ .errNoError → MapsKept handler outcome.1

theorem associationKept_refused (h : handler.Bookkept) (result : Result) (incidents : List Incident) :
    AssociationKept handler (handler,result,incidents) := ⟨h,fun _ => ⟨rfl,rfl⟩⟩

theorem associationKept_configure (h : handler.Bookkept) {mapped : IncidentHandler}
    (hmodule : mapped.hasModule = true) (hsorted : mapped.incidentDelegates.Pairwise fun lhs rhs => lhs.1 ≤ rhs.1)
    (hwrappers : mapped.globalStrategies = handler.globalStrategies)
    (hassociated : ∀ x, mapped.Associated x ↔ handler.Associated x ∨ x = strategy)
    (haccepted : answers.accepted = true ∨ MapsKept handler mapped) :
    AssociationKept handler (mapped.configure strategy path answers) := by
  refine ⟨bookkept_configure h hmodule hsorted hwrappers hassociated (haccepted.imp_right fun hmaps => ?_),?_⟩
  · have hmapped : mapped.Associated strategy := (hassociated strategy).mpr (.inr rfl)
    rwa [Associated,catchAll,hmaps.1,hmaps.2] at hmapped
  · rcases mapped.configure_cases strategy path answers with ⟨hfailed,hkept,-⟩ | ⟨-,hok,-⟩
    · intro _
      rw [hkept]
      rcases haccepted with hok | hmaps
      · rw [hok] at hfailed
        cases hfailed
      · exact hmaps
    · exact fun hnot => absurd hok hnot

theorem mem_map_insertDelegate {x : Nat} :
    x ∈ (insertDelegate (incident,strategy) delegates).map (·.2) ↔ x = strategy ∨ x ∈ delegates.map (·.2) := by
  simp only [mem_map,mem_insertDelegate]
  constructor
  · rintro ⟨entry,rfl | hmem,rfl⟩
    · exact .inl rfl
    · exact .inr ⟨entry,hmem,rfl⟩
  · rintro (rfl | ⟨entry,hmem,rfl⟩)
    · exact ⟨_,.inl rfl,rfl⟩
    · exact ⟨entry,.inr hmem,rfl⟩

private theorem associated_replace {x : Nat}
    (hothers : ∀ other ∈ handler.delegatesOf incident, other = strategy ∨ handler.AssociatedElsewhere incident other) :
    (x ∈ handler.catchAll ∨ x = strategy ∨ x ∈ (handler.incidentDelegates.filter (·.1 != incident)).map (·.2)) ↔
      handler.Associated x ∨ x = strategy := by
  constructor
  · rintro (hx | rfl | hx)
    · exact .inl (.inl hx)
    · exact .inr rfl
    · exact .inl (.inr ((filter_sublist.map _).subset hx))
  · rintro ((hx | hx) | rfl)
    · exact .inl hx
    · obtain ⟨⟨code,other⟩,hmem,rfl⟩ := mem_map.mp hx
      by_cases hcode : code = incident
      · subst hcode
        rcases hothers other (mem_delegatesOf.mpr hmem) with rfl | hcatch | ⟨entry,hentry,hne,hsame⟩
        · exact .inr (.inl rfl)
        · exact .inl hcatch
        · exact .inr (.inr (mem_map.mpr ⟨entry,mem_filter.mpr ⟨hentry,by simpa using hne⟩,hsame⟩))
      · exact .inr (.inr (mem_map.mpr ⟨_,mem_filter.mpr ⟨hmem,by simpa using hcode⟩,rfl⟩))
    · exact .inr (.inl rfl)

section
variable (h : handler.Bookkept)
include h

theorem associationKept_associate {association : StrategyAssociation}
    (hcareful : handler.CarefulAssociate incident strategy association answers) :
    AssociationKept handler (handler.associateStrategy incident (some strategy) (some path) association answers) := by
  unfold associateStrategy
  rw [if_neg (by simp [h.hasModule])]
  dsimp only
  by_cases hzero : incident = 0
  · rw [if_pos hzero]
    exact associationKept_refused h _ _
  · rw [if_neg hzero]
    have hcareful := hcareful.resolve_left hzero
    cases association with
    | append =>
      dsimp only at hcareful ⊢
      split
      · exact associationKept_refused h _ _
      · rename_i hnew
        have hok := hcareful.resolve_left fun hmem => hnew (by simpa using hmem)
        refine associationKept_configure h h.hasModule (pairwise_insertDelegate _ h.sorted) rfl (fun x => ?_) (.inl hok)
        rw [Associated,mem_map_insertDelegate,Associated,or_assoc,or_comm (a := x = strategy)]
        rfl
    | replace =>
      refine associationKept_configure h h.hasModule
        (pairwise_insertDelegate _ (h.sorted.sublist filter_sublist)) rfl (fun x => ?_) ?_
      · have hothers : ∀ other ∈ handler.delegatesOf incident,
            other = strategy ∨ handler.AssociatedElsewhere incident other := by
          rcases hcareful with honly | ⟨-,hothers⟩
          · intro other hmem
            rw [honly,mem_singleton] at hmem
            exact .inl hmem
          · exact hothers
        rw [Associated,mem_map_insertDelegate]
        exact associated_replace hothers
      · rcases hcareful with honly | ⟨hok,-⟩
        · exact .inr ⟨insertDelegate_replace h.sorted honly,rfl⟩
        · exact .inl hok

theorem associationKept_catchAll {association : StrategyAssociation}
    (hcareful : handler.CarefulCatchAll strategy association answers) :
    AssociationKept handler (handler.associateCatchAllStrategy (some strategy) (some path) association answers) := by
  unfold associateCatchAllStrategy
  dsimp only
  rw [if_neg (by simp [h.hasModule])]
  cases association with
  | append =>
    dsimp only [CarefulCatchAll] at hcareful ⊢
    split
    · exact associationKept_refused h _ _
    · rename_i hnew
      have hok := hcareful.resolve_left fun hmem => hnew (by simpa using hmem)
      refine associationKept_configure h h.hasModule h.sorted rfl (fun x => ?_) (.inl hok)
      simp only [Associated,catchAll,map_append,map_cons,map_nil,mem_append,mem_singleton]
      rw [or_right_comm]
  | replace =>
    refine associationKept_configure h h.hasModule h.sorted rfl (fun x => ?_) ?_
    · have hothers : ∀ other ∈ handler.catchAll, other = strategy ∨ other ∈ handler.incidentDelegates.map (·.2) := by
        rcases hcareful with honly | ⟨-,hothers⟩
        · intro other hmem
          rw [catchAll,honly] at hmem
          exact .inl (mem_singleton.mp hmem)
        · exact hothers
      simp only [Associated,catchAll,map_cons,map_nil,mem_singleton]
      constructor
      · rintro (rfl | hx)
        · exact .inr rfl
        · exact .inl (.inr hx)
      · rintro ((hx | hx) | rfl)
        · exact hothers x hx
        · exact .inr hx
        · exact .inl rfl
    · rcases hcareful with honly | ⟨hok,-⟩
      · exact .inr ⟨rfl,honly.symm⟩
      · exact .inl hok

theorem bookkept_disassociate (strategyDelegate : Option Nat) :
    (handler.disassociateStrategy incident strategyDelegate).1.Bookkept := by
  cases strategyDelegate with
  | none => exact h
  | some strategy =>
    have hsub : (handler.incidentDelegates.filter (· != (incident,strategy))).Sublist handler.incidentDelegates :=
      filter_sublist
    refine bookkept_dropWrapper h h.hasModule (h.sorted.sublist hsub) rfl (fun x hx => ?_) fun hstill => ?_
    · refine or_congr Iff.rfl ⟨fun hmem => (hsub.map _).subset hmem,fun hmem => ?_⟩
      obtain ⟨entry,hentry,rfl⟩ := mem_map.mp hmem
      refine mem_map.mpr ⟨entry,mem_filter.mpr ⟨hentry,?_⟩,rfl⟩
      rw [bne_iff_ne]
      rintro rfl
      exact hx rfl
    · exact hstill.imp_right fun hmem => (hsub.map _).subset hmem

theorem bookkept_disassociateCatchAll (strategyDelegate : Option Nat) :
    (handler.disassociateCatchAllStrategy strategyDelegate).1.Bookkept := by
  cases strategyDelegate with
  | none => exact h
  | some strategy =>
    have hsub : (handler.catchAllDelegates.filter (·.1 != strategy)).Sublist handler.catchAllDelegates := filter_sublist
    refine bookkept_dropWrapper h h.hasModule h.sorted rfl (fun x hx => ?_) fun hstill => ?_
    · refine or_congr ⟨fun hmem => (hsub.map _).subset hmem,fun hmem => ?_⟩ Iff.rfl
      obtain ⟨entry,hentry,rfl⟩ := mem_map.mp hmem
      exact mem_map.mpr ⟨entry,mem_filter.mpr ⟨hentry,by simpa using hx⟩,rfl⟩
    · exact hstill.imp_left fun hmem => (hsub.map _).subset hmem

end

theorem processPropertyChange_kept {which : IncidentStrategy} {getValue : Except Result Bool} {result : Result}
    (hnext : handler.processPropertyChange which getValue = some (next,result)) :
    next.hasModule = handler.hasModule ∧ next.catchAll = handler.catchAll ∧
      next.incidentDelegates = handler.incidentDelegates ∧ next.globalStrategies = handler.globalStrategies := by
  unfold processPropertyChange at hnext
  split at hnext
  · cases getValue with
    | ok value =>
      cases hnext
      refine ⟨rfl,?_,rfl,rfl⟩
      rw [catchAll,catchAll,map_map]
      refine map_congr_left fun delegate _ => ?_
      simp only [Function.comp_apply]
      split <;> rfl
    | error result =>
      cases hnext
      exact ⟨rfl,rfl,rfl,rfl⟩
  · cases hnext

private theorem bookkept_propertyChange {which : IncidentStrategy} {getValue : Except Result Bool} {result : Result}
    (h : handler.Bookkept) (hnext : handler.processPropertyChange which getValue = some (next,result)) :
    next.Bookkept := by
  obtain ⟨hmodule,hcatchAll,hdelegates,hwrappers⟩ := processPropertyChange_kept hnext
  refine ⟨hmodule.trans h.hasModule,hdelegates ▸ h.sorted,?_⟩
  rw [hwrappers]
  refine h.wrappers.congr fun x => ?_
  rw [Associated,Associated,hcatchAll,hdelegates]

/-- A careful call keeps the bookkeeping, is defined, and as an association that fails leaves both
maps as they were. -/
theorem call_careful (h : handler.Bookkept) {action : HandlerAction} (hcareful : handler.Careful action) :
    ∃ next result, handler.call action = some (next,result) ∧ next.Bookkept ∧
      (action.associates = true → result ≠ .errNoError → MapsKept handler next) := by
  cases action with
  | associateStrategy incident strategyDelegate configurationPath association answers =>
    have hkept : AssociationKept handler
        (handler.associateStrategy incident strategyDelegate configurationPath association answers) := by
      cases strategyDelegate with
      | none =>
        rw [associateStrategy.eq_def,if_neg (by simp [h.hasModule])]
        exact associationKept_refused h _ _
      | some strategy =>
        cases configurationPath with
        | none =>
          rw [associateStrategy.eq_def,if_neg (by simp [h.hasModule])]
          exact associationKept_refused h _ _
        | some path => exact associationKept_associate h hcareful
    exact ⟨_,_,rfl,hkept.bookkept,fun _ => hkept.failed⟩
  | associateBuiltIn incident strategy association answers =>
    have hkept : AssociationKept handler (handler.associateBuiltIn incident strategy association answers) :=
      associationKept_associate h hcareful
    exact ⟨_,_,rfl,hkept.bookkept,fun _ => hkept.failed⟩
  | associateCatchAllStrategy strategyDelegate configurationPath association answers =>
    have hkept : AssociationKept handler
        (handler.associateCatchAllStrategy strategyDelegate configurationPath association answers) := by
      cases configurationPath with
      | none => cases strategyDelegate <;> exact associationKept_refused h _ _
      | some path =>
        cases strategyDelegate with
        | none => exact associationKept_refused h _ _
        | some strategy => exact associationKept_catchAll h hcareful
    exact ⟨_,_,rfl,hkept.bookkept,fun _ => hkept.failed⟩
  | disassociateStrategy incident strategyDelegate =>
    refine ⟨_,_,rfl,bookkept_disassociate h strategyDelegate,fun hno => ?_⟩
    cases hno
  | disassociateBuiltIn incident strategy =>
    refine ⟨_,_,rfl,bookkept_disassociate h (some strategy.stratRef),fun hno => ?_⟩
    cases hno
  | disassociateCatchAllStrategy strategyDelegate =>
    refine ⟨_,_,rfl,bookkept_disassociateCatchAll h strategyDelegate,fun hno => ?_⟩
    cases hno
  | processPropertyChange strategy getValue =>
    have hentry : handler.catchAll.contains strategy.stratRef = true := by
      rw [contains_iff_mem]
      exact hcareful
    obtain ⟨⟨next,result⟩,hnext⟩ : ∃ outcome, handler.processPropertyChange strategy getValue = some outcome := by
      unfold processPropertyChange
      rw [if_pos hentry]
      cases getValue with
      | ok value => exact ⟨_,rfl⟩
      | error result => exact ⟨_,rfl⟩
    refine ⟨next,result,hnext,bookkept_propertyChange h hnext,fun hno => ?_⟩
    cases hno

private theorem careful_of_appended (h : handler.Bookkept)
    (hok : (handler.associateCatchAllStrategy (some strategy) (some path) .append answers).2.1 = .errNoError) :
    handler.CarefulCatchAll strategy .append answers := by
  rw [associateCatchAllStrategy.eq_def] at hok
  dsimp only at hok
  rw [if_neg (by simp [h.hasModule])] at hok
  split at hok
  · cases hok
  · refine .inr ?_
    rcases configure_cases _ strategy path answers with ⟨-,-,hfailed⟩ | ⟨haccepted,-⟩
    · exact absurd hok hfailed
    · exact haccepted

private theorem bookkept_setModule {answers : IncidentStrategy → ConfigAnswers}
    (hok : (setModule answers).2 = true) : (setModule answers).1.Bookkept := by
  have hfold (strategies : List IncidentStrategy) (acc : IncidentHandler × Bool) (hacc : acc.2 = true →
    acc.1.Bookkept) :
      let last := strategies.foldl (fun acc strategy =>
        let associated := acc.1.associateCatchAllStrategy (some strategy.stratRef) (some strategy.configurationPath)
          .append (answers strategy)
        (associated.1,acc.2 && isOk associated.2.1)) acc
      last.2 = true → last.1.Bookkept := by
    induction strategies generalizing acc with
    | nil => exact hacc
    | cons strategy strategies ih =>
      refine ih _ fun hboth => ?_
      obtain ⟨hbefore,hresult⟩ := Bool.and_eq_true_iff.mp hboth
      have hcareful := careful_of_appended (hacc hbefore) ((isOk_iff _).mp hresult)
      exact (associationKept_catchAll (hacc hbefore) hcareful).bookkept
  exact hfold _ _ (fun _ => ⟨rfl,.nil,fun x => ⟨fun hno => by simp [Associated,catchAll,new] at hno,
    fun _ => rfl⟩⟩) hok

/-- In every run of careful calls from a handler with its module, exactly the associated strategies have a wrapper, one
each, every call is defined, and a failed association leaves both maps. -/
theorem strategy_bookkeeping (answers : IncidentStrategy → ConfigAnswers) (hmodule : (setModule answers).2 = true)
    (hreach : Reaches step Careful (setModule answers).1 handler) :
    WrappersExact handler.globalStrategies handler.Associated ∧
    ∀ action, handler.Careful action → ∃ next result, handler.call action = some (next,result) ∧
      (action.associates = true → result ≠ .errNoError → MapsKept handler next) := by
  have h : handler.Bookkept := hreach.invariant (bookkept_setModule hmodule) fun s action s' hinv hcareful hstep => by
    obtain ⟨next,result,hcall,hnext,-⟩ := call_careful hinv hcareful
    rw [step,hcall] at hstep
    cases hstep
    exact hnext
  refine ⟨h.wrappers,fun action hcareful => ?_⟩
  obtain ⟨next,result,hcall,-,hmaps⟩ := call_careful h hcareful
  exact ⟨next,result,hcall,hmaps⟩

instance (handler : IncidentHandler) (incident : Int) (strategy : Nat) :
    Decidable (handler.AssociatedElsewhere incident strategy) := inferInstanceAs (Decidable (_ ∨ _))

instance (handler : IncidentHandler) (incident : Int) (strategy : Nat) (association : StrategyAssociation)
    (answers : ConfigAnswers) : Decidable (handler.CarefulAssociate incident strategy association answers) :=
  match association with
  | .append => inferInstanceAs (Decidable (_ ∨ _ ∨ _))
  | .replace => inferInstanceAs (Decidable (_ ∨ _ ∨ _ ∧ _))

instance (handler : IncidentHandler) (strategy : Nat) (association : StrategyAssociation)
    (answers : ConfigAnswers) : Decidable (handler.CarefulCatchAll strategy association answers) :=
  match association with
  | .append => inferInstanceAs (Decidable (_ ∨ _))
  | .replace => inferInstanceAs (Decidable (_ ∨ _ ∧ _))

instance (handler : IncidentHandler) (action : HandlerAction) : Decidable (handler.Careful action) :=
  match action with
  | .associateStrategy incident (some strategy) (some _) association answers =>
    inferInstanceAs (Decidable (handler.CarefulAssociate incident strategy association answers))
  | .associateBuiltIn incident strategy association answers =>
    inferInstanceAs (Decidable (handler.CarefulAssociate incident strategy.stratRef association answers))
  | .associateCatchAllStrategy (some strategy) (some _) association answers =>
    inferInstanceAs (Decidable (handler.CarefulCatchAll strategy association answers))
  | .processPropertyChange strategy _ => inferInstanceAs (Decidable (strategy.stratRef ∈ handler.catchAll))
  | .associateStrategy _ none _ _ _ | .associateStrategy _ (some _) none _ _
  | .associateCatchAllStrategy none _ _ _ | .associateCatchAllStrategy (some _) none _ _
  | .disassociateStrategy .. | .disassociateBuiltIn .. | .disassociateCatchAllStrategy _ =>
    inferInstanceAs (Decidable True)

def configured : ConfigAnswers := ⟨true,.errNoError,.errNoError⟩

theorem strategy_bookkeeping_associated_twice : ∃ handler : IncidentHandler,
    Reaches step Careful (setModule fun _ => configured).1 handler ∧ handler.Associated 7 ∧
      WrappersExact handler.globalStrategies handler.Associated := by
  obtain ⟨handler,hreach,hassociated⟩ : ∃ handler, Reaches step Careful (setModule fun _ => configured).1 handler ∧
      handler.isAssociated 7 = true :=
    exists_of_runAllowed [.associateStrategy 1 (some 7) (some "user") .append configured,
      .associateStrategy 2 (some 7) (some "user") .replace configured,.disassociateStrategy 1 (some 7),
      .processPropertyChange .esLogFile (.ok false)] (by decide +kernel)
  exact ⟨handler,hreach,isAssociated_iff.mp hassociated,
    (strategy_bookkeeping (fun _ => configured) (by decide) hreach).1⟩

/-- A user strategy that replaces the catch-all strategies leaves their wrappers behind; the next change of a
`bEnableCatchAll` reads a missing entry. -/
theorem replaced_catch_all : ∃ handler : IncidentHandler,
    Reaches step anyAction (setModule fun _ => configured).1 handler ∧
      ¬WrappersExact handler.globalStrategies handler.Associated ∧
      handler.call (.processPropertyChange .esLogConsole (.ok false)) = none := by
  obtain ⟨handler,hreach,hfacts⟩ : ∃ handler, Reaches step anyAction (setModule fun _ => configured).1 handler ∧
      (handler.isAssociated 0 = false ∧ handler.hasWrapper 0 = true) ∧
      (handler.call (.processPropertyChange .esLogConsole (.ok false))).isNone = true :=
    exists_of_runActions [.associateCatchAllStrategy (some 7) (some "user") .replace configured] (by decide +kernel)
  obtain ⟨⟨hgone,hleft⟩,hmissing⟩ := hfacts
  refine ⟨handler,hreach,fun hexact => ?_,Option.isNone_iff_eq_none.mp hmissing⟩
  have hassociated := (hexact.any_iff 0).mp hleft
  rw [← isAssociated_iff,hgone] at hassociated
  cases hassociated

end IncidentHandler
end FepParticipant.Incidents
