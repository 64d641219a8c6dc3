/-! Machines whose nondeterminism lies in their actions, and the invariant rule for
the states they reach when every action taken meets a condition. -/
namespace FepParticipant.Library
open Option

variable {σ α : Type}

/-- States reached from `s` by enabled actions, each allowed in the state it is taken in. -/
inductive Reaches (step : σ → α → Option σ) (allowed : σ → α → Prop) (s : σ) : σ → Prop
  | refl : Reaches step allowed s s
  | tail {t u : σ} {a : α} : Reaches step allowed s t → allowed t a → step t a = some u → Reaches step allowed s u

/-- The unconditioned condition: every action may be taken. -/
def anyAction (_ : σ) (_ : α) : Prop := True

/-- Execute a list of actions; a disabled action has no successor. -/
def runActions (step : σ → α → Option σ) : σ → List α → Option σ
  | s, [] => some s
  | s, a::as => (step s a).bind fun t => runActions step t as

theorem runActions_append (step : σ → α → Option σ) (s : σ) (as bs : List α) :
    runActions step s (as ++ bs) = (runActions step s as).bind fun t => runActions step t bs := by
  induction as generalizing s with
  | nil => rfl
  | cons a as ih =>
    rw [List.cons_append,runActions,runActions,bind_assoc]
    congr 1
    funext t
    exact ih t

theorem runActions_append_singleton (step : σ → α → Option σ) (s : σ) (as : List α) (a : α) :
    runActions step s (as ++ [a]) = (runActions step s as).bind fun t => step t a := by
  rw [runActions_append]
  congr 1
  funext t
  exact bind_fun_some (step t a)

namespace Reaches
variable {step : σ → α → Option σ} {allowed : σ → α → Prop} {s t u : σ}

theorem trans (h : Reaches step allowed s t) (k : Reaches step allowed t u) : Reaches step allowed s u := by
  induction k with
  | refl => exact h
  | tail _ ha hs ih => exact ih.tail ha hs

theorem head {a : α} (ha : allowed s a) (hs : step s a = some t) (k : Reaches step allowed t u) :
    Reaches step allowed s u :=
  (Reaches.refl.tail ha hs).trans k

theorem mono {weaker : σ → α → Prop} (hw : ∀ t a, allowed t a → weaker t a)
    (h : Reaches step allowed s t) : Reaches step weaker s t := by
  induction h with
  | refl => exact .refl
  | tail _ ha hs ih => exact ih.tail (hw _ _ ha) hs

/-- The invariant rule: what holds at the start and is kept by every allowed action
holds of every state reached. -/
theorem invariant {inv : σ → Prop} (h : Reaches step allowed s t) (h0 : inv s)
    (hstep : ∀ v a w, inv v → allowed v a → step v a = some w → inv w) : inv t := by
  induction h with
  | refl => exact h0
  | tail _ ha hs ih => exact hstep _ _ _ ih ha hs

end Reaches
variable {s : σ} {as : List α} {allowed : σ → α → Prop}

/-- An executed list of actions reaches its final state. -/
theorem reaches_of_runActions {step : σ → α → Option σ} {s t : σ} {as : List α}
    (h : runActions step s as = some t) : Reaches step anyAction s t := by
  induction as generalizing s with
  | nil => cases h; exact .refl
  | cons a as ih =>
    obtain ⟨u,hu,hrest⟩ := bind_eq_some_iff.mp h
    exact .head trivial hu (ih hrest)

theorem exists_of_runActions {step : σ → α → Option σ} {s : σ} {p : σ → Prop} [DecidablePred p] (as : List α)
    (h : (runActions step s as).any (fun t => decide (p t)) = true) : ∃ t, Reaches step anyAction s t ∧ p t := by
  obtain ⟨t,ht,hp⟩ := (any_eq_true _ _).mp h
  exact ⟨t,reaches_of_runActions ht,of_decide_eq_true hp⟩

/-- A list of actions that pass a check reaches its final state under what the check tells. -/
theorem reaches_of_checked {step : σ → α → Option σ} {check : σ → α → Bool}
    {s t : σ} (hcheck : ∀ s a, check s a = true → allowed s a)
    (h : runActions (fun s a => if check s a then step s a else none) s as = some t) : Reaches step allowed s t := by
  induction as generalizing s with
  | nil => cases h; exact .refl
  | cons a as ih =>
    obtain ⟨u,hu,hrest⟩ := bind_eq_some_iff.mp h
    by_cases ha : check s a
    · exact .head (hcheck s a ha) (by simpa [ha] using hu) (ih hrest)
    · simp [ha] at hu

/-- Execute a list of actions as long as each meets the condition. -/
def runAllowed (step : σ → α → Option σ) (allowed : σ → α → Prop)
    [∀ s a, Decidable (allowed s a)] : σ → List α → Option σ :=
  runActions fun s a => if allowed s a then step s a else none

theorem reaches_of_runAllowed {step : σ → α → Option σ} {allowed : σ → α → Prop}
    [∀ s a, Decidable (allowed s a)] {s t : σ} {as : List α} (h : runAllowed step allowed s as = some t) :
    Reaches step allowed s t := by
  induction as generalizing s with
  | nil => cases h; exact .refl
  | cons a as ih =>
    obtain ⟨u,hu,hrest⟩ := bind_eq_some_iff.mp h
    by_cases ha : allowed s a
    · exact .head ha (by simpa [ha] using hu) (ih hrest)
    · simp [ha] at hu

theorem exists_of_runAllowed {step : σ → α → Option σ} {allowed : σ → α → Prop} [∀ s a, Decidable (allowed s a)] {s : σ}
    {p : σ → Prop} [DecidablePred p] (as : List α)
    (h : (runAllowed step allowed s as).any (fun t => decide (p t)) = true) : ∃ t, Reaches step allowed s t ∧ p t := by
  obtain ⟨t,ht,hp⟩ := (any_eq_true _ _).mp h
  exact ⟨t,reaches_of_runAllowed ht,of_decide_eq_true hp⟩

/-- Every action of a run meets the condition in the state it is taken in. The run ends at an action that
has no successor. -/
def Throughout (step : σ → α → Option σ) (holds : σ → α → Prop) : σ → List α → Prop
  | _, [] => True
  | s, a::as => holds s a ∧ ∀ t, step s a = some t → Throughout step holds t as

/-- Two conditions that agree where an invariant holds agree on whole runs, if what meets the second keeps
the invariant. -/
theorem throughout_iff {step : σ → α → Option σ} {inv : σ → Prop} {p q : σ → α → Prop}
    (hsame : ∀ s a, inv s → (p s a ↔ q s a))
    (hstep : ∀ s a t, inv s → q s a → step s a = some t → inv t) {s : σ} (h : inv s) (as : List α) :
    Throughout step p s as ↔ Throughout step q s as := by
  induction as generalizing s with
  | nil => exact Iff.rfl
  | cons a as ih =>
    rw [Throughout,Throughout,hsame s a h]
    refine and_congr_right fun hq => forall_congr' fun t => ?_
    constructor
    · intro hrest hs
      exact (ih (hstep s a t h hq hs)).mp (hrest hs)
    · intro hrest hs
      exact (ih (hstep s a t h hq hs)).mpr (hrest hs)

/-- A condition on the actions alone, where every action has a successor. -/
theorem throughout_iff_forall {step : σ → α → σ} {p : α → Prop} (s : σ) (as : List α) :
    Throughout (fun s a => some (step s a)) (fun _ a => p a) s as ↔ ∀ a ∈ as, p a := by
  induction as generalizing s with
  | nil => exact iff_of_true trivial fun a hmem => absurd hmem List.not_mem_nil
  | cons a as ih =>
    rw [Throughout,List.forall_mem_cons]
    refine and_congr_right fun _ => ?_
    constructor
    · intro hrest
      exact (ih (step s a)).mp (hrest _ rfl)
    · intro hall t hs
      exact (ih t).mpr hall

end FepParticipant.Library
