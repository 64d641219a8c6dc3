import Mathlib.Data.Finset.Card
import Mathlib.Algebra.Ring.Nat

/-! Forests given by a parent for each node, what lies below a node, and how attaching a root or
dropping nodes keeps them free of cycles. -/
namespace FepParticipant.Library
open Finset

variable {α : Type} {parent parent' : α → Option α} {a b c d p : α}

/-- A node, its children, their children, and so on. -/
inductive Below (parent : α → Option α) (a : α) : α → Prop
  | refl : Below parent a a
  | step {p d : α} : Below parent a p → parent d = some p → Below parent a d

namespace Below

theorem trans (hab : Below parent a b) (hbc : Below parent b c) : Below parent a c := by
  induction hbc with
  | refl => exact hab
  | step _ hparent ih => exact .step ih hparent

theorem child (h : parent c = some a) : Below parent a c := .step .refl h

/-- What lies below another node than `a` has its parent below `a`. -/
theorem parent_below (h : Below parent a d) (hne : d ≠ a) (hparent : parent d = some p) : Below parent a p := by
  cases h with
  | refl => exact absurd rfl hne
  | step hp hstep => exact Option.some.inj (hstep.symm.trans hparent) ▸ hp

/-- The way down begins with a child. -/
theorem head (h : Below parent a d) : d = a ∨ ∃ c, parent c = some a ∧ Below parent c d := by
  induction h with
  | refl => exact .inl rfl
  | step hp hstep ih =>
    rename_i p d
    rcases ih with rfl | ⟨c,hc,hcp⟩
    · exact .inr ⟨d,hstep,.refl⟩
    · exact .inr ⟨c,hc,.step hcp hstep⟩

/-- Two nodes that a third one lies below lie below each other in one direction. -/
theorem linear (ha : Below parent a d) (hb : Below parent b d) : Below parent a b ∨ Below parent b a := by
  induction ha with
  | refl => exact .inr hb
  | step hp hstep ih =>
    rename_i p d
    by_cases hne : d = b
    · subst hne
      exact .inl (.step hp hstep)
    · exact ih (hb.parent_below hne hstep)

end Below

/-- The way up from a node ends within a number of steps, and does not meet `a`. -/
def avoids [DecidableEq α] (parent : α → Option α) (a : α) : Nat → α → Bool
  | 0, _ => false
  | fuel + 1, d => d ≠ a && match parent d with
    | none => true
    | some p => avoids parent a fuel p

theorem not_below_of_avoids [DecidableEq α] {fuel : Nat} (h : avoids parent a fuel d = true) : ¬Below parent a d := by
  induction fuel generalizing d with
  | zero => cases h
  | succ fuel ih =>
    obtain ⟨hne,hup⟩ := Bool.and_eq_true_iff.mp h
    rintro (_ | ⟨hp,hparent⟩)
    · exact of_decide_eq_true hne rfl
    · rw [hparent] at hup
      exact ih hup hp

/-- Every way up ends: a node is deeper than its parent. -/
def Grounded (parent : α → Option α) : Prop := ∃ depth : α → Nat, ∀ d p, parent d = some p → depth p < depth d

namespace Grounded

private theorem depth_le {depth : α → Nat} (hdepth : ∀ d p, parent d = some p → depth p < depth d)
    (h : Below parent a d) : depth a ≤ depth d := by
  induction h with
  | refl => exact Nat.le_refl _
  | step _ hstep ih => exact Nat.le_trans ih (Nat.le_of_lt (hdepth _ _ hstep))

section
variable (h : Grounded parent)
include h

/-- A parent does not lie below its child. -/
theorem not_below (hparent : parent d = some p) : ¬Below parent d p := by
  obtain ⟨depth,hdepth⟩ := h
  intro hbelow
  exact absurd (depth_le hdepth hbelow) (Nat.not_le_of_lt (hdepth d p hparent))

/-- Nothing lies below two children of one parent. -/
theorem siblings (ha : parent a = some p) (hb : parent b = some p)
    (had : Below parent a d) (hbd : Below parent b d) : a = b := by
  by_contra hne
  rcases had.linear hbd with hab | hba
  · exact h.not_below ha (hab.parent_below (Ne.symm hne) hb)
  · exact h.not_below hb (hba.parent_below hne ha)

theorem mono (hsub : ∀ d p, parent' d = some p → parent d = some p) : Grounded parent' := by
  obtain ⟨depth,hdepth⟩ := h
  exact ⟨depth,fun d p hp => hdepth d p (hsub d p hp)⟩

/-- A root may be attached to a node that does not lie below it. -/
theorem attach [DecidableEq α] (hroot : parent a = none) (hp : ¬Below parent a p) :
    Grounded (Function.update parent a (some p)) := by
  classical
  obtain ⟨depth,hdepth⟩ := h
  refine ⟨fun d => if Below parent a d then depth d + depth p + 1 else depth d,fun d q hq => ?_⟩
  dsimp only
  by_cases hd : d = a
  · subst hd
    rw [Function.update_self] at hq
    cases hq
    rw [if_neg hp,if_pos Below.refl]
    omega
  · rw [Function.update_of_ne hd] at hq
    have hlt := hdepth d q hq
    by_cases hbelow : Below parent a q
    · rw [if_pos hbelow,if_pos (hbelow.step hq)]
      omega
    · have hnot : ¬Below parent a d := fun hd' => hbelow (hd'.parent_below hd hq)
      rwa [if_neg hbelow,if_neg hnot]

end

end Grounded

open Classical in
/-- The nodes of a finite set that lie below a node. -/
noncomputable def belowIn (nodes : Finset α) (parent : α → Option α) (a : α) : Finset α :=
  nodes.filter (Below parent a)

theorem self_mem_belowIn {nodes : Finset α} (parent : α → Option α) (ha : a ∈ nodes) : a ∈ belowIn nodes parent a := by
  classical
  exact mem_filter.mpr ⟨ha,.refl⟩

theorem card_belowIn_child {nodes : Finset α} (h : Grounded parent) (ha : a ∈ nodes) (hc : parent c = some a) :
    (belowIn nodes parent c).card < (belowIn nodes parent a).card := by
  classical
  apply card_lt_card
  rw [ssubset_iff_of_subset]
  · refine ⟨a,mem_filter.mpr ⟨ha,.refl⟩,fun hmem => ?_⟩
    exact h.not_below hc (mem_filter.mp hmem).2
  · intro d hd
    obtain ⟨hmem,hbelow⟩ := mem_filter.mp hd
    exact mem_filter.mpr ⟨hmem,(Below.child hc).trans hbelow⟩

theorem card_belowIn_le (nodes : Finset α) : (belowIn nodes parent a).card ≤ nodes.card := by
  classical
  exact card_filter_le _ _

end FepParticipant.Library
