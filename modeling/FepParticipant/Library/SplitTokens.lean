import Mathlib.Data.List.Basic

/-! Texts that are joined from pieces with a separator between them, and the tokens that such a text is split into,
without the empty ones. -/
namespace FepParticipant.Library
open List

variable {α : Type} [DecidableEq α] {sep : α} {text : List α} {pieces : List (List α)}

/-- The pieces between the separators that are not empty. -/
def tokens (sep : α) (text : List α) : List (List α) := (text.splitOn sep).filter fun piece => !piece.isEmpty

/-- A piece that is found as one token. -/
def IsToken (sep : α) (piece : List α) : Prop := piece ≠ [] ∧ sep ∉ piece

instance (sep : α) (piece : List α) : Decidable (IsToken sep piece) := inferInstanceAs (Decidable (_ ∧ _))

private theorem not_mem_of_mem_splitOn {piece : List α} (h : piece ∈ text.splitOn sep) : sep ∉ piece := by
  induction text generalizing piece with
  | nil =>
    rw [splitOn_nil,mem_singleton] at h
    exact h ▸ not_mem_nil
  | cons c rest ih =>
    rw [splitOn_cons_eq_if_modifyHead] at h
    by_cases hc : c = sep
    · rw [if_pos (beq_iff_eq.mpr hc)] at h
      rcases mem_cons.mp h with rfl | h
      · exact not_mem_nil
      · exact ih h
    · rw [if_neg fun heq => hc (beq_iff_eq.mp heq)] at h
      generalize hsplit : rest.splitOn sep = split at h ih
      cases split with
      | nil => exact absurd h not_mem_nil
      | cons first others =>
        rcases mem_cons.mp h with rfl | h
        · intro hmem
          rcases mem_cons.mp hmem with heq | hmem
          · exact hc heq.symm
          · exact ih mem_cons_self hmem
        · exact ih (mem_cons_of_mem first h)

private theorem isToken_of_mem_tokens {piece : List α} (h : piece ∈ tokens sep text) : IsToken sep piece := by
  obtain ⟨hsplit,hne⟩ := mem_filter.mp h
  exact ⟨by simpa using hne,not_mem_of_mem_splitOn hsplit⟩

/-- Joined pieces are split into themselves exactly if each of them is a token. -/
theorem tokens_intercalate_iff : tokens sep ([sep].intercalate pieces) = pieces ↔
    ∀ piece ∈ pieces, IsToken sep piece := by
  refine ⟨fun h piece hpiece => isToken_of_mem_tokens (h.symm ▸ hpiece),fun h => ?_⟩
  cases pieces with
  | nil => simp [tokens]
  | cons first others =>
    rw [tokens,splitOn_intercalate sep (fun piece hpiece => (h piece hpiece).2) (cons_ne_nil _ _),filter_eq_self]
    intro piece hpiece
    simpa using (h piece hpiece).1

/-- A text without tokens consists of separators. -/
theorem tokens_eq_nil_iff : tokens sep text = [] ↔ ∀ c ∈ text, c = sep := by
  induction text with
  | nil => simp [tokens]
  | cons c rest ih =>
    rw [tokens,splitOn_cons_eq_if_modifyHead,forall_mem_cons]
    by_cases hc : c = sep
    · rw [if_pos (beq_iff_eq.mpr hc),filter_cons_of_neg (by simp)]
      exact ih.trans (and_iff_right hc).symm
    · rw [if_neg fun heq => hc (beq_iff_eq.mp heq)]
      refine iff_of_false ?_ fun h => hc h.1
      cases hsplit : rest.splitOn sep with
      | nil => exact absurd hsplit (splitOn_ne_nil sep rest)
      | cons first others => simp

omit [DecidableEq α] in
theorem forall_mem_intercalate_iff : (∀ c ∈ [sep].intercalate pieces, c = sep) ↔
    ∀ piece ∈ pieces, ∀ c ∈ piece, c = sep := by
  induction pieces with
  | nil => simp
  | cons first others ih =>
    cases others with
    | nil => simp
    | cons second others =>
      rw [intercalate_cons_cons,forall_mem_cons,← ih,forall_mem_append,forall_mem_append]
      simp

end FepParticipant.Library
