import Mathlib.Data.List.Sort
import Mathlib.Data.List.TakeWhile

/-! Strict weak orders on the elements of a list, sorting by one, and a sorted list cut where its elements get
greater. -/
namespace FepParticipant.Library
open List

variable {α : Type} {r : α → α → Prop} {elements : List α}

/-- What a comparison must be for sorting: irreflexive and transitive, with a transitive incomparability. -/
structure StrictWeakOn (r : α → α → Prop) (elements : List α) : Prop where
  irrefl : ∀ a ∈ elements, ¬r a a
  trans : ∀ a ∈ elements, ∀ b ∈ elements, ∀ c ∈ elements, r a b → r b c → r a c
  incomp : ∀ a ∈ elements, ∀ b ∈ elements, ∀ c ∈ elements, ¬r a b → ¬r b a → ¬r b c → ¬r c b → ¬r a c ∧ ¬r c a

namespace StrictWeakOn

/-- Every third element is greater than the lesser or less than the greater one. -/
theorem between (h : StrictWeakOn r elements) {a b c : α} (ha : a ∈ elements) (hb : b ∈ elements) (hc : c ∈ elements)
    (hab : r a b) : r a c ∨ r c b := by
  by_cases hac : r a c
  · exact .inl hac
  · apply Or.inr
    apply by_contra
    intro hcb
    have hca : ¬r c a := fun hca => hcb (h.trans c hc a ha b hb hca hab)
    have hbc : ¬r b c := fun hbc => hac (h.trans a ha b hb c hc hab hbc)
    exact (h.incomp a ha c hc b hb hac hca hcb hbc).1 hab

theorem of_between (hasymm : ∀ a ∈ elements, ∀ b ∈ elements, r a b → ¬r b a)
    (hbetween : ∀ a ∈ elements, ∀ b ∈ elements, r a b → ∀ c ∈ elements, r a c ∨ r c b) : StrictWeakOn r elements where
  irrefl a ha haa := hasymm a ha a ha haa haa
  trans a ha b hb c hc hab hbc := (hbetween a ha b hb hab c hc).resolve_right fun hcb => hasymm b hb c hc hbc hcb
  incomp a ha b hb c hc hab hba hbc hcb :=
    ⟨fun hac => (hbetween a ha c hc hac b hb).elim hab hbc,fun hca => (hbetween c hc a ha hca b hb).elim hcb hba⟩

/-- Fewer elements, and a comparison that is the same on them. -/
theorem congr (h : StrictWeakOn r elements) {s : α → α → Prop} {others : List α} (hsub : ∀ a ∈ others, a ∈ elements)
    (hiff : ∀ a ∈ others, ∀ b ∈ others, s a b ↔ r a b) : StrictWeakOn s others where
  irrefl a ha haa := h.irrefl a (hsub a ha) ((hiff a ha a ha).mp haa)
  trans a ha b hb c hc hab hbc := (hiff a ha c hc).mpr
    (h.trans a (hsub a ha) b (hsub b hb) c (hsub c hc) ((hiff a ha b hb).mp hab) ((hiff b hb c hc).mp hbc))
  incomp a ha b hb c hc hab hba hbc hcb := by
    rw [hiff a ha b hb] at hab
    rw [hiff b hb a ha] at hba
    rw [hiff b hb c hc] at hbc
    rw [hiff c hc b hb] at hcb
    rw [hiff a ha c hc,hiff c hc a ha]
    exact h.incomp a (hsub a ha) b (hsub b hb) c (hsub c hc) hab hba hbc hcb

end StrictWeakOn

variable [DecidableRel r]

theorem pairwise_orderedInsert (value : α) (h : StrictWeakOn r (value::elements))
    (hsorted : elements.Pairwise fun a b => ¬r b a) :
    (elements.orderedInsert (fun a b => ¬r b a) value).Pairwise fun a b => ¬r b a := by
  induction elements with
  | nil => exact pairwise_singleton _ _
  | cons first rest ih =>
    obtain ⟨hfirst,hrest⟩ := pairwise_cons.mp hsorted
    have hvalue : value ∈ value::first::rest := mem_cons_self
    have hmem : first ∈ value::first::rest := mem_cons_of_mem _ mem_cons_self
    rw [orderedInsert]
    split
    · rename_i hless
      refine pairwise_cons.mpr ⟨fun other hother => ?_,hsorted⟩
      rcases mem_cons.mp hother with rfl | hother
      · exact hless
      · intro hbefore
        rcases h.between (mem_cons_of_mem _ (mem_cons_of_mem _ hother)) hvalue hmem hbefore with hof | hfv
        · exact hfirst other hother hof
        · exact hless hfv
    · rename_i hless
      have hgreater : r first value := not_not.mp hless
      refine pairwise_cons.mpr ⟨fun other hother => ?_,ih (h.congr ?_ fun _ _ _ _ => Iff.rfl) hrest⟩
      · rcases mem_cons.mp ((perm_orderedInsert _ value rest).mem_iff.mp hother) with rfl | hother
        · exact fun hless => h.irrefl _ hmem (h.trans _ hmem _ hvalue _ hmem hgreater hless)
        · exact hfirst other hother
      · exact fun a ha => (mem_cons.mp ha).elim (fun heq => heq ▸ hvalue)
          fun ha => mem_cons_of_mem _ (mem_cons_of_mem _ ha)

/-- Inserting one element after the other sorts by a strict weak order. -/
theorem pairwise_insertionSort_of_strictWeakOn (h : StrictWeakOn r elements) :
    (elements.insertionSort fun a b => ¬r b a).Pairwise fun a b => ¬r b a := by
  induction elements with
  | nil => exact Pairwise.nil
  | cons value rest ih =>
    have hrest := ih (h.congr (fun a ha => mem_cons_of_mem _ ha) fun _ _ _ _ => Iff.rfl)
    refine pairwise_orderedInsert value (h.congr (fun a ha => ?_) fun _ _ _ _ => Iff.rfl) hrest
    exact (mem_cons.mp ha).elim (fun heq => heq ▸ mem_cons_self)
      fun ha => mem_cons_of_mem _ ((perm_insertionSort _ rest).mem_iff.mp ha)

/-- Every part reaches from its first element to the first greater one. -/
def cutAtGreater (r : α → α → Prop) [DecidableRel r] : List α → List (List α)
  | [] => []
  | first::rest =>
    (first::rest.takeWhile fun element => !decide (r first element)) ::
      cutAtGreater r (rest.dropWhile fun element => !decide (r first element))
termination_by elements => elements.length
decreasing_by exact Nat.lt_succ_of_le (dropWhile_sublist _).length_le

theorem flatten_cutAtGreater (r : α → α → Prop) [DecidableRel r] (elements : List α) :
    (cutAtGreater r elements).flatten = elements := by
  induction elements using cutAtGreater.induct r with
  | case1 => rw [cutAtGreater,flatten_nil]
  | case2 first rest ih => rw [cutAtGreater,flatten_cons,ih,cons_append,takeWhile_append_dropWhile]

theorem ne_nil_of_mem_cutAtGreater {part : List α} (h : part ∈ cutAtGreater r elements) : part ≠ [] := by
  induction elements using cutAtGreater.induct r with
  | case1 =>
    rw [cutAtGreater] at h
    cases h
  | case2 first rest ih =>
    rw [cutAtGreater,mem_cons] at h
    rcases h with rfl | h
    · exact cons_ne_nil _ _
    · exact ih h

/-- One element stands in an earlier part than another one. -/
def Earlier (parts : List (List α)) (a b : α) : Prop :=
  ∃ i j : Nat, i < j ∧ (∃ part ∈ parts[i]?, a ∈ part) ∧ ∃ part ∈ parts[j]?, b ∈ part

private theorem earlier_cons {part : List α} {parts : List (List α)} {a b : α} (h : Earlier parts a b) :
    Earlier (part::parts) a b := by
  obtain ⟨i,j,hlt,ha,hb⟩ := h
  exact ⟨i + 1,j + 1,by omega,by simpa using ha,by simpa using hb⟩

private theorem earlier_first {part : List α} {parts : List (List α)} {a b : α} (ha : a ∈ part)
    (hb : b ∈ parts.flatten) : Earlier (part::parts) a b := by
  obtain ⟨other,hother,hb⟩ := mem_flatten.mp hb
  obtain ⟨j,hj,rfl⟩ := mem_iff_getElem.mp hother
  exact ⟨0,j + 1,by omega,⟨part,by simp,ha⟩,⟨parts[j],by simp [hj],hb⟩⟩

/-- In a sorted list the lesser of two elements stands in an earlier part. -/
theorem earlier_of_less (hweak : StrictWeakOn r elements) (hsorted : elements.Pairwise fun a b => ¬r b a) {a b : α}
    (ha : a ∈ elements) (hb : b ∈ elements) (hab : r a b) : Earlier (cutAtGreater r elements) a b := by
  induction elements using cutAtGreater.induct r with
  | case1 => cases ha
  | case2 first rest ih =>
    rw [cutAtGreater]
    have hsplit := takeWhile_append_dropWhile (p := fun element => !decide (r first element)) (l := rest)
    set near := rest.takeWhile fun element => !decide (r first element) with hnear
    set far := rest.dropWhile fun element => !decide (r first element) with hfar
    have hnearMem : ∀ element ∈ near, ¬r first element := by
      intro element helement
      simpa using mem_takeWhile_imp helement
    have hfarSub : ∀ element ∈ far, element ∈ first::rest := by
      intro element helement
      rw [← hsplit]
      exact mem_cons_of_mem _ (mem_append_right _ helement)
    have hsub : ∀ element ∈ first::near, element ∈ first::rest := by
      intro element helement
      rw [← hsplit,← cons_append]
      exact mem_append_left _ helement
    have hmem (element : α) (helement : element ∈ first::rest) : element ∈ first::near ∨ element ∈ far := by
      rwa [← hsplit,← cons_append,mem_append] at helement
    -- nothing in the first part is less than another element of it
    have hflat (c : α) (hc : c ∈ first::near) (d : α) (hd : d ∈ first::near) : ¬r c d := by
      intro hcd
      have hfirst := mem_cons_self (a := first) (l := rest)
      have hleast (element : α) (helement : element ∈ first::near) : ¬r first element := by
        rcases mem_cons.mp helement with rfl | helement
        · exact hweak.irrefl _ hfirst
        · exact hnearMem element helement
      rcases hweak.between (hsub c hc) (hsub d hd) hfirst hcd with hcf | hfd
      · rcases mem_cons.mp hc with rfl | hc
        · exact hweak.irrefl _ hfirst hcf
        · have hrest : c ∈ rest := (takeWhile_sublist _).subset hc
          exact (pairwise_cons.mp hsorted).1 c hrest hcf
      · exact hleast d hd hfd
    rcases hmem a ha with ha' | ha'
    · rcases hmem b hb with hb' | hb'
      · exact absurd hab (hflat a ha' b hb')
      · exact earlier_first ha' (by rwa [flatten_cutAtGreater])
    · rcases hmem b hb with hb' | hb'
      · -- the list is sorted, so that an element behind the first part is not less than one in it
        exfalso
        rw [← hsplit,← cons_append,pairwise_append] at hsorted
        exact hsorted.2.2 b hb' a ha' hab
      · apply earlier_cons
        refine ih ?_ ?_ ha' hb'
        · exact hweak.congr hfarSub fun _ _ _ _ => Iff.rfl
        · exact (pairwise_cons.mp hsorted).2.sublist (dropWhile_sublist _)

end FepParticipant.Library
