import Mathlib.Data.List.Perm.Basic
import Mathlib.Order.Lattice

/-! Sequences ordered by a key in which equal keys keep the order of their insertion, as in
`std::multiset`. Iterators are positions; the end is the size. -/
namespace FepParticipant.Library
open List Option Nat

/-- Elements in the order of their keys. -/
structure OrderedMultiset (α : Type) {κ : Type} [LinearOrder κ] (key : α → κ) where
  elements : List α
  sorted : (elements.map key).Pairwise (· ≤ ·)

namespace OrderedMultiset

variable {α κ : Type} [LinearOrder κ] {key : α → κ} {a b : α} {position : Nat}
variable {k : κ} {f : α → α}

instance [DecidableEq α] : DecidableEq (OrderedMultiset α key) := fun s t =>
  decidable_of_iff (s.elements = t.elements) (by cases s; cases t; simp)

def empty : OrderedMultiset α key := ⟨[],List.Pairwise.nil⟩

def size (s : OrderedMultiset α key) : Nat := s.elements.length

/-- The element an iterator points to. -/
def get? (s : OrderedMultiset α key) (position : Nat) : Option α := s.elements[position]?

/-- The first position whose key is not less. -/
def lowerBound (s : OrderedMultiset α key) (k : κ) : Nat := (s.elements.takeWhile (key · < k)).length

/-- The first position whose key is greater. -/
def upperBound (s : OrderedMultiset α key) (k : κ) : Nat := (s.elements.takeWhile (key · ≤ k)).length

/-- The iterator of a search from the front with the element it points to. -/
def findFirst (s : OrderedMultiset α key) (wanted : α → Bool) : Option (Nat × α) :=
  (s.elements.findIdx? wanted).bind fun position => (s.get? position).map fun a => (position,a)

/-- A search among the elements with a key. -/
def findEqual (s : OrderedMultiset α key) (k : κ) (wanted : α → Bool) : Option (Nat × α) :=
  s.findFirst fun a => decide (key a = k) && wanted a

variable {elements : List α}

theorem sorted_cons : ((a::elements).map key).Pairwise (· ≤ ·) ↔
    (∀ b ∈ elements, key a ≤ key b) ∧ (elements.map key).Pairwise (· ≤ ·) := by
  simp

/-- Behind the upper bound all keys are greater. -/
theorem lt_of_mem_dropWhile (h : (elements.map key).Pairwise (· ≤ ·))
    (hb : b ∈ elements.dropWhile (key · ≤ k)) : k < key b := by
  induction elements with
  | nil => cases hb
  | cons a elements ih =>
    obtain ⟨hhead,htail⟩ := sorted_cons.mp h
    rw [dropWhile_cons] at hb
    split at hb
    · exact ih htail hb
    · rename_i hgreater
      have hlt : k < key a := by simpa using hgreater
      rcases mem_cons.mp hb with rfl | hmem
      · exact hlt
      · exact lt_of_lt_of_le hlt (hhead b hmem)

theorem le_of_mem_takeWhile (hb : b ∈ elements.takeWhile (key · ≤ k)) : key b ≤ k := by
  have hall := all_takeWhile (p := fun a => decide (key a ≤ k)) (l := elements)
  exact of_decide_eq_true (all_eq_true.mp hall b hb)

theorem sorted_insert (h : (elements.map key).Pairwise (· ≤ ·)) (a : α) :
    ((elements.takeWhile (key · ≤ key a) ++ a::elements.dropWhile (key · ≤ key a)).map key).Pairwise (· ≤ ·) := by
  rw [map_append,pairwise_append,sorted_cons]
  refine ⟨?_,⟨?_,?_⟩,?_⟩
  · exact h.sublist ((takeWhile_sublist _).map key)
  · intro b hb
    exact le_of_lt (lt_of_mem_dropWhile h hb)
  · exact h.sublist ((dropWhile_sublist _).map key)
  · intro k hk l hl
    obtain ⟨b,hb,rfl⟩ := mem_map.mp hk
    obtain ⟨c,hc,rfl⟩ := mem_map.mp hl
    have hle := le_of_mem_takeWhile hb
    rcases mem_cons.mp hc with rfl | hmem
    · exact hle
    · exact le_of_lt (lt_of_le_of_lt hle (lt_of_mem_dropWhile h hmem))

/-- Insertion behind all elements with the same key. -/
def insert (s : OrderedMultiset α key) (a : α) : OrderedMultiset α key where
  elements := s.elements.takeWhile (key · ≤ key a) ++ a::s.elements.dropWhile (key · ≤ key a)
  sorted := sorted_insert s.sorted a

/-- Removal of the element an iterator points to. -/
def erase (s : OrderedMultiset α key) (position : Nat) : OrderedMultiset α key where
  elements := s.elements.eraseIdx position
  sorted := s.sorted.sublist ((eraseIdx_sublist ..).map key)

omit [LinearOrder κ] in
theorem map_modify (hf : ∀ a, key (f a) = key a) : (elements.modify position f).map key = elements.map key := by
  apply ext_getElem?
  intro other
  rw [getElem?_map,getElem?_map,getElem?_modify,Option.map_eq_map,Option.map_map]
  congr 1
  funext a
  by_cases hother : position = other
  · simp [hother,hf]
  · simp [hother]

/-- A change of an element that keeps its key. -/
def modify (s : OrderedMultiset α key) (position : Nat) (f : α → α) (hf : ∀ a, key (f a) = key a) :
    OrderedMultiset α key where
  elements := s.elements.modify position f
  sorted := by
    rw [map_modify hf]
    exact s.sorted

variable {s : OrderedMultiset α key}

theorem perm_insert (s : OrderedMultiset α key) (a : α) : (s.insert a).elements.Perm (a::s.elements) := by
  refine perm_middle.trans (List.Perm.cons a ?_)
  rw [takeWhile_append_dropWhile]

theorem perm_erase (h : s.get? position = some a) : s.elements.Perm (a::(s.erase position).elements) := by
  obtain ⟨hlt,rfl⟩ := List.getElem?_eq_some_iff.mp h
  exact (getElem_cons_eraseIdx_perm hlt).symm

theorem perm_modify (hf : ∀ a, key (f a) = key a) (h : s.get? position = some a) :
    (s.modify position f hf).elements.Perm (f a::(s.erase position).elements) := by
  obtain ⟨hlt,rfl⟩ := List.getElem?_eq_some_iff.mp h
  show (s.elements.modify position f).Perm _
  rw [modify_eq_take_cons_drop hlt]
  refine perm_middle.trans (List.Perm.cons _ ?_)
  exact List.Perm.of_eq (eraseIdx_eq_take_drop_succ ..).symm

theorem size_insert : (s.insert a).size = s.size + 1 := (perm_insert s a).length_eq

theorem size_erase (h : s.get? position = some a) : s.size = (s.erase position).size + 1 := (perm_erase h).length_eq

theorem size_modify (s : OrderedMultiset α key) (position : Nat) (hf : ∀ a, key (f a) = key a) :
    (s.modify position f hf).size = s.size :=
  length_modify ..

private theorem tag_eq_iff {ι : Type} {tag : α → ι} (htag : (s.elements.map tag).Nodup) {other : Nat}
    (h : s.get? position = some a) (hb : s.elements[other]? = some b) : tag b = tag a ↔ position = other := by
  have htags : (s.elements.map tag)[position]? = some (tag a) := by
    rw [getElem?_map]
    exact congrArg (Option.map tag) h
  have hlt : position < (s.elements.map tag).length := (List.getElem?_eq_some_iff.mp htags).1
  rw [← getElem?_inj hlt htag,htags,getElem?_map,hb,map_some,some.injEq,eq_comm]

/-- Where a tag tells the elements apart, a change at a position is a change of the tagged element. -/
theorem modify_eq_map {ι : Type} [DecidableEq ι] {tag : α → ι} (htag : (s.elements.map tag).Nodup)
    (hf : ∀ a, key (f a) = key a) (h : s.get? position = some a) :
    (s.modify position f hf).elements = s.elements.map fun b => if tag b = tag a then f b else b := by
  apply ext_getElem?
  intro other
  show (s.elements.modify position f)[other]? = _
  rw [getElem?_modify,getElem?_map,Option.map_eq_map]
  cases hb : s.elements[other]? with
  | none => rfl
  | some b =>
    have hiff := tag_eq_iff htag h hb
    by_cases hother : position = other
    · simp [hother,hiff.mpr hother]
    · simp [hother,mt hiff.mp hother]

omit [LinearOrder κ] in
private theorem eraseIdx_eq_filter {ι : Type} [DecidableEq ι] {tag : α → ι}
    (htag : (elements.map tag).Nodup) (h : elements[position]? = some a) :
    elements.eraseIdx position = elements.filter fun b => tag b ≠ tag a := by
  induction elements generalizing position with
  | nil => cases h
  | cons b elements ih =>
    obtain ⟨hhead,htail⟩ := nodup_cons.mp htag
    cases position with
    | zero =>
      cases h
      have hothers : ∀ c ∈ elements, tag c ≠ tag a := by
        intro c hc hsame
        exact hhead (hsame ▸ mem_map_of_mem hc)
      rw [eraseIdx_cons_zero,filter_cons_of_neg (by simp),filter_eq_self.mpr]
      simpa using hothers
    | succ position =>
      have hrest : elements[position]? = some a := h
      have hother : tag b ≠ tag a := by
        intro hsame
        exact hhead (hsame ▸ mem_map_of_mem (mem_of_getElem? hrest))
      simp [hother,ih htail hrest]

theorem erase_eq_filter {ι : Type} [DecidableEq ι] {tag : α → ι} (htag : (s.elements.map tag).Nodup)
    (h : s.get? position = some a) : (s.erase position).elements = s.elements.filter fun b => tag b ≠ tag a :=
  eraseIdx_eq_filter htag h

/-- An iterator found points to an element that is wanted. -/
theorem findFirst_eq_some {wanted : α → Bool} (h : s.findFirst wanted = some (position,a)) :
    s.get? position = some a ∧ wanted a = true := by
  obtain ⟨found,hfound,hget⟩ := bind_eq_some_iff.mp h
  obtain ⟨b,hb,heq⟩ := map_eq_some_iff.mp hget
  cases heq
  obtain ⟨hlt,hwanted,-⟩ := findIdx?_eq_some_iff_getElem.mp hfound
  have hsame : s.elements[position] = a := by
    rwa [get?,getElem?_eq_getElem hlt,some.injEq] at hb
  exact ⟨hb,hsame ▸ hwanted⟩

theorem findFirst_eq_none {wanted : α → Bool} : s.findFirst wanted = none ↔ ∀ a ∈ s.elements, wanted a = false := by
  constructor
  · intro h
    apply findIdx?_eq_none_iff.mp
    cases hfound : s.elements.findIdx? wanted with
    | none => rfl
    | some position =>
      obtain ⟨hlt,-⟩ := findIdx?_eq_some_iff_getElem.mp hfound
      simp [findFirst,hfound,get?,getElem?_eq_getElem hlt] at h
  · intro h
    rw [findFirst,findIdx?_eq_none_iff.mpr h,bind_none]

theorem mem_of_get? (h : s.get? position = some a) : a ∈ s.elements := mem_of_getElem? h

/-- Keys do not get less from one position to a later one. -/
theorem key_le_of_le {other : Nat} (h : s.get? position = some a) (hb : s.get? other = some b)
    (hle : position ≤ other) : key a ≤ key b := by
  obtain ⟨hlt,rfl⟩ := List.getElem?_eq_some_iff.mp h
  obtain ⟨hlt',rfl⟩ := List.getElem?_eq_some_iff.mp hb
  rcases lt_or_eq_of_le hle with hless | rfl
  · have hsorted := pairwise_iff_getElem.mp s.sorted position other (by simpa using hlt) (by simpa using hlt') hless
    simpa using hsorted
  · exact le_refl _

omit [LinearOrder κ] in
private theorem lt_takeWhile_iff {wanted : α → Bool}
    (hdown : elements.Pairwise fun a b => wanted b = true → wanted a = true)
    (h : elements[position]? = some a) : position < (elements.takeWhile wanted).length ↔ wanted a = true := by
  induction elements generalizing position with
  | nil => cases h
  | cons b elements ih =>
    obtain ⟨hhead,htail⟩ := pairwise_cons.mp hdown
    rw [takeWhile_cons]
    cases position with
    | zero =>
      cases h
      split
      · rename_i hwanted
        simp [hwanted]
      · rename_i hunwanted
        simp [hunwanted]
    | succ position =>
      have hrest : elements[position]? = some a := h
      split
      · rw [length_cons,succ_lt_succ_iff]
        exact ih htail hrest
      · rename_i hunwanted
        have hnot : ¬wanted a = true := fun ha => hunwanted (hhead a (mem_of_getElem? hrest) ha)
        simp [hnot]

/-- The elements in front are those whose key is wanted, if a lesser key is wanted too. -/
theorem lt_takeWhile_key_iff {wanted : κ → Prop} [DecidablePred wanted] (hdown : ∀ k l, k ≤ l → wanted l → wanted k)
    (h : s.get? position = some a) :
    position < (s.elements.takeWhile fun b => wanted (key b)).length ↔ wanted (key a) := by
  have hsorted : s.elements.Pairwise fun a b => decide (wanted (key b)) = true → decide (wanted (key a)) = true :=
    (pairwise_map.mp s.sorted).imp fun hle => by
      simp only [decide_eq_true_eq]
      exact hdown _ _ hle
  exact (lt_takeWhile_iff hsorted h).trans decide_eq_true_iff

/-- In front of the upper bound are the elements whose key is not greater. -/
theorem lt_upperBound_iff (h : s.get? position = some a) : position < s.upperBound k ↔ key a ≤ k :=
  lt_takeWhile_key_iff (fun _ _ => le_trans) h

/-- In front of the lower bound are the elements whose key is less. -/
theorem lt_lowerBound_iff (h : s.get? position = some a) : position < s.lowerBound k ↔ key a < k :=
  lt_takeWhile_key_iff (fun _ _ => lt_of_le_of_lt) h

theorem lowerBound_le_size : s.lowerBound k ≤ s.size := (takeWhile_sublist _).length_le

theorem get?_of_lt (h : position < s.size) : ∃ a, s.get? position = some a := ⟨_,getElem?_eq_getElem h⟩

theorem exists_get?_of_mem (h : a ∈ s.elements) : ∃ position, s.get? position = some a := mem_iff_getElem?.mp h

/-- The last element has a greatest key. -/
theorem exists_last (h : s.size ≠ 0) : ∃ a, s.get? (s.size - 1) = some a ∧ ∀ b ∈ s.elements, key b ≤ key a := by
  obtain ⟨a,hget⟩ := get?_of_lt (sub_one_lt h)
  refine ⟨a,hget,?_⟩
  intro b hb
  obtain ⟨position,hposition⟩ := exists_get?_of_mem hb
  have hlt : position < s.size := (List.getElem?_eq_some_iff.mp hposition).1
  exact key_le_of_le hposition hget (le_sub_one_of_lt hlt)

/-- The last element in front of a bound has a greatest key of those that are wanted. -/
theorem exists_before {bound : Nat} (wanted : κ → Prop) (hle : bound ≤ s.size)
    (hbound : ∀ {position a}, s.get? position = some a → (position < bound ↔ wanted (key a))) (h : bound ≠ 0) :
    ∃ a, s.get? (bound - 1) = some a ∧ wanted (key a) ∧ ∀ b ∈ s.elements, wanted (key b) → key b ≤ key a := by
  obtain ⟨a,hget⟩ := get?_of_lt (lt_of_lt_of_le (sub_one_lt h) hle)
  refine ⟨a,hget,(hbound hget).mp (sub_one_lt h),?_⟩
  intro b hb hwanted
  obtain ⟨position,hposition⟩ := exists_get?_of_mem hb
  have hfront := (hbound hposition).mpr hwanted
  exact key_le_of_le hposition hget (le_sub_one_of_lt hfront)

theorem upperBound_eq_zero (h : s.upperBound k = 0) : ∀ a ∈ s.elements, k < key a := by
  intro a ha
  obtain ⟨position,hget⟩ := exists_get?_of_mem ha
  have hfront := mt (lt_upperBound_iff hget).mpr (h ▸ not_lt_zero position)
  exact lt_of_not_ge hfront

theorem exists_before_lowerBound (h : s.lowerBound k ≠ 0) :
    ∃ a, s.get? (s.lowerBound k - 1) = some a ∧ key a < k ∧ ∀ b ∈ s.elements, key b < k → key b ≤ key a :=
  exists_before (· < k) lowerBound_le_size lt_lowerBound_iff h

theorem lowerBound_eq_zero (h : s.lowerBound k = 0) : ∀ a ∈ s.elements, k ≤ key a := by
  intro a ha
  obtain ⟨position,hget⟩ := exists_get?_of_mem ha
  have hfront := mt (lt_lowerBound_iff hget).mpr (h ▸ not_lt_zero position)
  exact le_of_not_gt hfront

/-- At the lower bound stands one with a least key of those that are not less. -/
theorem exists_at_lowerBound (h : s.lowerBound k ≠ s.size) :
    ∃ a, s.get? (s.lowerBound k) = some a ∧ k ≤ key a ∧ ∀ b ∈ s.elements, k ≤ key b → key a ≤ key b := by
  obtain ⟨a,hget⟩ := get?_of_lt (lt_of_le_of_ne (lowerBound_le_size) h)
  refine ⟨a,hget,le_of_not_gt (mt (lt_lowerBound_iff hget).mpr (lt_irrefl _)),?_⟩
  intro b hb hle
  obtain ⟨position,hposition⟩ := exists_get?_of_mem hb
  have hbehind := mt (lt_lowerBound_iff hposition).mp (not_lt_of_ge hle)
  exact key_le_of_le hget hposition (Nat.le_of_not_lt hbehind)

theorem lowerBound_eq_size (h : s.lowerBound k = s.size) : ∀ a ∈ s.elements, key a < k := by
  intro a ha
  obtain ⟨position,hget⟩ := exists_get?_of_mem ha
  have hlt : position < s.size := (List.getElem?_eq_some_iff.mp hget).1
  exact (lt_lowerBound_iff hget).mp (h ▸ hlt)

/-- The element in front of the upper bound is the last of those whose key is not greater. -/
theorem get?_pred_upperBound (s : OrderedMultiset α key) (k : κ) (h : s.upperBound k ≠ 0) :
    s.get? (s.upperBound k - 1) = (s.elements.filter (key · ≤ k)).getLast? := by
  have hfront : ∀ a ∈ s.elements.takeWhile (key · ≤ k), decide (key a ≤ k) = true := by
    intro a ha
    exact decide_eq_true (le_of_mem_takeWhile ha)
  have hback : ∀ a ∈ s.elements.dropWhile (key · ≤ k), ¬decide (key a ≤ k) = true := by
    intro a ha
    simpa using lt_of_mem_dropWhile s.sorted ha
  have hfilter : s.elements.filter (key · ≤ k) = s.elements.takeWhile (key · ≤ k) := by
    conv_lhs => rw [← takeWhile_append_dropWhile (p := (key · ≤ k)) (l := s.elements)]
    rw [filter_append,filter_eq_self.mpr hfront,filter_eq_nil_iff.mpr hback,append_nil]
  have hlt : s.upperBound k - 1 < (s.elements.takeWhile (key · ≤ k)).length := by
    unfold upperBound at h ⊢
    omega
  rw [hfilter,getLast?_eq_getElem?]
  calc s.elements[s.upperBound k - 1]?
      = (s.elements.takeWhile (key · ≤ k) ++ s.elements.dropWhile (key · ≤ k))[s.upperBound k - 1]? := by
        rw [takeWhile_append_dropWhile]
    _ = (s.elements.takeWhile (key · ≤ k))[s.upperBound k - 1]? := getElem?_append_left hlt

end OrderedMultiset
end FepParticipant.Library
