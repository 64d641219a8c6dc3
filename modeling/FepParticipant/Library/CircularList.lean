import Mathlib.Data.List.Basic
import Mathlib.Data.Nat.ModEq

/-! A list that lies in the slots of a fixed array from some position on and goes round at its end, and
lists of which only the last elements are kept. -/
namespace FepParticipant.Library
open List Nat

variable {ε : Type}

/-- The items lie in the slots from the position `start` on. -/
def Lies (slots : List ε) (start : Nat) (items : List ε) : Prop :=
  ∀ i < items.length, slots[(start + i) % slots.length]? = items[i]?

namespace Lies
variable {slots items : List ε} {item : ε} {start position : Nat}

theorem nil (slots : List ε) (start : Nat) : Lies slots start [] := by
  intro i hi
  cases hi

/-- Two positions that differ by less than the number of slots are different slots. -/
theorem slot_ne {n start i j : Nat} (hij : i < j) (hj : j < n) : (start + i) % n ≠ (start + j) % n := by
  intro hsame
  have hmod : i ≡ j [MOD n] := Nat.ModEq.add_left_cancel' start hsame
  exact Nat.ne_of_lt hij (hmod.eq_of_lt_of_lt (Nat.lt_trans hij hj) hj)

/-- A slot that holds none of the items may be changed. -/
theorem set (h : Lies slots start items) (item : ε) (hout : ∀ i < items.length, position ≠ (start + i) % slots.length) :
    Lies (slots.set position item) start items := by
  intro i hi
  rw [length_set,getElem?_set_ne (hout i hi)]
  exact h i hi

/-- An item is added in the slot behind the last, when there is one more slot than items. -/
theorem append (h : Lies slots start items) (hroom : items.length < slots.length) (item : ε) :
    Lies (slots.set ((start + items.length) % slots.length) item) start (items ++ [item]) := by
  have hset := h.set item fun i hi => (slot_ne hi hroom).symm
  intro i hi
  rw [length_append,length_singleton] at hi
  rcases Nat.lt_succ_iff_lt_or_eq.mp hi with hi | rfl
  · rw [hset i hi,getElem?_append_left hi]
  · have hslot : (start + items.length) % slots.length < slots.length :=
      mod_lt _ (lt_of_le_of_lt (zero_le _) hroom)
    rw [length_set,getElem?_set_self hslot,getElem?_concat_length]

theorem head (h : Lies slots start (item::items)) : slots[start % slots.length]? = some item := h 0 (succ_pos _)

theorem tail (h : Lies slots start (item::items)) : Lies slots (start + 1) items := by
  intro i hi
  have hnext := h (i + 1) (succ_lt_succ hi)
  rw [add_assoc,add_comm 1 i,hnext,getElem?_cons_succ]

theorem tail_of (h : Lies slots start items) : Lies slots (start + 1) items.tail := by
  cases items with
  | nil => exact nil slots _
  | cons item items => exact h.tail

/-- The slot of the first item is not needed for the others. -/
theorem tail_set (h : Lies slots start (item::items)) (hfits : items.length < slots.length) (other : ε) :
    Lies (slots.set (start % slots.length) other) (start + 1) items := by
  apply h.tail.set
  intro i hi
  rw [add_assoc,add_comm 1 i]
  exact @slot_ne slots.length start 0 (i + 1) (succ_pos i) (lt_of_le_of_lt hi hfits)

/-- Whole turns of the starting position do not matter. -/
theorem mod (h : Lies slots start items) : Lies slots (start % slots.length) items := by
  intro i hi
  rw [mod_add_mod]
  exact h i hi

end Lies

/-- The last `count` elements of a list. -/
def keepLast (count : Nat) (items : List ε) : List ε := items.drop (items.length - count)

section
variable {items : List ε} {count : Nat}

theorem keepLast_of_le (h : items.length ≤ count) : keepLast count items = items := by
  rw [keepLast,Nat.sub_eq_zero_of_le h,drop_zero]

/-- A list that is full loses its first element for a new one. -/
theorem keepLast_append_of_full {first : ε} (h : (first::items).length = count) (item : ε) :
    keepLast count (first::items ++ [item]) = items ++ [item] := by
  have hdrop : (first::items ++ [item]).length - count = 1 := by
    rw [length_append,h,length_singleton]
    omega
  rw [keepLast,hdrop]
  rfl

/-- Behind a list that fills the room a new element pushes the first one out. -/
theorem keepLast_append_of_le (hpos : 0 < count) (h : count ≤ items.length) (item : ε) :
    keepLast count (items ++ [item]) = (keepLast count items).tail ++ [item] := by
  have hdrop : (items ++ [item]).length - count = items.length - count + 1 := by
    rw [length_append,length_singleton]
    omega
  rw [keepLast,hdrop,drop_append_of_le_length (by omega),← tail_drop,keepLast]

theorem length_keepLast : (keepLast count items).length = min items.length count := by
  rw [keepLast,length_drop]
  omega

theorem keepLast_suffix : keepLast count items <:+ items := drop_suffix _ _

theorem map_keepLast {δ : Type} (f : ε → δ) : (keepLast count items).map f = keepLast count (items.map f) := by
  rw [keepLast,keepLast,map_drop,length_map]

/-- What has been pushed out does not matter to later elements. -/
theorem keepLast_keepLast_append (later : List ε) :
    keepLast count (keepLast count items ++ later) = keepLast count (items ++ later) := by
  have hfront : keepLast count items ++ later = (items ++ later).drop (items.length - count) := by
    rw [keepLast,drop_append_of_le_length (sub_le ..)]
  rw [hfront,keepLast,keepLast,drop_drop,length_drop,length_append]
  congr 1
  omega

end

end FepParticipant.Library
