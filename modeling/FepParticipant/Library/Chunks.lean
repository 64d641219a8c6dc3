import Mathlib.Order.Interval.Finset.Nat

/-! A sequence cut into chunks of at most `boundary` elements and put together again from
chunks that arrive one by one. -/
namespace FepParticipant.Library
open List Nat

variable {α : Type}
variable {boundary : Nat}

/-- Overwrite a buffer from a position on, as `memcpy` does. -/
def writeAt (buffer : List α) (destination : Nat) (elements : List α) : List α :=
  buffer.take destination ++ elements ++ buffer.drop (destination + elements.length)

theorem length_writeAt {buffer elements : List α} {destination : Nat}
    (h : destination + elements.length ≤ buffer.length) :
    (writeAt buffer destination elements).length = buffer.length := by
  simp only [writeAt,length_append,length_take,length_drop]
  omega

theorem getElem?_writeAt {buffer elements : List α} {destination : Nat}
    (h : destination + elements.length ≤ buffer.length) (position : Nat) :
    (writeAt buffer destination elements)[position]? =
      if destination ≤ position ∧ position < destination + elements.length then
        elements[position - destination]? else buffer[position]? := by
  have htake : (buffer.take destination).length = destination := by
    rw [length_take]
    omega
  unfold writeAt
  by_cases hbefore : position < destination
  · rw [if_neg (by omega),append_assoc,getElem?_append_left (by omega),getElem?_take_of_lt hbefore]
  · by_cases hinside : position < destination + elements.length
    · rw [if_pos ⟨by omega,hinside⟩,getElem?_append_left (by rw [length_append,htake]; exact hinside),
        getElem?_append_right (by omega),htake]
    · rw [if_neg (by omega),getElem?_append_right (by rw [length_append,htake]; omega),
        length_append,htake,getElem?_drop]
      congr 1
      omega

/-- The chunk with an index. -/
def chunk (boundary : Nat) (source : List α) (index : Nat) : List α := (source.drop (index * boundary)).take boundary

/-- The positions whose chunks are still missing. -/
def missing (boundary length : Nat) (indices : List Nat) : Nat :=
  ((Finset.range length).filter fun position => position / boundary ∉ indices).card

@[simp] theorem missing_nil (boundary length : Nat) : missing boundary length [] = length := by
  simp [missing]

/-- Nothing is missing of a source whose chunks are the first ones. -/
theorem missing_eq_zero_iff {boundary length count : Nat} (hboundary : 0 < boundary) {indices : List Nat}
    (h : ∀ index, index ∈ indices ↔ index < count) :
    missing boundary length indices = 0 ↔ length ≤ count * boundary := by
  rw [missing,Finset.card_eq_zero,Finset.filter_eq_empty_iff]
  constructor
  · intro hnone
    apply Nat.le_of_not_lt
    intro hlt
    have hlast := hnone (Finset.mem_range.mpr hlt)
    rw [Nat.mul_div_cancel _ hboundary,h] at hlast
    exact hlast (lt_irrefl _)
  · intro hle position hposition
    rw [Finset.mem_range] at hposition
    rw [not_not,h,div_lt_iff_lt_mul hboundary]
    exact lt_of_lt_of_le hposition hle

theorem length_chunk (source : List α) (index : Nat) :
    (chunk boundary source index).length = min boundary (source.length - index * boundary) := by
  simp [chunk]

/-- A chunk covers the positions with its index. -/
private theorem card_chunk (hboundary : 0 < boundary) (length index : Nat) :
    ((Finset.range length).filter fun position => position / boundary = index).card =
      min boundary (length - index * boundary) := by
  have hpositions : (Finset.range length).filter (fun position => position / boundary = index) =
      Finset.Ico (index * boundary) (min length (index * boundary + boundary)) := by
    ext position
    simp only [Finset.mem_filter,Finset.mem_range,Finset.mem_Ico,lt_min_iff]
    rw [Nat.div_eq_iff hboundary]
    omega
  rw [hpositions,card_Ico]
  omega

/-- A chunk that was missing lowers the number of missing positions by its length. -/
theorem missing_cons (hboundary : 0 < boundary) (source : List α) {index : Nat}
    {indices : List Nat} (h : index ∉ indices) :
    missing boundary source.length (index::indices) + (chunk boundary source index).length =
      missing boundary source.length indices := by
  let absent := (Finset.range source.length).filter fun position => position / boundary ∉ indices
  have hchunk : absent.filter (fun position => position / boundary = index) =
      (Finset.range source.length).filter fun position => position / boundary = index := by
    ext position
    simp only [absent,Finset.mem_filter]
    constructor
    · rintro ⟨⟨hrange,-⟩,hindex⟩
      exact ⟨hrange,hindex⟩
    · rintro ⟨hrange,hindex⟩
      exact ⟨⟨hrange,hindex ▸ h⟩,hindex⟩
  have hrest : absent.filter (fun position => ¬position / boundary = index) =
      (Finset.range source.length).filter fun position => position / boundary ∉ index::indices := by
    ext position
    simp only [absent,Finset.mem_filter,mem_cons,not_or,and_assoc]
    constructor
    · rintro ⟨hrange,hold,hindex⟩
      exact ⟨hrange,hindex,hold⟩
    · rintro ⟨hrange,hindex,hold⟩
      exact ⟨hrange,hold,hindex⟩
  have hsplit := Finset.card_filter_add_card_filter_not (s := absent) fun position => position / boundary = index
  rw [hchunk,hrest,card_chunk hboundary] at hsplit
  rw [length_chunk,missing,missing,add_comm]
  exact hsplit

/-- The chunks received stand at their places. -/
structure Holds (boundary : Nat) (source : List α) (indices : List Nat) (buffer : List α) : Prop where
  length : buffer.length = source.length
  received : ∀ position, position / boundary ∈ indices → buffer[position]? = source[position]?

namespace Holds

variable {boundary : Nat} {source buffer : List α} {indices : List Nat}

section
variable (h : Holds boundary source indices buffer)
include h

theorem fits {index : Nat} (hindex : index * boundary ≤ source.length) :
    index * boundary + (chunk boundary source index).length ≤ buffer.length := by
  rw [h.length,length_chunk]
  omega

/-- Writing one more chunk to its place. -/
theorem write {index : Nat} (hboundary : 0 < boundary) (hindex : index * boundary ≤ source.length) :
    Holds boundary source (index::indices) (writeAt buffer (index * boundary) (chunk boundary source index)) where
  length := (length_writeAt (h.fits hindex)).trans h.length
  received := by
    intro position hposition
    rw [getElem?_writeAt (h.fits hindex)]
    split
    · rename_i hinside
      rw [length_chunk] at hinside
      rw [chunk,getElem?_take_of_lt (by omega),getElem?_drop]
      congr 1
      omega
    · rename_i houtside
      rcases mem_cons.mp hposition with hsame | hother
      · -- positions of this chunk behind the end of the source
        have hrange := (Nat.div_eq_iff hboundary).mp hsame
        have hlength := h.length
        rw [length_chunk] at houtside
        rw [getElem?_eq_none (by omega),getElem?_eq_none (by omega)]
      · exact h.received position hother

/-- When no position is missing the buffer is the source. -/
theorem complete (hmissing : missing boundary source.length indices = 0) : buffer = source := by
  apply ext_getElem?
  intro position
  by_cases hposition : position < source.length
  · apply h.received
    apply Classical.byContradiction
    intro hnot
    have hmem : position ∈ (Finset.range source.length).filter
        fun position => position / boundary ∉ indices :=
      Finset.mem_filter.mpr ⟨Finset.mem_range.mpr hposition,hnot⟩
    rw [Finset.card_eq_zero.mp hmissing] at hmem
    simp at hmem
  · have hlength := h.length
    rw [getElem?_eq_none (by omega),getElem?_eq_none (by omega)]

end

end Holds
end FepParticipant.Library
