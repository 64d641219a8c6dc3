import Mathlib.Data.List.Nodup

/-! Objects that are created and deleted, with the record of their deletions. -/
namespace FepParticipant.Library
open List Nat

/-- Every object has its own number; a deletion of a number that is not alive is on record as well. -/
structure Heap (α : Type) where
  next : Nat
  objects : List (Nat × α)
  deleted : List Nat

namespace Heap
variable {α : Type} {heap : Heap α} {object : α} {i j : Nat}
variable {entry : Nat × α}

def empty : Heap α := ⟨0,[],[]⟩

/-- The object that is created has the number `heap.next`. -/
def new (heap : Heap α) (object : α) : Heap α :=
  {heap with next := heap.next + 1, objects := heap.objects ++ [(heap.next,object)]}

def delete (heap : Heap α) (i : Nat) : Heap α :=
  {heap with objects := heap.objects.filter fun entry => entry.1 != i, deleted := i::heap.deleted}

def deleteAll (heap : Heap α) (numbers : List Nat) : Heap α := numbers.foldl delete heap

def modify (heap : Heap α) (i : Nat) (change : α → α) : Heap α :=
  {heap with objects := heap.objects.map fun entry => if entry.1 = i then (entry.1,change entry.2) else entry}

def get? (heap : Heap α) (i : Nat) : Option α := (heap.objects.find? fun entry => entry.1 == i).map Prod.snd

def Alive (heap : Heap α) (i : Nat) : Prop := i ∈ heap.objects.map Prod.fst

instance (heap : Heap α) (i : Nat) : Decidable (heap.Alive i) := inferInstanceAs (Decidable (_ ∈ _))

/-- Every object that was created is alive or has been deleted once. -/
structure Valid (heap : Heap α) : Prop where
  nodup : (heap.objects.map Prod.fst).Nodup
  created : ∀ i, heap.Alive i → i < heap.next
  deleted : ∀ i, heap.deleted.count i = if i < heap.next ∧ ¬ heap.Alive i then 1 else 0

theorem alive_of_mem (h : (i,object) ∈ heap.objects) : heap.Alive i := mem_map_of_mem h

theorem alive_iff : heap.Alive i ↔ ∃ object, (i,object) ∈ heap.objects := by
  rw [Alive,mem_map]
  constructor
  · rintro ⟨⟨number,object⟩,hmem,rfl⟩
    exact ⟨object,hmem⟩
  · rintro ⟨object,hmem⟩
    exact ⟨_,hmem,rfl⟩

theorem valid_empty : (empty : Heap α).Valid where
  nodup := nodup_nil
  created i h := absurd h not_mem_nil
  deleted i := by rw [if_neg fun h => absurd h.1 (not_lt_zero i)]; rfl

theorem mem_new : entry ∈ (heap.new object).objects ↔ entry ∈ heap.objects ∨ entry = (heap.next,object) := by
  rw [new,mem_append,mem_singleton]

@[simp] theorem alive_new : (heap.new object).Alive i ↔ heap.Alive i ∨ i = heap.next := by
  simp [Alive,new]

theorem mem_delete : entry ∈ (heap.delete i).objects ↔ entry ∈ heap.objects ∧ entry.1 ≠ i := by
  rw [delete,mem_filter,bne_iff_ne]

@[simp] theorem alive_delete : (heap.delete i).Alive j ↔ heap.Alive j ∧ j ≠ i := by
  simp only [alive_iff,mem_delete,exists_and_right]

@[simp] theorem next_new : (heap.new object).next = heap.next + 1 := rfl
@[simp] theorem next_delete : (heap.delete i).next = heap.next := rfl
@[simp] theorem next_modify (change : α → α) : (heap.modify i change).next = heap.next := rfl
@[simp] theorem deleted_new : (heap.new object).deleted = heap.deleted := rfl
@[simp] theorem deleted_delete : (heap.delete i).deleted = i::heap.deleted := rfl

theorem map_fst_modify (change : α → α) :
    (heap.modify i change).objects.map Prod.fst = heap.objects.map Prod.fst := by
  rw [modify,map_map]
  apply map_congr_left
  intro entry _
  rw [Function.comp_apply]
  split <;> rfl

@[simp] theorem alive_modify (change : α → α) : (heap.modify i change).Alive j ↔ heap.Alive j := by
  rw [Alive,map_fst_modify]
  rfl

theorem mem_modify {change : α → α} : entry ∈ (heap.modify i change).objects ↔
    ∃ object, (entry.1,object) ∈ heap.objects ∧ entry.2 = if entry.1 = i then change object else object := by
  rw [modify,mem_map]
  constructor
  · rintro ⟨⟨number,object⟩,hmem,rfl⟩
    by_cases hsame : number = i
    · rw [if_pos hsame]
      exact ⟨object,hmem,(if_pos hsame).symm⟩
    · rw [if_neg hsame]
      exact ⟨object,hmem,(if_neg hsame).symm⟩
  · rintro ⟨object,hmem,hsame⟩
    refine ⟨_,hmem,Prod.ext ?_ ?_⟩
    · split <;> rfl
    · rw [hsame]
      split <;> rfl

namespace Valid

/-- A new object has not been deleted. -/
theorem not_deleted_next (h : heap.Valid) : heap.deleted.count heap.next = 0 := by
  rw [h.deleted,if_neg fun hdeleted => Nat.lt_irrefl _ hdeleted.1]

theorem not_alive_next (h : heap.Valid) : ¬ heap.Alive heap.next := fun halive => Nat.lt_irrefl _ (h.created _ halive)

protected theorem new (h : heap.Valid) (object : α) : (heap.new object).Valid where
  nodup := by
    rw [Heap.new,map_append,map_singleton]
    exact h.nodup.append (nodup_singleton _) (disjoint_singleton.mpr h.not_alive_next)
  created i halive := by
    rcases alive_new.mp halive with halive | rfl
    · exact lt_succ_of_lt (h.created i halive)
    · exact lt_succ_self _
  deleted i := by
    rw [deleted_new,h.deleted]
    by_cases hi : i = heap.next
    · rw [if_neg (by rintro ⟨hlt,-⟩; omega),if_neg (by rintro ⟨-,hdead⟩; exact hdead (alive_new.mpr (.inr hi)))]
    · simp only [alive_new,hi,or_false,next_new]
      exact if_congr (and_congr_left fun _ => by omega) rfl rfl

protected theorem delete (h : heap.Valid) (halive : heap.Alive i) : (heap.delete i).Valid where
  nodup := by
    rw [Heap.delete]
    exact h.nodup.sublist (filter_sublist.map _)
  created j hj := h.created j (alive_delete.mp hj).1
  deleted j := by
    rw [deleted_delete,count_cons,h.deleted]
    by_cases hj : j = i
    · subst hj
      rw [if_neg fun hdead => hdead.2 halive,if_pos (beq_self_eq_true _),
        if_pos ⟨h.created j halive,fun halive => (alive_delete.mp halive).2 rfl⟩]
    · simp [hj,Ne.symm hj]

protected theorem modify (h : heap.Valid) (change : α → α) : (heap.modify i change).Valid where
  nodup := by
    rw [map_fst_modify]
    exact h.nodup
  created j hj := h.created j ((alive_modify change).mp hj)
  deleted j := by
    simp only [alive_modify,next_modify]
    exact h.deleted j

/-- An object that is deleted as soon as it has been created leaves the others as they were. -/
theorem mem_delete_new (h : heap.Valid) :
    entry ∈ ((heap.new object).delete heap.next).objects ↔ entry ∈ heap.objects := by
  rw [mem_delete,mem_new]
  constructor
  · rintro ⟨hmem | rfl,hne⟩
    · exact hmem
    · exact absurd rfl hne
  · intro hmem
    refine ⟨.inl hmem,fun hentry => h.not_alive_next ?_⟩
    rw [← hentry]
    exact alive_of_mem hmem

/-- An object that is alive is found. -/
theorem get?_eq (h : heap.Valid) (hmem : (i,object) ∈ heap.objects) : heap.get? i = some object := by
  rw [get?]
  obtain ⟨entry,hentry⟩ : ∃ entry, heap.objects.find? (fun entry => entry.1 == i) = some entry :=
    Option.isSome_iff_exists.mp (find?_isSome.mpr ⟨_,hmem,beq_self_eq_true i⟩)
  have hsame : entry = (i,object) :=
    inj_on_of_nodup_map h.nodup (mem_of_find?_eq_some hentry) hmem (by simpa using find?_some hentry)
  rw [hentry,hsame]
  rfl

end Valid

/-- The objects that are alive are deleted one after the other. -/
theorem deleteAll_spec {numbers : List Nat} (h : heap.Valid) (hnodup : numbers.Nodup)
    (halive : ∀ i ∈ numbers, heap.Alive i) :
    (heap.deleteAll numbers).Valid ∧ (heap.deleteAll numbers).next = heap.next ∧
      ∀ i, (heap.deleteAll numbers).Alive i ↔ heap.Alive i ∧ i ∉ numbers := by
  induction numbers generalizing heap with
  | nil => exact ⟨h,rfl,fun i => by simp [deleteAll]⟩
  | cons first numbers ih =>
    obtain ⟨hfirst,hnodup⟩ := nodup_cons.mp hnodup
    have hrest : ∀ i ∈ numbers, (heap.delete first).Alive i := by
      intro i hi
      refine alive_delete.mpr ⟨halive i (mem_cons_of_mem _ hi),?_⟩
      rintro rfl
      exact hfirst hi
    obtain ⟨hvalid,hnext,hlive⟩ := ih (h.delete (halive first mem_cons_self)) hnodup hrest
    refine ⟨hvalid,hnext,fun i => (hlive i).trans ?_⟩
    rw [alive_delete,mem_cons,not_or,and_assoc]

end Heap
end FepParticipant.Library
