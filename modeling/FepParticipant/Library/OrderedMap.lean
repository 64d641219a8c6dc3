import Mathlib.Data.List.Perm.Basic
import Mathlib.Data.List.Nodup
import Mathlib.Order.Lattice

/-! A map as the list of its entries in the order of their keys, and insertion that keeps an entry
whose key is already there. -/
namespace FepParticipant.Library.OrderedMap
open List

variable {κ ν : Type} [LinearOrder κ] {entry : κ × ν} {entries : List (κ × ν)}
variable {α : Type} {β : Type}

/-- Every key is once in the list, behind all smaller ones. -/
def Sorted (entries : List (κ × ν)) : Prop := entries.Pairwise fun a b => a.1 < b.1

def insert (entry : κ × ν) : List (κ × ν) → List (κ × ν)
  | [] => [entry]
  | other::entries =>
    if entry.1 < other.1 then entry::other::entries
    else if entry.1 = other.1 then other::entries
    else other::insert entry entries

theorem mem_of_mem_insert {other : κ × ν} (h : other ∈ insert entry entries) : other = entry ∨ other ∈ entries := by
  induction entries with
  | nil => exact .inl (mem_singleton.mp h)
  | cons first entries ih =>
    rw [insert] at h
    split at h
    · exact mem_cons.mp h
    · split at h
      · exact .inr h
      · rcases mem_cons.mp h with rfl | h
        · exact .inr mem_cons_self
        · exact (ih h).imp_right (mem_cons_of_mem _)

/-- The keys after an insertion. -/
theorem mem_keys_insert {key : κ} : key ∈ (insert entry entries).map Prod.fst ↔
    key = entry.1 ∨ key ∈ entries.map Prod.fst := by
  induction entries with
  | nil => simp [insert]
  | cons first entries ih =>
    rw [insert]
    split
    · simp
    · split
      · rename_i hsame
        rw [hsame,map_cons,mem_cons,or_self_left]
      · rw [map_cons,mem_cons,ih,map_cons,mem_cons,or_left_comm]

/-- No key is in the list twice. -/
theorem Sorted.nodup_keys (h : Sorted entries) : (entries.map Prod.fst).Nodup := by
  rw [List.Nodup,pairwise_map]
  exact h.imp fun hlt => ne_of_lt hlt

theorem sorted_insert (h : Sorted entries) : Sorted (insert entry entries) := by
  induction entries with
  | nil => exact pairwise_singleton _ _
  | cons first entries ih =>
    obtain ⟨hfirst,hrest⟩ := pairwise_cons.mp h
    rw [insert]
    split
    · rename_i hlt
      refine pairwise_cons.mpr ⟨fun other hother => ?_,h⟩
      rcases mem_cons.mp hother with rfl | hother
      · exact hlt
      · exact hlt.trans (hfirst other hother)
    · split
      · exact h
      · rename_i hlt hne
        refine pairwise_cons.mpr ⟨fun other hother => ?_,ih hrest⟩
        rcases mem_of_mem_insert hother with rfl | hother
        · exact lt_of_le_of_ne (not_lt.mp hlt) (Ne.symm hne)
        · exact hfirst other hother

/-- A key behind all others goes to the end. -/
private theorem insert_of_gt (h : ∀ other ∈ entries, other.1 < entry.1) :
    insert entry entries = entries ++ [entry] := by
  induction entries with
  | nil => rfl
  | cons first entries ih =>
    have hfirst := h first mem_cons_self
    rw [insert,if_neg (not_lt_of_gt hfirst),if_neg (ne_of_gt hfirst),
      ih fun other hother => h other (mem_cons_of_mem _ hother)]
    rfl

/-- Entries inserted in the order of their keys give the map again. -/
theorem foldl_insert (h : Sorted entries) : entries.foldl (fun map entry => insert entry map) [] = entries := by
  suffices happend : ∀ before : List (κ × ν), Sorted (before ++ entries) →
      entries.foldl (fun map entry => insert entry map) before = before ++ entries from happend [] h
  clear h
  induction entries with
  | nil => intro before _; rw [append_nil]; rfl
  | cons entry entries ih =>
    intro before hsorted
    have hgt : ∀ other ∈ before, other.1 < entry.1 := fun other hother =>
      (pairwise_append.mp hsorted).2.2 other hother entry mem_cons_self
    rw [foldl_cons,insert_of_gt hgt,ih,append_assoc]
    · rfl
    · rw [append_assoc]
      exact hsorted

/-- The map that entries give when they are inserted one after the other. -/
def ofEntries (entries : List (κ × ν)) : List (κ × ν) := entries.foldl (fun map entry => insert entry map) []

private theorem sorted_foldl_insert {map : List (κ × ν)} (h : Sorted map) :
    Sorted (entries.foldl (fun map entry => insert entry map) map) := by
  induction entries generalizing map with
  | nil => exact h
  | cons entry entries ih => exact ih (sorted_insert h)

theorem sorted_ofEntries : Sorted (ofEntries entries) := sorted_foldl_insert List.Pairwise.nil

theorem mem_of_mem_ofEntries {other : κ × ν} (h : other ∈ ofEntries entries) : other ∈ entries := by
  have hfold : ∀ map : List (κ × ν), other ∈ entries.foldl (fun map entry => insert entry map) map →
      other ∈ map ∨ other ∈ entries := by
    clear h
    induction entries with
    | nil => exact fun map h => .inl h
    | cons entry entries ih =>
      intro map h
      rcases ih _ h with h | h
      · exact (mem_of_mem_insert h).elim (fun h => .inr (h ▸ mem_cons_self)) .inl
      · exact .inr (mem_cons_of_mem _ h)
  exact (hfold [] h).resolve_left not_mem_nil

/-- A new key brings its entry. -/
private theorem perm_insert (h : entry.1 ∉ entries.map Prod.fst) : (insert entry entries).Perm (entry::entries) := by
  induction entries with
  | nil => exact .refl _
  | cons first entries ih =>
    rw [map_cons,mem_cons,not_or] at h
    rw [insert]
    split
    · exact .refl _
    · rw [if_neg h.1]
      exact ((ih h.2).cons first).trans (.swap entry first entries)

/-- Entries with different keys are all there. -/
theorem perm_ofEntries (h : (entries.map Prod.fst).Nodup) : (ofEntries entries).Perm entries := by
  have hfold : ∀ map : List (κ × ν), ((map ++ entries).map Prod.fst).Nodup →
      (entries.foldl (fun map entry => insert entry map) map).Perm (map ++ entries) := by
    clear h
    induction entries with
    | nil =>
      intro map _
      rw [append_nil]
      exact .refl map
    | cons entry entries ih =>
      intro map h
      have hnew : entry.1 ∉ map.map Prod.fst := by
        rw [map_append,List.nodup_append] at h
        exact fun hmem => h.2.2 _ hmem _ (mem_map_of_mem mem_cons_self) rfl
      have hswap : (insert entry map ++ entries).Perm (map ++ entry::entries) :=
        ((perm_insert hnew).append_right entries).trans perm_middle.symm
      exact (ih _ ((hswap.map Prod.fst).nodup_iff.mpr h)).trans hswap
  exact hfold [] h

theorem mem_keys_ofEntries {key : κ} : key ∈ (ofEntries entries).map Prod.fst ↔ key ∈ entries.map Prod.fst := by
  have hfold : ∀ map : List (κ × ν), key ∈ (entries.foldl (fun map entry => insert entry map) map).map Prod.fst ↔
      key ∈ map.map Prod.fst ∨ key ∈ entries.map Prod.fst := by
    induction entries with
    | nil => simp
    | cons entry entries ih =>
      intro map
      rw [foldl_cons,ih,mem_keys_insert,map_cons,mem_cons,or_right_comm,or_comm,or_left_comm]
  exact (hfold []).trans (or_iff_right not_mem_nil)

/-- As many entries as were inserted had different keys. -/
theorem nodup_of_length_ofEntries (h : (ofEntries entries).length = entries.length) : (entries.map Prod.fst).Nodup := by
  have hsub : ((ofEntries entries).map Prod.fst).Subperm (entries.map Prod.fst) :=
    subperm_of_subset (sorted_ofEntries).nodup_keys fun _ hkey => mem_keys_ofEntries.mp hkey
  have hperm := hsub.perm_of_length_le (by rw [length_map,length_map]; exact Nat.le_of_eq h.symm)
  exact hperm.nodup_iff.mp (sorted_ofEntries).nodup_keys

/-- Two maps with the same entries are the same list. -/
theorem Sorted.ext {other : List (κ × ν)} (h : Sorted entries) (hother : Sorted other)
    (hsame : ∀ entry, entry ∈ entries ↔ entry ∈ other) : entries = other := by
  have hnodup {map : List (κ × ν)} (h : Sorted map) : map.Nodup :=
    (pairwise_map.mp h.nodup_keys).imp fun hne heq => hne (congrArg Prod.fst heq)
  have hperm : entries.Perm other := (perm_ext_iff_of_nodup (hnodup h) (hnodup hother)).mpr hsame
  exact hperm.eq_of_pairwise (fun a b _ _ hab hba => absurd (hab.trans hba) (lt_irrefl _)) h hother

/-- Set the value of a key, whether it is there or not. -/
def assign (entry : κ × ν) : List (κ × ν) → List (κ × ν)
  | [] => [entry]
  | other::entries =>
    if entry.1 < other.1 then entry::other::entries
    else if entry.1 = other.1 then entry::entries
    else other::assign entry entries

theorem keys_assign : (assign entry entries).map Prod.fst = (insert entry entries).map Prod.fst := by
  induction entries with
  | nil => rfl
  | cons first entries ih =>
    rw [assign,insert]
    split
    · rfl
    · split
      · rename_i hsame
        rw [map_cons,map_cons,hsame]
      · rw [map_cons,map_cons,ih]

section
variable (h : Sorted entries)
include h

/-- The other keys keep their values. -/
theorem mem_assign {other : κ × ν} :
    other ∈ assign entry entries ↔ other = entry ∨ other ∈ entries ∧ other.1 ≠ entry.1 := by
  induction entries with
  | nil => simp [assign]
  | cons first entries ih =>
    obtain ⟨hfirst,hrest⟩ := pairwise_cons.mp h
    rw [assign]
    split
    · rename_i hlt
      refine mem_cons.trans (or_congr_right (iff_self_and.mpr fun hmem => ?_))
      rcases mem_cons.mp hmem with rfl | hmem
      · exact ne_of_gt hlt
      · exact ne_of_gt (hlt.trans (hfirst other hmem))
    · split
      · rename_i hsame
        rw [mem_cons,mem_cons,or_and_right,hsame]
        refine or_congr_right ?_
        constructor
        · exact fun hmem => .inr ⟨hmem,ne_of_gt (hfirst other hmem)⟩
        · rintro (⟨rfl,hne⟩ | ⟨hmem,-⟩)
          · exact absurd rfl hne
          · exact hmem
      · rename_i hne
        rw [mem_cons,ih hrest,mem_cons,or_and_right,or_left_comm]
        refine or_congr_right (or_congr_left (iff_self_and.mpr ?_))
        rintro rfl
        exact Ne.symm hne

theorem sorted_assign : Sorted (assign entry entries) := by
  have hsorted : Sorted (insert entry entries) := sorted_insert h
  rw [Sorted,← pairwise_map,← keys_assign,pairwise_map] at hsorted
  exact hsorted

private theorem sorted_foldl_assign (source : List (κ × ν)) :
    Sorted (source.foldl (fun map entry => assign entry map) entries) := by
  induction source generalizing entries with
  | nil => exact h
  | cons entry source ih => exact ih (sorted_assign h)

/-- The entries of a map override those of another one. -/
theorem mem_foldl_assign {source : List (κ × ν)} (hsource : Sorted source) {other : κ × ν} :
    other ∈ source.foldl (fun map entry => assign entry map) entries ↔
      other ∈ source ∨ other ∈ entries ∧ other.1 ∉ source.map Prod.fst := by
  induction source generalizing entries with
  | nil => simp
  | cons entry source ih =>
    obtain ⟨hfirst,hrest⟩ := pairwise_cons.mp hsource
    rw [foldl_cons,ih (sorted_assign h) hrest,mem_assign h,map_cons,mem_cons,mem_cons,not_or,
      or_and_right,and_assoc,or_left_comm,or_assoc]
    refine or_congr_left ?_
    refine ⟨And.left,fun hentry => ⟨hentry,?_⟩⟩
    -- no later entry has the key of this one
    rw [hentry,mem_map]
    rintro ⟨later,hlater,hkey⟩
    exact ne_of_gt (hfirst later hlater) hkey

theorem foldl_assign_nil : entries.foldl (fun map entry => assign entry map) [] = entries := by
  refine (sorted_foldl_assign List.Pairwise.nil entries).ext h fun entry => ?_
  rw [mem_foldl_assign List.Pairwise.nil h]
  exact or_iff_left fun hempty => not_mem_nil hempty.1

end

/-- In a list without two entries of one key, a lookup finds what is in the list. -/
theorem lookup_eq_some_iff_mem [BEq α] [LawfulBEq α] {entries : List (α × β)} {key : α} {value : β}
    (h : (entries.map Prod.fst).Nodup) : entries.lookup key = some value ↔ (key,value) ∈ entries := by
  induction entries with
  | nil => simp
  | cons first entries ih =>
    obtain ⟨hfresh,hrest⟩ := nodup_cons.mp h
    rw [lookup_cons,mem_cons]
    by_cases hkey : key = first.1
    · have hlater : (key,value) ∉ entries := fun hmem => hfresh (hkey ▸ mem_map_of_mem hmem)
      rw [beq_iff_eq.mpr hkey,or_iff_left hlater,Prod.ext_iff,Option.some.injEq]
      exact ⟨fun hvalue => ⟨hkey,hvalue.symm⟩,fun hentry => hentry.2.symm⟩
    · have hfirst : (key,value) ≠ first := fun hentry => hkey (congrArg Prod.fst hentry)
      rw [beq_false_of_ne hkey,or_iff_right hfirst]
      exact ih hrest

/-- The first entry or the rest has the value of a key. -/
theorem lookup_cons_eq_ite [BEq α] [LawfulBEq α] [DecidableEq α] (first : α × β) (entries : List (α × β))
    (key : α) : (first::entries).lookup key = if key = first.1 then some first.2 else entries.lookup key := by
  rw [lookup_cons]
  by_cases hkey : key = first.1
  · rw [if_pos hkey,beq_iff_eq.mpr hkey]
  · rw [if_neg hkey,beq_false_of_ne hkey]

/-- The value of a key after it or another one was set. -/
theorem lookup_assign (key : κ) :
    (assign entry entries).lookup key = if key = entry.1 then some entry.2 else entries.lookup key := by
  induction entries with
  | nil => exact lookup_cons_eq_ite entry [] key
  | cons first entries ih =>
    rw [assign]
    split
    · rw [lookup_cons_eq_ite]
    · split
      · rename_i hsame
        rw [lookup_cons_eq_ite,lookup_cons_eq_ite,hsame]
        exact ite_congr rfl (fun _ => rfl) fun hne => (if_neg hne).symm
      · rename_i hne
        rw [lookup_cons_eq_ite,ih,lookup_cons_eq_ite]
        by_cases hkey : key = first.1
        · rw [if_pos hkey,if_neg fun hentry => hne (hentry.symm.trans hkey),if_pos hkey]
        · rw [if_neg hkey,if_neg hkey]

/-- Among the entries whose keys are kept. -/
theorem lookup_filter_key [BEq α] [LawfulBEq α] (keep : α → Bool) (entries : List (α × β)) (key : α) :
    (entries.filter fun entry => keep entry.1).lookup key = if keep key then entries.lookup key else none := by
  induction entries with
  | nil => exact (ite_self none).symm
  | cons first entries ih =>
    rw [filter_cons,lookup_cons]
    cases hkey : key == first.1 with
    | false =>
      split
      · rw [lookup_cons,hkey]
        exact ih
      · exact ih
    | true =>
      rw [beq_iff_eq.mp hkey] at ih ⊢
      split
      · rw [lookup_cons,beq_self_eq_true]
      · rename_i hkeep
        rw [ih,if_neg hkeep]

theorem lookup_map_value {α β γ : Type} [BEq α] (f : β → γ) (entries : List (α × β)) (key : α) :
    (entries.map fun entry => (entry.1,f entry.2)).lookup key = (entries.lookup key).map f := by
  induction entries with
  | nil => rfl
  | cons first entries ih =>
    rw [map_cons,lookup_cons,lookup_cons,ih]
    split <;> rfl

/-- Where the keys differ, a key finds the one element that has it. -/
theorem find?_key_eq_some_iff {α β : Type} [BEq β] [LawfulBEq β] {key : α → β} {elements : List α} {k : β} {element : α}
    (h : (elements.map key).Nodup) :
    (elements.find? fun other => key other == k) = some element ↔ element ∈ elements ∧ key element = k := by
  constructor
  · intro hfound
    have hkey := find?_some hfound
    exact ⟨mem_of_find?_eq_some hfound,beq_iff_eq.mp hkey⟩
  · rintro ⟨hmem,rfl⟩
    cases hfound : elements.find? fun other => key other == key element with
    | none => exact absurd (beq_self_eq_true _) (find?_eq_none.mp hfound element hmem)
    | some other =>
      have hkey := find?_some hfound
      rw [beq_iff_eq] at hkey
      rw [inj_on_of_nodup_map h (mem_of_find?_eq_some hfound) hmem hkey]

/-- Where the keys differ, all elements but that with the key are left when it is erased. -/
theorem mem_eraseP_key_iff [BEq β] [LawfulBEq β] {key : α → β} {elements : List α} {k : β} {element : α}
    (h : (elements.map key).Nodup) :
    element ∈ elements.eraseP (fun other => key other == k) ↔ element ∈ elements ∧ key element ≠ k := by
  induction elements with
  | nil => exact iff_of_false not_mem_nil fun hmem => not_mem_nil hmem.1
  | cons first elements ih =>
    obtain ⟨hfresh,hrest⟩ := nodup_cons.mp h
    by_cases hfirst : key first = k
    · rw [eraseP_cons_of_pos (p := fun other : α => key other == k) (beq_iff_eq.mpr hfirst),mem_cons]
      constructor
      · intro hmem
        exact ⟨.inr hmem,fun hsame => hfresh (hfirst.trans hsame.symm ▸ mem_map_of_mem hmem)⟩
      · rintro ⟨rfl | hmem,hother⟩
        · exact absurd hfirst hother
        · exact hmem
    · rw [eraseP_cons_of_neg (p := fun other : α => key other == k) fun hsame => hfirst (beq_iff_eq.mp hsame),
        mem_cons,mem_cons,ih hrest]
      constructor
      · rintro (rfl | hmem)
        · exact ⟨.inl rfl,hfirst⟩
        · exact ⟨.inr hmem.1,hmem.2⟩
      · rintro ⟨rfl | hmem,hother⟩
        · exact .inl rfl
        · exact .inr ⟨hmem,hother⟩

/-- To erase by a key that differs from all others is to keep the others. -/
theorem eraseP_key_eq_filter [BEq β] [LawfulBEq β] {key : α → β} {elements : List α}
    (hkeys : (elements.map key).Nodup) (k : β) :
    (elements.eraseP fun other => key other == k) = elements.filter fun other => key other != k := by
  induction elements with
  | nil => rfl
  | cons first elements ih =>
    obtain ⟨hfresh,hrest⟩ := nodup_cons.mp hkeys
    by_cases hfirst : key first = k
    · rw [eraseP_cons_of_pos (p := fun other : α => key other == k) (beq_iff_eq.mpr hfirst),
        filter_cons_of_neg (by simp [hfirst])]
      refine (filter_eq_self.mpr fun other hmem => ?_).symm
      have hother : key other ≠ k := fun hsame => hfresh (hfirst.trans hsame.symm ▸ mem_map_of_mem hmem)
      simpa using hother
    · rw [eraseP_cons_of_neg (by simpa using hfirst),filter_cons_of_pos (by simpa using hfirst),ih hrest]

/-- What is erased by a key that differs from all others is the element with the key. -/
theorem perm_cons_eraseP_key [BEq β] [LawfulBEq β] {key : α → β} {elements : List α} {element : α}
    (hkeys : (elements.map key).Nodup) (hmem : element ∈ elements) :
    elements.Perm (element::elements.eraseP fun other => key other == key element) := by
  obtain ⟨erased,before,after,-,hkey,hsplit,herased⟩ :=
    exists_of_eraseP (p := fun other => key other == key element) hmem (beq_self_eq_true _)
  have hsame : erased = element :=
    inj_on_of_nodup_map hkeys (hsplit ▸ mem_append_right _ mem_cons_self) hmem (beq_iff_eq.mp hkey)
  rw [herased,← hsame]
  exact hsplit ▸ perm_middle

/-- What is found under a key is its entry. -/
theorem find?_eq_some_iff (h : Sorted entries) {key : κ} {value : ν} :
    entries.find? (fun entry => entry.1 == key) = some (key,value) ↔ (key,value) ∈ entries :=
  (find?_key_eq_some_iff h.nodup_keys).trans (and_iff_left rfl)

end FepParticipant.Library.OrderedMap
