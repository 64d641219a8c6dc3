import FepParticipant.Library.ReplicatedTree
import FepParticipant.PropertyTree.PropertyNodes

/-! The values of a tree by the names on their paths, and what the operations on properties do to them. -/
namespace FepParticipant.PropertyTree
open Library List Option

namespace Property

variable {property sub : Property} {name : String} {names rel : List String} {f : Property → Property}
variable {value : Variant}

def content (root : Property) (names : List String) : Option Values := (getSubproperty names root).map values

/-- `DeleteSubproperty` by name. -/
def deleteSubproperty (strName : String) (property : Property) : Property :=
  property.setSubproperties (property.getSubProperties.eraseP fun sub => sub.name == strName)

theorem getSubproperty_append (names rel : List String) (property : Property) :
    getSubproperty (names ++ rel) property = (getSubproperty names property).bind (getSubproperty rel) := by
  induction names generalizing property with
  | nil => rfl
  | cons name names ih =>
    rw [cons_append,getSubproperty,getSubproperty,bind_assoc]
    congr 1
    funext sub
    exact ih sub

@[simp] theorem content_nil (root : Property) : root.content [] = some root.values := rfl

theorem content_cons (root : Property) :
    root.content (name::names) = (root.findSubproperty name).bind fun sub => sub.content names := by
  rw [content,getSubproperty,map_bind]
  rfl

theorem content_append (root : Property) :
    root.content (names ++ rel) = (getSubproperty names root).bind fun sub => sub.content rel := by
  rw [content,getSubproperty_append,map_bind]
  rfl

variable {root : Property} {P : List String → Prop}

theorem content_eq_none : root.content names = none ↔ getSubproperty names root = none := by
  rw [content,map_eq_none_iff]

theorem content_below_none (h : root.content names = none) (rel : List String) :
    root.content (names ++ rel) = none := by
  rw [content_append,content_eq_none.mp h]
  rfl

theorem find?_updateFirst_other {other : String} (hother : other ≠ name)
    (hf : ∀ property, (f property).name = property.name) (properties : List Property) :
    (updateFirst name f properties).find? (fun sub => sub.name == other) =
      properties.find? fun sub => sub.name == other := by
  induction properties with
  | nil => rfl
  | cons property properties ih =>
    rw [updateFirst]
    by_cases hname : property.name = name
    · rw [if_pos hname,find?_cons_of_neg,find?_cons_of_neg]
      · simpa [hname] using hother.symm
      · simpa [hf,hname] using hother.symm
    · rw [if_neg hname,find?_cons,find?_cons,ih]

theorem content_updateAt (hf : ∀ property, (f property).name = property.name) (root : Property)
    (names other : List String) : (updateAt names f root).content other =
      if names <+: other then (getSubproperty names root).bind fun sub => (f sub).content (other.drop names.length)
      else root.content other := by
  induction names generalizing root other with
  | nil => rw [if_pos nil_prefix]; rfl
  | cons name names ih =>
    cases other with
    | nil => rfl
    | cons other rest =>
      rw [updateAt,content_cons,findSubproperty,getSubProperties_setSubproperties]
      by_cases hname : other = name
      · subst hname
        rw [find?_updateFirst (name_updateAt hf names),getSubproperty,findSubproperty,content_cons,findSubproperty]
        cases root.getSubProperties.find? fun sub => sub.name == other with
        | none => simp
        | some sub => simpa [cons_prefix_cons] using ih sub rest
      · rw [find?_updateFirst_other hname (name_updateAt hf names),if_neg,content_cons,findSubproperty]
        rw [cons_prefix_cons]
        exact fun h => hname h.1.symm

theorem updateAt_apply (hf : ∀ property, (f property).name = property.name) (event : TreeEvent String Values)
    (hbelow : ∀ rel, ((getSubproperty names root).bind fun sub => (f sub).content rel) =
      event.apply root.content (names ++ rel))
    (hother : ∀ other, ¬names <+: other → root.content other = event.apply root.content other) :
    (updateAt names f root).content = event.apply root.content := by
  funext other
  rw [content_updateAt hf]
  by_cases h : names <+: other
  · obtain ⟨rel,rfl⟩ := h
    rw [if_pos (prefix_append _ _),drop_left]
    exact hbelow rel
  · rw [if_neg h]
    exact hother other h

theorem content_updateValues (newValues : Property → Values) (hfound : getSubproperty names root = some sub) :
    (updateAt names (fun property => property.setValues (newValues property)) root).content =
      (TreeEvent.put names (newValues sub)).apply root.content := by
  apply updateAt_apply
  · intro property
    rfl
  · intro rel
    rw [hfound,bind_some]
    cases rel with
    | nil => simp [TreeEvent.apply,content,hfound,getSubproperty]
    | cons name rel =>
      have hother : ¬(names ++ name::rel = names ∧ (root.content names).isSome = true) := fun h => by
        simpa using congrArg List.length h.1
      simp only [TreeEvent.apply,if_neg hother,content_append,hfound]
      rfl
  · intro other hother
    refine (if_neg ?_).symm
    rintro ⟨rfl,-⟩
    exact hother prefix_rfl

theorem content_updateAt_none (hf : ∀ property, (f property).name = property.name)
    (hmissing : getSubproperty names root = none) : (updateAt names f root).content = root.content := by
  funext other
  rw [content_updateAt hf]
  split
  · rename_i hbelow
    obtain ⟨rel,rfl⟩ := hbelow
    rw [content_append,hmissing]
    rfl
  · rfl

theorem content_updateValues_none (newValues : Property → Values) (hmissing : getSubproperty names root = none) :
    (updateAt names (fun property => property.setValues (newValues property)) root).content = root.content :=
  content_updateAt_none (f := fun property => property.setValues (newValues property)) (fun _ => rfl) hmissing

theorem findSubproperty_eq_none : property.findSubproperty name = none ↔ property.content [name] = none := by
  rw [content_cons]
  cases property.findSubproperty name <;> simp

theorem addSubproperty_create (hname : name ≠ "") : (property.addSubproperty (create name value)).2 =
      property.setSubproperties (property.getSubProperties ++ [create name value]) := by
  rw [addSubproperty,if_neg (show (create name value).name ≠ "" from hname)]
  rfl

private theorem content_addSubproperty_create (hname : name ≠ "") (hnew : property.findSubproperty name = none) :
    (property.addSubproperty (create name value)).2.content rel =
      if rel = [name] then some (create name value).values else property.content rel := by
  rw [addSubproperty_create hname]
  cases rel with
  | nil => rfl
  | cons other rel =>
    rw [content_cons,content_cons,findSubproperty,getSubProperties_setSubproperties,find?_append]
    by_cases hother : other = name
    · subst hother
      rw [findSubproperty] at hnew
      rw [findSubproperty,hnew,find?_cons_of_pos (by exact beq_self_eq_true other)]
      cases rel with
      | nil => simp
      | cons next rel => simp [content_cons,findSubproperty,create,getSubProperties]
    · rw [find?_cons_of_neg (by simpa [create,Property.name] using fun h => hother h.symm),find?_nil,
        or_none,if_neg (by simp [hother])]
      rfl

theorem content_addSubproperty (hname : name ≠ "") (hnew : root.content (names ++ [name]) = none) (value : Variant) :
    (updateAt names (fun property => (property.addSubproperty (create name value)).2) root).content =
      (TreeEvent.add names name (create name value).values).apply root.content := by
  apply updateAt_apply
  · intro property
    rw [addSubproperty_create hname]
    rfl
  · intro rel
    simp only [TreeEvent.apply,append_cancel_left_eq]
    cases hfound : getSubproperty names root with
    | none =>
      rw [content_append,hfound]
      simp [content,hfound]
    | some sub =>
      rw [content_append,hfound] at hnew
      rw [content_append,hfound,content,hfound,bind_some,
        content_addSubproperty_create hname (findSubproperty_eq_none.mpr hnew)]
      simp
  · intro other hother
    refine (if_neg ?_).symm
    rintro ⟨rfl,-⟩
    exact hother (prefix_append _ _)

def NamesMeet (P : List String → Prop) (property : Property) : Prop :=
  ∀ node ∈ property.nodes, P (node.getSubProperties.map Property.name)

theorem namesMeet_mk {values : Values} {subproperties : List Property} : (mk name values subproperties).NamesMeet P ↔
      P (subproperties.map Property.name) ∧ ∀ sub ∈ subproperties, sub.NamesMeet P :=
  forall_nodes_mk

theorem namesMeet_iff : property.NamesMeet P ↔ P (property.getSubProperties.map Property.name) ∧
      ∀ sub ∈ property.getSubProperties, sub.NamesMeet P := by
  cases property
  exact namesMeet_mk

theorem NamesMeet.updateAt (h : root.NamesMeet P) (hname : ∀ property, (f property).name = property.name)
    (hf : ∀ sub, getSubproperty names root = some sub → sub.NamesMeet P → (f sub).NamesMeet P) :
    (updateAt names f root).NamesMeet P := by
  induction names generalizing root with
  | nil => exact hf root rfl h
  | cons name names ih =>
    rw [namesMeet_iff] at h
    have hfirst (properties : List Property) (hall : ∀ sub ∈ properties, sub.NamesMeet P)
        (hfound : ∀ sub, properties.find? (fun sub => sub.name == name) = some sub →
          (Property.updateAt names f sub).NamesMeet P) :
        (updateFirst name (Property.updateAt names f) properties).map Property.name = properties.map Property.name ∧
          ∀ sub ∈ updateFirst name (Property.updateAt names f) properties, sub.NamesMeet P := by
      induction properties with
      | nil => exact ⟨rfl,hall⟩
      | cons property properties ihlist =>
        rw [forall_mem_cons] at hall
        rw [updateFirst]
        by_cases hsame : property.name = name
        · rw [if_pos hsame]
          refine ⟨by rw [map_cons,map_cons,name_updateAt hname],forall_mem_cons.mpr ⟨?_,hall.2⟩⟩
          exact hfound property (find?_cons_of_pos (by simpa using hsame))
        · rw [if_neg hsame]
          obtain ⟨hnames,hsubs⟩ := ihlist hall.2 fun sub hsub =>
            hfound sub ((find?_cons_of_neg (by simpa using hsame)).trans hsub)
          exact ⟨by rw [map_cons,map_cons,hnames],forall_mem_cons.mpr ⟨hall.1,hsubs⟩⟩
    obtain ⟨hnames,hsubs⟩ := hfirst root.getSubProperties h.2 fun sub hsub =>
      ih (h.2 sub (mem_of_find?_eq_some hsub)) fun found hfound =>
        hf found (by rw [getSubproperty,findSubproperty,hsub]; exact hfound)
    rw [Property.updateAt,namesMeet_iff,getSubProperties_setSubproperties,hnames]
    exact ⟨h.1,hsubs⟩

def DistinctNames (property : Property) : Prop := property.NamesMeet List.Nodup

/-- The names can stand in paths. -/
def ProperNames (property : Property) : Prop := property.NamesMeet fun names => ∀ name ∈ names, ProperName name

instance {P : List String → Prop} [DecidablePred P] (property : Property) : Decidable (property.NamesMeet P) :=
  inferInstanceAs (Decidable (∀ node ∈ property.nodes, P (node.getSubProperties.map Property.name)))

instance (property : Property) : Decidable property.DistinctNames := inferInstanceAs (Decidable (property.NamesMeet _))

instance (property : Property) : Decidable property.ProperNames := inferInstanceAs (Decidable (property.NamesMeet _))

theorem NamesMeet.getSubproperty (h : root.NamesMeet P)
    (hfound : getSubproperty names root = some sub) : sub.NamesMeet P := by
  induction names generalizing root with
  | nil =>
    cases hfound
    exact h
  | cons name names ih =>
    obtain ⟨next,hnext,hrest⟩ := bind_eq_some_iff.mp hfound
    exact ih ((namesMeet_iff.mp h).2 next (mem_of_find?_eq_some hnext)) hrest

private theorem find?_eraseP (other : String) {properties : List Property}
    (hnodup : (properties.map Property.name).Nodup) :
    (properties.eraseP fun sub => sub.name == name).find? (fun sub => sub.name == other) =
      if other = name then none else properties.find? fun sub => sub.name == other := by
  induction properties with
  | nil => simp
  | cons property properties ih =>
    rw [map_cons,nodup_cons] at hnodup
    by_cases hname : property.name = name
    · rw [eraseP_cons_of_pos (by simpa using hname)]
      by_cases hother : other = name
      · rw [if_pos hother,find?_eq_none]
        intro sub hsub hsame
        have hsub' : sub.name = other := by simpa using hsame
        exact hnodup.1 (mem_map.mpr ⟨sub,hsub,by rw [hsub',hother,hname]⟩)
      · rw [if_neg hother,find?_cons_of_neg (by simpa [hname] using fun h => hother h.symm)]
    · rw [eraseP_cons_of_neg (by simpa using hname),find?_cons,find?_cons,ih hnodup.2]
      by_cases hother : other = name
      · subst hother
        rw [if_pos rfl,if_pos rfl,beq_eq_false_iff_ne.mpr hname]
      · rw [if_neg hother,if_neg hother]

theorem content_deleteSubproperty (hdistinct : root.DistinctNames) (names : List String)
    (name : String) : (updateAt names (deleteSubproperty name) root).content =
      (TreeEvent.drop (names ++ [name])).apply root.content := by
  apply updateAt_apply
  · intro property
    rfl
  · intro rel
    simp only [TreeEvent.apply,prefix_append_right_inj]
    cases hfound : getSubproperty names root with
    | none =>
      rw [content_append,hfound]
      simp
    | some sub =>
      have hnodup := (namesMeet_iff.mp (NamesMeet.getSubproperty hdistinct hfound)).1
      rw [content_append,hfound,bind_some,bind_some]
      cases rel with
      | nil => simp [deleteSubproperty]
      | cons other rel =>
        rw [content_cons,content_cons,findSubproperty,deleteSubproperty,getSubProperties_setSubproperties,
          find?_eraseP other hnodup]
        by_cases hother : other = name
        · simp [hother]
        · rw [if_neg hother,if_neg fun h => hother (cons_prefix_cons.mp h).1.symm]
          rfl
  · intro other hother
    refine (if_neg ?_).symm
    exact fun h => hother ((prefix_append _ _).trans h)

theorem NamesMeet.setValues (h : root.NamesMeet P) (names : List String) (values : Property → Values) :
    (Property.updateAt names (fun property => property.setValues (values property)) root).NamesMeet P := by
  apply h.updateAt
  · intro property
    rfl
  · intro sub _ hsub
    rw [namesMeet_iff] at hsub ⊢
    exact hsub

theorem NamesMeet.addSubproperty (h : root.NamesMeet P) (hnil : P []) (hname : name ≠ "") (value : Variant)
    (hnew : ∀ sub, Property.getSubproperty names root = some sub →
      P (sub.getSubProperties.map Property.name ++ [name])) :
    (Property.updateAt names (fun property => (property.addSubproperty (create name value)).2) root).NamesMeet P := by
  apply h.updateAt
  · intro property
    rw [addSubproperty_create hname]
    rfl
  · intro sub hfound hsub
    rw [namesMeet_iff] at hsub
    rw [addSubproperty_create hname,namesMeet_iff,getSubProperties_setSubproperties,map_append]
    refine ⟨hnew sub hfound,fun other hother => ?_⟩
    rcases mem_append.mp hother with hold | hcreated
    · exact hsub.2 other hold
    · obtain rfl := mem_singleton.mp hcreated
      exact namesMeet_mk.mpr ⟨hnil,fun _ hmem => absurd hmem not_mem_nil⟩

theorem NamesMeet.deleteSubproperty (h : root.NamesMeet P)
    (hsub : ∀ less all, less.Sublist all → P all → P less) (names : List String) (name : String) :
    (Property.updateAt names (Property.deleteSubproperty name) root).NamesMeet P := by
  apply h.updateAt
  · intro property
    rfl
  · intro sub _ hsubs
    rw [namesMeet_iff] at hsubs
    rw [Property.deleteSubproperty,namesMeet_iff,getSubProperties_setSubproperties]
    exact ⟨hsub _ _ (eraseP_sublist.map _) hsubs.1,fun other hother => hsubs.2 other (mem_of_mem_eraseP hother)⟩

theorem nodup_append_new (hdistinct : root.DistinctNames) (hnew : root.content (names ++ [name]) = none)
    (hfound : getSubproperty names root = some sub) : (sub.getSubProperties.map Property.name ++ [name]).Nodup := by
  have hnodup := (namesMeet_iff.mp (NamesMeet.getSubproperty hdistinct hfound)).1
  rw [content_append,hfound,bind_some,← findSubproperty_eq_none,findSubproperty,find?_eq_none] at hnew
  rw [List.nodup_append]
  refine ⟨hnodup,by simp,fun first hfirst second hsecond hsame => ?_⟩
  obtain rfl := mem_singleton.mp hsecond
  obtain ⟨other,hother,rfl⟩ := mem_map.mp hfirst
  exact hnew other hother (beq_iff_eq.mpr hsame)

theorem name_addSubproperty (property sub : Property) : (property.addSubproperty sub).2.name = property.name := by
  rw [Property.addSubproperty]
  split <;> rfl

private theorem values_addSubproperty : (property.addSubproperty sub).2.values = property.values := by
  rw [Property.addSubproperty]
  split <;> rfl

theorem name_getOrMakeSubproperty (names : List String) (value : Variant) (property : Property) :
    (getOrMakeSubproperty names value property).name = property.name := by
  cases names with
  | nil => rfl
  | cons name names =>
    rw [getOrMakeSubproperty]
    split
    · rfl
    · exact name_addSubproperty _ _

theorem values_getOrMakeSubproperty : (getOrMakeSubproperty names value property).values = property.values := by
  cases names with
  | nil => rfl
  | cons name names =>
    rw [getOrMakeSubproperty]
    split
    · rfl
    · exact values_addSubproperty

theorem content_create :
    (create name value).content rel = if rel = [] then some (create "" value).values else none := by
  cases rel with
  | nil => rfl
  | cons other rel => simp [content_cons,findSubproperty,create,getSubProperties]

theorem content_getOrMakeSubproperty_cons (hname : name ≠ "") (first : String) (rest : List String) :
    (getOrMakeSubproperty (name::names) value root).content (first::rest) =
      if first = name then
        (getOrMakeSubproperty names value ((root.findSubproperty name).getD
          (create name (if names = [] then value else .string "")))).content rest
      else root.content (first::rest) := by
  have hkeep (property : Property) : (getOrMakeSubproperty names value property).name = property.name :=
    name_getOrMakeSubproperty names value property
  rw [getOrMakeSubproperty]
  cases hfound : root.findSubproperty name with
  | some sub =>
    rw [isSome_some,if_pos rfl,content_cons,content_cons,findSubproperty,getSubProperties_setSubproperties]
    by_cases hfirst : first = name
    · subst hfirst
      rw [find?_updateFirst hkeep,if_pos rfl,← findSubproperty,hfound]
      rfl
    · rw [find?_updateFirst_other hfirst hkeep,if_neg hfirst]
      rfl
  | none =>
    have hmade : (getOrMakeSubproperty names value
        (create name (if names = [] then value else .string ""))).name ≠ "" := by
      rw [hkeep]
      exact hname
    rw [isSome_none,if_neg Bool.false_ne_true]
    simp only [Property.addSubproperty,if_neg hmade]
    rw [content_cons,content_cons,findSubproperty,getSubProperties,find?_append]
    by_cases hfirst : first = name
    · subst hfirst
      rw [findSubproperty] at hfound
      rw [hfound,if_pos rfl,find?_cons_of_pos]
      · rfl
      · exact beq_iff_eq.mpr (hkeep _)
    · rw [if_neg hfirst,find?_cons_of_neg,find?_nil,or_none]
      · rfl
      · rw [hkeep,beq_iff_eq]
        exact fun h => hfirst h.symm

theorem content_getOrMakeSubproperty {names : List String} (hnames : ∀ name ∈ names, name ≠ "") (value : Variant)
    (root : Property) (other : List String) : (getOrMakeSubproperty names value root).content other =
      (root.content other).or (if other ≠ [] ∧ other <+: names then
        some (if other = names then (create "" value).values else .strings "" []) else none) := by
  induction names generalizing root other with
  | nil =>
    rw [if_neg fun h => h.1 (prefix_nil.mp h.2),or_none]
    rfl
  | cons name names ih =>
    rw [forall_mem_cons] at hnames
    cases other with
    | nil => rw [content_nil,content_nil,values_getOrMakeSubproperty,some_or]
    | cons first rest =>
      rw [content_getOrMakeSubproperty_cons hnames.1,content_cons]
      by_cases hfirst : first = name
      · subst hfirst
        rw [if_pos rfl,ih hnames.2]
        cases root.findSubproperty first with
        | some sub => cases rest <;> simp [cons_prefix_cons]
        | none =>
          rw [getD_none,content_create,bind_none]
          cases rest <;> cases names <;> simp [cons_prefix_cons]
          rfl
      · rw [if_neg hfirst,if_neg fun h => hfirst (cons_prefix_cons.mp h.2).1,or_none]

end Property

end FepParticipant.PropertyTree
