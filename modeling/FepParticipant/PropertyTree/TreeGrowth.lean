import FepParticipant.Library.OrderedMap
import FepParticipant.PropertyTree.MirrorFollows
import FepParticipant.PropertyTree.Subscriptions

/-! Setting and merging properties leaves what is there in place, and the names in a tree stay different and are not
empty. What setting and deleting do to a flag. -/
namespace FepParticipant.PropertyTree
open Library List Option
open PropertyNodes (joinPath)

namespace Property

variable {root root' root'' property sub : Property} {names other : List String} {f : Property → Property}

/-- What is there stays there. -/
def Grows (root root' : Property) : Prop :=
  ∀ names, (root.content names).isSome = true → (root'.content names).isSome = true

theorem Grows.refl (root : Property) : Grows root root := fun _ h => h

theorem Grows.trans (h : Grows root root') (h' : Grows root' root'') : Grows root root'' :=
  fun names hthere => h' names (h names hthere)

theorem grows_updateAt (hname : ∀ property, (f property).name = property.name)
    (hf : ∀ property, Grows property (f property)) (names : List String) (root : Property) :
    Grows root (updateAt names f root) := by
  intro other hother
  rw [content_updateAt hname]
  split
  · rename_i hbelow
    obtain ⟨rel,rfl⟩ := hbelow
    rw [content_append] at hother
    rw [drop_left]
    cases hfound : getSubproperty names root with
    | none =>
      rw [hfound] at hother
      cases hother
    | some sub =>
      rw [hfound] at hother
      exact hf sub rel hother
  · exact hother

theorem grows_setValues (values : Property → Values) (names : List String) (root : Property) :
    Grows root (updateAt names (fun property => property.setValues (values property)) root) := by
  apply grows_updateAt
  · intro property
    rfl
  · intro property rel hrel
    cases rel with
    | nil => rfl
    | cons name rel => exact hrel

theorem grows_addSubproperty (property sub : Property) : Grows property (property.addSubproperty sub).2 := by
  intro names hnames
  rw [addSubproperty]
  split
  · exact hnames
  · cases names with
    | nil => rfl
    | cons name names =>
      rw [content_cons,findSubproperty] at hnames
      rw [content_cons,findSubproperty,getSubProperties,find?_append]
      cases hfound : property.getSubProperties.find? fun sub => sub.name == name with
      | none =>
        rw [hfound] at hnames
        cases hnames
      | some found =>
        rw [hfound] at hnames
        exact hnames

theorem grows_getOrMakeSubproperty (names : List String) (value : Variant) (root : Property) :
    Grows root (root.getOrMakeSubproperty names value) := by
  induction names generalizing root with
  | nil => exact Grows.refl root
  | cons name names ih =>
    rw [getOrMakeSubproperty]
    split
    · exact grows_updateAt (name_getOrMakeSubproperty names value) ih [name] root
    · exact grows_addSubproperty _ _

theorem grows_setSubproperty (strName : String) (value : Variant) (property : Property) :
    Grows property (property.setSubproperty strName value) := by
  rw [setSubproperty]
  split
  · exact grows_setValues (fun sub => sub.values.setValue value) [strName] property
  · exact grows_addSubproperty _ _

theorem grows_mergeEach {strPath : String} {properties : List Property}
    (hmerge : ∀ sub ∈ properties, ∀ root : Property, Grows root (mergeProperty strPath sub root)) (root : Property) :
    Grows root (mergeEach strPath properties root) := by
  induction properties generalizing root with
  | nil => exact Grows.refl root
  | cons property properties ih =>
    rw [forall_mem_cons] at hmerge
    exact (hmerge.1 root).trans (ih hmerge.2 _)

theorem grows_mergeProperty (property : Property) (strPath : String) (root : Property) :
    Grows root (mergeProperty strPath property root) := by
  induction property using Property.induction generalizing strPath root with
  | mk name values subproperties ih =>
    refine Grows.trans ?_ (grows_mergeEach (fun sub hsub root => ih sub hsub _ root) _)
    exact (grows_getOrMakeSubproperty _ _ root).trans
      (grows_setValues (fun property => values.copyPropertyValue property.values) _ _)

theorem isSome_content_mergeProperty {strPath : String} (property root : Property)
    (hnames : "" ∉ pathNames (joinPath strPath property.name)) :
    ((mergeProperty strPath property root).content (pathNames (joinPath strPath property.name))).isSome = true := by
  obtain ⟨name,values,subproperties⟩ := property
  rw [Property.name] at hnames ⊢
  refine grows_mergeEach (fun sub _ root => grows_mergeProperty sub _ root) _ _ ?_
  refine grows_setValues (fun property => values.copyPropertyValue property.values) _ _ _ ?_
  rw [content_getOrMakeSubproperty fun other hother hempty => hnames (hempty ▸ hother)]
  cases hnil : pathNames (joinPath strPath name) with
  | nil => rfl
  | cons first rest => simp

theorem isSome_content_clear : ((updateAt names cleared root).content other).isSome = true ↔
    (root.content other).isSome = true ∧ (names <+: other → other = names) := by
  have hname (property : Property) : property.cleared.name = property.name := rfl
  rw [content_updateAt hname]
  split
  · rename_i hbelow
    obtain ⟨rel,rfl⟩ := hbelow
    rw [drop_left,content_append]
    cases getSubproperty names root with
    | none => exact iff_of_false nofun fun h => nomatch h.1
    | some sub =>
      cases rel with
      | nil => simp
      | cons name rel =>
        refine iff_of_false nofun fun h => ?_
        simpa using congrArg List.length (h.2 (prefix_append _ _))
  · rename_i hnot
    exact (and_iff_left fun hbelow => absurd hbelow hnot).symm

/-- The names of the subproperties of a property are different, and none is empty. -/
def WellNamed (property : Property) : Prop := property.NamesMeet fun names => names.Nodup ∧ "" ∉ names

namespace WellNamed

theorem nil : ([] : List String).Nodup ∧ "" ∉ ([] : List String) := ⟨nodup_nil,not_mem_nil⟩

theorem add (names : List String) (name : String) (h : names.Nodup ∧ "" ∉ names) (hnew : name ∉ names)
    (hname : name ≠ "") : (names ++ [name]).Nodup ∧ "" ∉ names ++ [name] := by
  rw [← concat_eq_append]
  refine ⟨h.1.concat hnew,fun hmem => ?_⟩
  rw [concat_eq_append,mem_append,mem_singleton] at hmem
  exact hmem.elim h.2 fun hempty => hname hempty.symm

section
variable (h : root.WellNamed)
include h

theorem distinct : root.DistinctNames := fun node hnode => (h node hnode).1

theorem getOrMakeSubproperty (names : List String) (value : Variant) :
    (Property.getOrMakeSubproperty names value root).WellNamed := NamesMeet.getOrMakeSubproperty h nil add names value

theorem mergeProperty (property : Property) (strPath : String) :
    (Property.mergeProperty strPath property root).WellNamed := NamesMeet.mergeProperty nil add property strPath h

theorem setValues (names : List String) (values : Property → Values) :
    (Property.updateAt names (fun property => property.setValues (values property)) root).WellNamed :=
  NamesMeet.setValues h names values

theorem setSubproperty (names : List String) (strName : String) (value : Variant) :
    (Property.updateAt names (Property.setSubproperty strName value) root).WellNamed := by
  refine NamesMeet.setSubproperty h nil fun property hfound hnone hname => ?_
  refine add _ strName (namesMeet_iff.mp (NamesMeet.getSubproperty h hfound)).1 (fun hmem => ?_) hname
  obtain ⟨sub,hsub,hsame⟩ := mem_map.mp hmem
  exact find?_eq_none.mp hnone sub hsub (beq_iff_eq.mpr hsame)

theorem deleteSubproperty (names : List String) (name : String) :
    (Property.updateAt names (Property.deleteSubproperty name) root).WellNamed :=
  NamesMeet.deleteSubproperty h
    (fun _ _ hless hall => ⟨hall.1.sublist hless,fun hmem => hall.2 (hless.subset hmem)⟩) names name

theorem clear (names : List String) : (Property.updateAt names Property.cleared root).WellNamed := by
  refine NamesMeet.updateAt h (fun _ => rfl) fun _ _ _ => ?_
  exact namesMeet_iff.mpr ⟨nil,nofun⟩

theorem content_eq_none (hnames : "" ∈ names) : root.content names = none := by
  induction names generalizing root with
  | nil => cases hnames
  | cons name names ih =>
    obtain ⟨hself,hsubs⟩ := namesMeet_iff.mp h
    rw [content_cons]
    cases hfound : root.findSubproperty name with
    | none => rfl
    | some sub =>
      have hsub := mem_of_find?_eq_some hfound
      rcases mem_cons.mp hnames with rfl | hnames
      · have hname : sub.name = "" := by simpa using find?_some hfound
        exact absurd (hname ▸ mem_map_of_mem hsub) hself.2
      · exact ih (hsubs sub hsub) hnames

end

theorem create (name : String) (value : Variant) : (Property.create name value).WellNamed :=
  namesMeet_mk.mpr ⟨nil,nofun⟩

theorem content_getOrMakeSubproperty (h : root.WellNamed) {names : List String} (hnames : ∀ name ∈ names, name ≠ "")
    (rest : List String) (value : Variant) (other : List String) :
    (Property.getOrMakeSubproperty (names ++ "" :: rest) value root).content other =
      (root.content other).or (if other ≠ [] ∧ other <+: names then some (.strings "" []) else none) := by
  induction names generalizing root other with
  | nil =>
    have hnone : root.findSubproperty "" = none :=
      findSubproperty_eq_none.mpr (h.content_eq_none (mem_singleton_self ""))
    have hmade (value' : Variant) : (Property.getOrMakeSubproperty rest value (Property.create "" value')).name = "" :=
      name_getOrMakeSubproperty rest value _
    have hempty : ¬(other ≠ [] ∧ other <+: []) := fun hother => hother.1 (prefix_nil.mp hother.2)
    rw [if_neg hempty,or_none,nil_append,Property.getOrMakeSubproperty,hnone,isSome_none,if_neg Bool.false_ne_true]
    simp only [Property.addSubproperty,hmade,if_pos]
  | cons name names ih =>
    rw [forall_mem_cons] at hnames
    cases other with
    | nil => rw [content_nil,content_nil,cons_append,values_getOrMakeSubproperty,some_or]
    | cons first next =>
      rw [cons_append,content_getOrMakeSubproperty_cons hnames.1,content_cons]
      by_cases hfirst : first = name
      · subst hfirst
        have hsub : ((root.findSubproperty first).getD (Property.create first
            (if names ++ "" :: rest = [] then value else .string ""))).WellNamed := by
          cases hfound : root.findSubproperty first with
          | some sub => exact (namesMeet_iff.mp h).2 sub (mem_of_find?_eq_some hfound)
          | none => exact create first _
        rw [if_pos rfl,ih hsub hnames.2]
        cases root.findSubproperty first with
        | some sub => cases next <;> simp [cons_prefix_cons]
        | none =>
          rw [getD_none,content_create,bind_none]
          cases next <;> simp [cons_prefix_cons]
          rfl
      · have hprefix : ¬(first::next ≠ [] ∧ first::next <+: name::names) := fun hother =>
          hfirst (cons_prefix_cons.mp hother.2).1
        rw [if_neg hfirst,if_neg hprefix,or_none]

end WellNamed

section flags
variable {names other : List String} {root : Property}

/-- `GetPropertyValue` of a flag, which is initialised with false. -/
def getFlag (names : List String) (root : Property) : Bool :=
  match root.content names with
  | some (.booleans front _) => front
  | _ => false

theorem getFlag_congr {root' : Property} (h : root.content names = root'.content names) :
    root.getFlag names = root'.getFlag names := by
  rw [getFlag,h,getFlag]

section
variable (h : root.WellNamed)
include h

theorem WellNamed.setPropertyValue (names : List String) (value : Variant) :
    (Property.setPropertyValue names value root).WellNamed :=
  (h.getOrMakeSubproperty names value).setValues names _

private theorem getFlag_getOrMakeSubproperty (value : Variant) (hother : "" ∈ names ∨ other ≠ names) :
    (getOrMakeSubproperty names value root).getFlag other = root.getFlag other := by
  have hmade {made : Option Values} (htext : made = none ∨ made = some (.strings "" []))
      (hcontent : (getOrMakeSubproperty names value root).content other = (root.content other).or made) :
      (getOrMakeSubproperty names value root).getFlag other = root.getFlag other := by
    rw [getFlag,hcontent,getFlag]
    cases root.content other with
    | some values => rfl
    | none => rcases htext with rfl | rfl <;> rfl
  by_cases hempty : "" ∈ names
  · obtain ⟨before,rest,rfl,hbefore⟩ := eq_append_cons_of_mem hempty
    refine hmade ?_ (h.content_getOrMakeSubproperty (fun name hname heq => hbefore (heq ▸ hname)) rest value other)
    split
    · exact .inr rfl
    · exact .inl rfl
  · refine hmade ?_ (content_getOrMakeSubproperty (fun name hname heq => hempty (heq ▸ hname)) value root other)
    rw [if_neg (hother.resolve_left hempty)]
    split
    · exact .inr rfl
    · exact .inl rfl

theorem getFlag_setPropertyValue_of_ne (value : Variant) (hother : other ≠ names) :
    (setPropertyValue names value root).getFlag other = root.getFlag other := by
  rw [← getFlag_getOrMakeSubproperty h value (.inr hother)]
  apply getFlag_congr
  rw [setPropertyValue]
  cases hfound : getSubproperty names (getOrMakeSubproperty names value root) with
  | none => rw [content_updateValues_none _ hfound]
  | some sub =>
    rw [content_updateValues _ hfound]
    exact if_neg fun hsame => hother hsame.1

theorem getFlag_setPropertyValue (b : Bool) :
    (setPropertyValue names (.boolean b) root).getFlag names = (b && decide ("" ∉ names)) := by
  by_cases hempty : "" ∈ names
  · rw [getFlag,(h.setPropertyValue names (.boolean b)).content_eq_none hempty]
    simp [hempty]
  · have hsome : ((getOrMakeSubproperty names (.boolean b) root).content names).isSome = true := by
      rw [content_getOrMakeSubproperty (fun name hname heq => hempty (heq ▸ hname))]
      cases names with
      | nil => simp
      | cons name names => simp
    rw [content,isSome_map] at hsome
    obtain ⟨sub,hfound⟩ := isSome_iff_exists.mp hsome
    have hcontent : (setPropertyValue names (.boolean b) root).content names = some (.booleans b []) := by
      rw [setPropertyValue,content_updateValues _ hfound]
      refine (if_pos ⟨rfl,?_⟩).trans rfl
      rw [content,hfound]
      rfl
    rw [getFlag,hcontent]
    simp [hempty]

theorem getFlag_deleteProperty (hnames : names ≠ []) :
    (deleteProperty names root).getFlag other = if names <+: other then false else root.getFlag other := by
  have hcontent : (deleteProperty names root).content other =
      if names <+: other then none else root.content other := by
    rw [content_deleteProperty h.distinct hnames]
    rfl
  rw [getFlag,hcontent]
  by_cases hbelow : names <+: other
  · rw [if_pos hbelow,if_pos hbelow]
  · rw [if_neg hbelow,if_neg hbelow,getFlag]

end

end flags

end Property

end FepParticipant.PropertyTree
