import FepParticipant.PropertyTree.PropertyObjects

/-! What merging a property into the local tree brings, what it keeps, and that the same property merged once more
changes nothing. -/
namespace FepParticipant.PropertyTree
open List Option PropertyObject
open PropertyNodes (joinPath)

namespace PropertyObject

variable {call : Nat} {names rel : List String} {name first : String} {object root : PropertyObject}
  {f : PropertyObject → PropertyObject}
variable {properties : List Property}

/-- The subproperties in their order, each told by its name and the call that made it. -/
def identities (object : PropertyObject) : List (Nat × String) :=
  object.lstSubproperties.map fun sub => (sub.made,sub.name)

/-- The object stays with its name, its listeners and its subproperties in their order. -/
structure Keeps (before after : PropertyObject) : Prop where
  made : after.made = before.made
  name : after.name = before.name
  vecListeners : after.vecListeners = before.vecListeners
  order : before.identities <+: after.identities

theorem Keeps.refl (object : PropertyObject) : object.Keeps object := ⟨rfl,rfl,rfl,prefix_rfl⟩

theorem Keeps.trans {before between after : PropertyObject} (h : before.Keeps between) (h' : between.Keeps after) :
    before.Keeps after :=
  ⟨h'.made.trans h.made,h'.name.trans h.name,h'.vecListeners.trans h.vecListeners,h.order.trans h'.order⟩

theorem keeps_withChild (hf : ∀ sub : PropertyObject, sub.Keeps (f sub)) (object : PropertyObject) :
    object.Keeps (withChild call name f object) := by
  rw [withChild]
  split
  · refine ⟨rfl,rfl,rfl,?_⟩
    rw [identities,identities,lstSubproperties_setSubproperties]
    generalize object.lstSubproperties = objects
    induction objects with
    | nil => exact prefix_rfl
    | cons sub objects ih =>
      rw [updateFirst]
      split
      · rw [map_cons,map_cons,(hf sub).made,(hf sub).name]
      · rw [map_cons,map_cons]
        exact (prefix_cons_inj _).mpr ih
  · refine ⟨rfl,rfl,rfl,?_⟩
    rw [identities,identities,lstSubproperties_setSubproperties,map_append]
    exact prefix_append _ _

theorem keeps_makeAt (hf : ∀ object : PropertyObject, object.Keeps (f object)) (object : PropertyObject) :
    object.Keeps (makeAt call names f object) := by
  induction names generalizing object with
  | nil => exact hf object
  | cons name names ih => exact keeps_withChild ih object

private theorem keeps_mergeSubproperties {properties : List Property}
    (h : ∀ property ∈ properties, ∀ object : PropertyObject, object.Keeps (mergeInto call property object))
    (object : PropertyObject) : object.Keeps (mergeSubproperties call properties object) := by
  induction properties generalizing object with
  | nil => exact .refl object
  | cons property properties ih =>
    rw [forall_mem_cons] at h
    exact (keeps_withChild h.1 object).trans (ih h.2 _)

theorem keeps_mergeInto (source : Property) (object : PropertyObject) :
    object.Keeps (mergeInto call source object) := by
  induction source using Property.induction generalizing object with
  | mk name values subproperties ih =>
    have hset : object.Keeps (object.setValues values) := ⟨rfl,rfl,rfl,prefix_rfl⟩
    exact hset.trans (keeps_mergeSubproperties ih _)

theorem values_withChild (object : PropertyObject) : (withChild call name f object).values = object.values := by
  rw [withChild]
  split <;> rfl

theorem values_mergeInto (call : Nat) (source : Property) (object : PropertyObject) :
    (mergeInto call source object).values = source.values := by
  have hsubproperties (properties : List Property) (object : PropertyObject) :
      (mergeSubproperties call properties object).values = object.values := by
    induction properties generalizing object with
    | nil => rfl
    | cons property properties ih => rw [mergeSubproperties,ih,values_withChild]
  cases source
  rw [mergeInto,hsubproperties]
  rfl

theorem findSubproperty_mergeSubproperties (call : Nat)
    (hnodup : (properties.map Property.name).Nodup) (first : String) (object : PropertyObject) :
    (mergeSubproperties call properties object).findSubproperty first =
      match properties.find? fun sub => sub.name == first with
      | some sub => some (mergeInto call sub ((object.findSubproperty first).getD (create call first (.string ""))))
      | none => object.findSubproperty first := by
  induction properties generalizing object with
  | nil => rfl
  | cons property properties ih =>
    rw [map_cons,nodup_cons] at hnodup
    rw [mergeSubproperties,ih hnodup.2,findSubproperty_withChild call (keepsName_mergeInto call property)]
    by_cases hfirst : first = property.name
    · have hothers : (properties.find? fun sub => sub.name == first) = none := by
        rw [find?_eq_none]
        intro sub hsub hsame
        exact hnodup.1 (mem_map.mpr ⟨sub,hsub,(beq_iff_eq.mp hsame).trans hfirst⟩)
      rw [hothers,find?_cons_of_pos (by simp [hfirst]),if_pos hfirst,hfirst]
    · rw [find?_cons_of_neg (by simpa using fun h => hfirst h.symm),if_neg hfirst]

variable {source : Property}

theorem findSubproperty_mergeInto (hdistinct : source.DistinctNames) (first : String) (object : PropertyObject) :
    (mergeInto call source object).findSubproperty first =
      match source.findSubproperty first with
      | some sub => some (mergeInto call sub ((object.findSubproperty first).getD (create call first (.string ""))))
      | none => object.findSubproperty first := by
  cases source with
  | mk name values subproperties =>
    exact findSubproperty_mergeSubproperties call (Property.namesMeet_mk.mp hdistinct).1 first (object.setValues values)

theorem getSubproperty_mergeInto (call : Nat) {sub : Property} (hdistinct : source.DistinctNames)
    (hfound : source.getSubproperty rel = some sub) (object : PropertyObject) :
    ∃ old, getSubproperty rel (mergeInto call source object) = some (mergeInto call sub old) ∧
      ∀ before, getSubproperty rel object = some before → old = before := by
  induction rel generalizing source object with
  | nil =>
    cases hfound
    exact ⟨object,rfl,fun before hbefore => some.inj hbefore⟩
  | cons first rel ih =>
    obtain ⟨next,hnext,hrest⟩ := bind_eq_some_iff.mp hfound
    have hbelow := (Property.namesMeet_iff.mp hdistinct).2 next (mem_of_find?_eq_some hnext)
    obtain ⟨old,hold,hsame⟩ := ih hbelow hrest ((object.findSubproperty first).getD (create call first (.string "")))
    refine ⟨old,?_,fun before hbefore => ?_⟩
    · rw [getSubproperty,findSubproperty_mergeInto hdistinct,hnext]
      exact hold
    · obtain ⟨child,hchild,hbefore⟩ := bind_eq_some_iff.mp hbefore
      rw [hchild] at hsame
      exact hsame before hbefore

theorem getSubproperty_mergeInto_none (hdistinct : source.DistinctNames) (hnone : source.getSubproperty rel = none) :
    getSubproperty rel (mergeInto call source object) = getSubproperty rel object := by
  induction rel generalizing source object with
  | nil => cases hnone
  | cons first rel ih =>
    rw [getSubproperty,getSubproperty,findSubproperty_mergeInto hdistinct]
    cases hnext : source.findSubproperty first with
    | none => rfl
    | some next =>
      have hbelow := (Property.namesMeet_iff.mp hdistinct).2 next (mem_of_find?_eq_some hnext)
      have hrest : next.getSubproperty rel = none := by
        rw [Property.getSubproperty,hnext] at hnone
        exact hnone
      rw [bind_some,ih hbelow hrest]
      cases object.findSubproperty first with
      | some child => rfl
      | none =>
        cases rel with
        | nil => cases hrest
        | cons second rel => rfl

theorem getSubproperty_append (names rel : List String) (object : PropertyObject) :
    getSubproperty (names ++ rel) object = (getSubproperty names object).bind (getSubproperty rel) := by
  induction names generalizing object with
  | nil => rfl
  | cons name names ih =>
    rw [cons_append,getSubproperty,getSubproperty,bind_assoc]
    exact congrArg (object.findSubproperty name).bind (funext ih)

theorem getSubproperty_makeAt (call : Nat) (names : List String) (hf : KeepsName f) (root : PropertyObject) :
    ∃ old, getSubproperty names (makeAt call names f root) = some (f old) ∧
      (∀ before, getSubproperty names root = some before → old = before) ∧
      (getSubproperty names root = none → old.lstSubproperties = []) := by
  induction names generalizing root with
  | nil => exact ⟨root,rfl,fun before hbefore => some.inj hbefore,nofun⟩
  | cons name names ih =>
    obtain ⟨old,hold,hsame,hnew⟩ := ih ((root.findSubproperty name).getD (create call name (.string "")))
    refine ⟨old,?_,fun before hbefore => ?_,fun hnone => ?_⟩
    · rw [makeAt,getSubproperty,findSubproperty_withChild call (keepsName_makeAt hf),if_pos rfl]
      exact hold
    · obtain ⟨child,hchild,hbefore⟩ := bind_eq_some_iff.mp hbefore
      rw [hchild] at hsame
      exact hsame before hbefore
    · rw [getSubproperty] at hnone
      cases hchild : root.findSubproperty name with
      | some child =>
        rw [hchild] at hnew hnone
        exact hnew hnone
      | none =>
        rw [hchild] at hsame hnew
        cases names with
        | nil => rw [hsame _ rfl]; rfl
        | cons next names => exact hnew rfl

theorem getSubproperty_makeAt_other (hf : KeepsName f) {path : List String} (hbelow : ¬names <+: path)
    (habove : ¬path <+: names) (root : PropertyObject) :
    getSubproperty path (makeAt call names f root) = getSubproperty path root := by
  induction names generalizing root path with
  | nil => exact absurd nil_prefix hbelow
  | cons name names ih =>
    cases path with
    | nil => exact absurd nil_prefix habove
    | cons first rest =>
      rw [makeAt,getSubproperty,getSubproperty,findSubproperty_withChild call (keepsName_makeAt hf)]
      by_cases hfirst : first = name
      · subst hfirst
        rw [cons_prefix_cons] at hbelow habove
        rw [if_pos rfl,bind_some,ih (fun h => hbelow ⟨rfl,h⟩) (fun h => habove ⟨rfl,h⟩)]
        cases root.findSubproperty first with
        | some child => rfl
        | none =>
          cases rest with
          | nil => exact absurd nil_prefix fun h => habove ⟨rfl,h⟩
          | cons second rest => rfl
      · rw [if_neg hfirst]

theorem getSubproperty_makeAt_above (call : Nat) (hf : ∀ object : PropertyObject, object.Keeps (f object))
    {path : List String} {before : PropertyObject} (habove : path <+: names) (hne : path ≠ names)
    (hbefore : getSubproperty path root = some before) :
    ∃ after, getSubproperty path (makeAt call names f root) = some after ∧ before.Keeps after ∧
      after.values = before.values := by
  induction path generalizing names root with
  | nil =>
    obtain rfl := some.inj hbefore
    cases names with
    | nil => exact absurd rfl hne
    | cons name names => exact ⟨_,rfl,keeps_withChild (keeps_makeAt hf) root,values_withChild root⟩
  | cons first rest ih =>
    obtain ⟨child,hchild,hbefore⟩ := bind_eq_some_iff.mp hbefore
    cases names with
    | nil => exact absurd habove (by simp)
    | cons name names =>
      obtain ⟨rfl,hrest⟩ := cons_prefix_cons.mp habove
      obtain ⟨after,hafter,hkeeps⟩ := ih hrest (fun h => hne (congrArg (first :: ·) h)) hbefore
      refine ⟨after,?_,hkeeps⟩
      rw [makeAt,getSubproperty,findSubproperty_withChild call (keepsName_makeAt fun object => (hf object).name),
        if_pos rfl,hchild]
      exact hafter

private theorem updateFirst_eq_self {objects : List PropertyObject} {sub : PropertyObject}
    (hfound : (objects.find? fun sub => sub.name == name) = some sub) (hf : f sub = sub) :
    updateFirst name f objects = objects := by
  rw [updateFirst_congr hfound (g := id) hf]
  clear hfound
  induction objects with
  | nil => rfl
  | cons object objects ih => rw [updateFirst,ih,id_eq,ite_self]

private theorem mergeSubproperties_eq_self
    (h : ∀ property ∈ properties, ∃ sub, object.findSubproperty property.name = some sub ∧
      mergeInto call property sub = sub) : mergeSubproperties call properties object = object := by
  induction properties with
  | nil => rfl
  | cons property properties ih =>
    rw [forall_mem_cons] at h
    obtain ⟨⟨sub,hfound,hsame⟩,hothers⟩ := h
    rw [mergeSubproperties,withChild,hfound,isSome_some,if_pos rfl,updateFirst_eq_self hfound hsame,
      setSubproperties_self,ih hothers]

theorem mergeInto_mergeInto (call' : Nat) (hdistinct : source.DistinctNames) (object : PropertyObject) :
    mergeInto call' source (mergeInto call source object) = mergeInto call source object := by
  induction source using Property.induction generalizing object with
  | mk name values subproperties ih =>
    obtain ⟨hnodup,hbelow⟩ := Property.namesMeet_mk.mp hdistinct
    have hvalues := values_mergeInto call (.mk name values subproperties) object
    have hset (merged : PropertyObject) (hmerged : merged.values = values) : merged.setValues values = merged := by
      cases merged
      rw [← hmerged]
      rfl
    have hagain : mergeInto call' (.mk name values subproperties)
        (mergeInto call (.mk name values subproperties) object) = _ :=
      congrArg (mergeSubproperties call' subproperties) (hset _ hvalues)
    rw [hagain]
    refine mergeSubproperties_eq_self fun sub hsub => ?_
    have hfound := findSubproperty_mergeSubproperties call hnodup sub.name (object.setValues values)
    rw [(Library.OrderedMap.find?_key_eq_some_iff hnodup).mpr ⟨hsub,rfl⟩] at hfound
    exact ⟨_,hfound,ih sub hsub (hbelow sub hsub) _⟩

private theorem values_eq_of_content {values : Values} (h : source.content rel = some values) :
    ∃ sub, source.getSubproperty rel = some sub ∧ sub.values = values := map_eq_some_iff.mp h

end PropertyObject

def Property.OccursAt (source : Property) (place path : List String) : Prop :=
  ∃ rel, path = place ++ rel ∧ (source.content rel).isSome

structure MergedWell (place : List String) (source : Property) (root merged : PropertyObject) : Prop where
  brought : ∀ rel values, source.content rel = some values →
    ∃ object, merged.getSubproperty (place ++ rel) = some object ∧ object.values = values
  kept : ∀ path before, root.getSubproperty path = some before →
    ∃ after, merged.getSubproperty path = some after ∧ before.Keeps after ∧
      (¬source.OccursAt place path → after.values = before.values)
  untouched : ∀ path, ¬source.OccursAt place path → ¬path <+: place →
    merged.getSubproperty path = root.getSubproperty path

namespace PropertyObject

variable {call : Nat} {place : List String} {source : Property}

theorem mergedWell_makeAt (hdistinct : source.DistinctNames) (root : PropertyObject) :
    MergedWell place source root (makeAt call place (mergeInto call source) root) := by
  have hname := keepsName_mergeInto call source
  obtain ⟨old,hold,hsame,hnew⟩ := getSubproperty_makeAt call place hname root
  have hbelow (rel : List String) : getSubproperty (place ++ rel) (makeAt call place (mergeInto call source) root) =
      getSubproperty rel (mergeInto call source old) := by
    rw [getSubproperty_append,hold,bind_some]
  refine ⟨fun rel values hvalues => ?_,fun path before hbefore => ?_,fun path hoccurs habove => ?_⟩
  · obtain ⟨sub,hsub,rfl⟩ := values_eq_of_content hvalues
    obtain ⟨object,hobject,-⟩ := getSubproperty_mergeInto call hdistinct hsub old
    exact ⟨_,(hbelow rel).trans hobject,values_mergeInto call sub object⟩
  · by_cases hprefix : place <+: path
    · obtain ⟨rel,rfl⟩ := hprefix
      rw [getSubproperty_append] at hbefore
      obtain ⟨target,htarget,hbefore⟩ := bind_eq_some_iff.mp hbefore
      obtain rfl := hsame target htarget
      rw [hbelow]
      cases hsub : source.getSubproperty rel with
      | some sub =>
        obtain ⟨object,hobject,hsame⟩ := getSubproperty_mergeInto call hdistinct hsub old
        obtain rfl := hsame before hbefore
        refine ⟨_,hobject,keeps_mergeInto sub object,fun hnot => ?_⟩
        exact absurd ⟨rel,rfl,by rw [Property.content,hsub]; rfl⟩ hnot
      | none =>
        rw [getSubproperty_mergeInto_none hdistinct hsub]
        exact ⟨before,hbefore,.refl before,fun _ => rfl⟩
    · by_cases habove : path <+: place
      · have hne : path ≠ place := fun h => hprefix (h ▸ prefix_rfl)
        obtain ⟨after,hafter,hkeeps,hvalues⟩ :=
          getSubproperty_makeAt_above call (keeps_mergeInto source) habove hne hbefore
        exact ⟨after,hafter,hkeeps,fun _ => hvalues⟩
      · rw [getSubproperty_makeAt_other hname hprefix habove]
        exact ⟨before,hbefore,.refl before,fun _ => rfl⟩
  · by_cases hprefix : place <+: path
    · obtain ⟨rel,rfl⟩ := hprefix
      have hnone : source.getSubproperty rel = none := by
        by_contra hsome
        refine hoccurs ⟨rel,rfl,?_⟩
        rw [Property.content,isSome_map,isSome_iff_ne_none]
        exact hsome
      rw [hbelow,getSubproperty_mergeInto_none hdistinct hnone,getSubproperty_append]
      cases htarget : getSubproperty place root with
      | some target => rw [hsame target htarget,bind_some]
      | none =>
        cases rel with
        | nil => cases hnone
        | cons first rel => rw [getSubproperty,findSubproperty,hnew htarget]; rfl
    · exact getSubproperty_makeAt_other hname hprefix habove root

end PropertyObject

/-- For every source, local tree and path `MergeProperty` brings all properties of the source, keeps all others, and
changes nothing when called again. -/
theorem merge_brings_and_keeps (call call' : Nat) (names : List String) (source : Property) (root : PropertyObject)
    (hnames : ∀ name ∈ names ++ [source.name], ProperName name) (hproper : source.ProperNames)
    (hdistinct : source.DistinctNames) :
    MergedWell (names ++ [source.name]) source root (root.mergeProperty call (pathText names) source) ∧
      (root.mergeProperty call (pathText names) source).mergeProperty call' (pathText names) source =
        root.mergeProperty call (pathText names) source := by
  have hpath := (pathText_append_singleton names source.name).symm
  have hmerge (call : Nat) (root : PropertyObject) : root.mergeProperty call (pathText names) source = _ :=
    mergeProperty_eq hproper hpath hnames root
  rw [hmerge call root,hmerge call']
  refine ⟨mergedWell_makeAt hdistinct root,?_⟩
  rw [makeAt_makeAt call call' (keepsName_mergeInto call source)]
  exact congrArg (fun change => PropertyObject.makeAt call (names ++ [source.name]) change root)
    (funext (mergeInto_mergeInto call' hdistinct))

def vehicleTree : PropertyObject :=
  .mk 0 "" (.strings "" []) [] [.mk 0 "vehicle" (.strings "" []) [3] [.mk 0 "camera" (.integers 1 [2]) [4] []]]

def cameraSource : Property := .mk "camera" (.strings "front" []) [.mk "mode" (.booleans true []) []]

/-- The camera is merged into the vehicle. -/
theorem camera_merged : MergedWell ["vehicle","camera"] cameraSource vehicleTree
      (vehicleTree.mergeProperty 1 (pathText ["vehicle"]) cameraSource) ∧
    (vehicleTree.mergeProperty 1 (pathText ["vehicle"]) cameraSource).mergeProperty 2
      (pathText ["vehicle"]) cameraSource = vehicleTree.mergeProperty 1 (pathText ["vehicle"]) cameraSource :=
  merge_brings_and_keeps 1 2 ["vehicle"] cameraSource vehicleTree (by decide) (by decide) (by decide)

end FepParticipant.PropertyTree
