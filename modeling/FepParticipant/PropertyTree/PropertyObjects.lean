import FepParticipant.PropertyTree.TreeContent
import FepParticipant.PropertyTree.TreeGrowth

/-! The objects of `cProperty` that a property tree is made of, with their listeners, and `MergeProperty` on them. One
made again at the same place is another object, told by the number of its call. -/
namespace FepParticipant.PropertyTree
open Option List
open PropertyNodes (joinPath)

inductive PropertyObject where
  | mk (made : Nat) (name : String) (values : Values) (vecListeners : List Nat)
      (lstSubproperties : List PropertyObject)

namespace PropertyObject
variable (object : PropertyObject)

def made : PropertyObject → Nat
  | mk made _ _ _ _ => made

def name : PropertyObject → String
  | mk _ name _ _ _ => name

def values : PropertyObject → Values
  | mk _ _ values _ _ => values

def vecListeners : PropertyObject → List Nat
  | mk _ _ _ vecListeners _ => vecListeners

def lstSubproperties : PropertyObject → List PropertyObject
  | mk _ _ _ _ lstSubproperties => lstSubproperties

/-- The constructors without a parent. -/
def create (made : Nat) (name : String) (value : Variant) : PropertyObject :=
  mk made name ((Values.booleans false []).setValue value) [] []

def setValues (values : Values) : PropertyObject :=
  mk object.made object.name values object.vecListeners object.lstSubproperties

def setSubproperties (lstSubproperties : List PropertyObject) : PropertyObject :=
  mk object.made object.name object.values object.vecListeners lstSubproperties

/-- `AddSubproperty` for an object without a parent. -/
def addSubproperty (subproperty : PropertyObject) : PropertyObject :=
  if subproperty.name = "" then object else object.setSubproperties (object.lstSubproperties ++ [subproperty])

@[simp] theorem lstSubproperties_setSubproperties (object : PropertyObject) (objects : List PropertyObject) :
    (object.setSubproperties objects).lstSubproperties = objects := rfl

@[simp] theorem setSubproperties_setSubproperties (object : PropertyObject) (objects others : List PropertyObject) :
    (object.setSubproperties objects).setSubproperties others = object.setSubproperties others := rfl

@[simp] theorem setSubproperties_self (object : PropertyObject) :
    object.setSubproperties object.lstSubproperties = object := by
  cases object
  rfl

theorem addSubproperty_eq (object subproperty : PropertyObject) :
    object.addSubproperty subproperty = object.setSubproperties
      (object.lstSubproperties ++ [subproperty].filter fun sub => decide (sub.name ≠ "")) := by
  rw [addSubproperty]
  by_cases hname : subproperty.name = ""
  · rw [if_pos hname,filter_cons_of_neg (by simpa using hname),filter_nil,append_nil,
      setSubproperties_self]
  · rw [if_neg hname,filter_cons_of_pos (by simpa using hname),filter_nil]

mutual
def toProperty : PropertyObject → Property
  | mk _ name values _ lstSubproperties => .mk name values (toProperties lstSubproperties)

def toProperties : List PropertyObject → List Property
  | [] => []
  | object::objects => object.toProperty::toProperties objects
end

@[elab_as_elim]
theorem induction {motive : PropertyObject → Prop}
    (mk : ∀ made name values vecListeners lstSubproperties, (∀ sub ∈ lstSubproperties, motive sub) →
      motive (mk made name values vecListeners lstSubproperties)) (object : PropertyObject) : motive object := by
  refine PropertyObject.rec (motive_1 := motive)
    (motive_2 := fun objects => ∀ sub ∈ objects, motive sub) mk ?_ ?_ object
  · intro sub hsub
    cases hsub
  · intro head tail hhead htail sub hsub
    rcases mem_cons.mp hsub with rfl | hsub
    · exact hhead
    · exact htail sub hsub

theorem toProperties_eq_map (objects : List PropertyObject) : toProperties objects = objects.map toProperty := by
  induction objects with
  | nil => rfl
  | cons object objects ih => rw [toProperties,ih,map_cons]

@[simp] theorem name_toProperty (object : PropertyObject) : object.toProperty.name = object.name := by
  cases object
  rfl

@[simp] theorem values_toProperty (object : PropertyObject) : object.toProperty.values = object.values := by
  cases object
  rfl

@[simp] theorem getSubProperties_toProperty (object : PropertyObject) :
    object.toProperty.getSubProperties = object.lstSubproperties.map toProperty := by
  cases object
  exact toProperties_eq_map _

theorem toProperty_addSubproperty (object subproperty : PropertyObject) :
    (object.addSubproperty subproperty).toProperty = (object.toProperty.addSubproperty subproperty.toProperty).2 := by
  cases object
  rw [addSubproperty,Property.addSubproperty,name_toProperty]
  split
  · rfl
  · simp [setSubproperties,toProperty,toProperties_eq_map,name,values,lstSubproperties,Property.name,
      Property.values,Property.getSubProperties]

end PropertyObject

namespace PropertyObject

variable {call : Nat} {names rel : List String} {name first : String} {object root : PropertyObject}
  {f g : PropertyObject → PropertyObject}

def findSubproperty (object : PropertyObject) (strName : String) : Option PropertyObject :=
  object.lstSubproperties.find? fun sub => sub.name == strName

/-- `GetSubproperty`. -/
def getSubproperty : List String → PropertyObject → Option PropertyObject
  | [], object => some object
  | strCurrent::names, object => (object.findSubproperty strCurrent).bind (getSubproperty names)

def updateFirst (name : String) (f : PropertyObject → PropertyObject) : List PropertyObject → List PropertyObject
  | [] => []
  | object::objects => if object.name = name then f object::objects else object::updateFirst name f objects

/-- The tree as `GetOrMakeSubproperty` leaves it. -/
def getOrMakeSubproperty (call : Nat) : List String → Variant → PropertyObject → PropertyObject
  | [], _, object => object
  | strCurrent::names, value, object =>
    if (object.findSubproperty strCurrent).isSome then
      object.setSubproperties (updateFirst strCurrent (getOrMakeSubproperty call names value) object.lstSubproperties)
    else
      let next := create call strCurrent (if names = [] then value else .string "")
      object.addSubproperty (getOrMakeSubproperty call names value next)

/-- A change of the object that `GetSubproperty` finds. -/
def updateAt : List String → (PropertyObject → PropertyObject) → PropertyObject → PropertyObject
  | [], f, object => f object
  | strCurrent::names, f, object =>
    object.setSubproperties (updateFirst strCurrent (updateAt names f) object.lstSubproperties)

mutual
/-- `MergeProperty`. -/
def mergeProperty (call : Nat) (strPath : String) : Property → PropertyObject → PropertyObject
  | .mk name values subproperties, root =>
    let strPath := joinPath strPath name
    let names := pathNames strPath
    mergeEach call strPath subproperties
      ((root.getOrMakeSubproperty call names values.variants.1).updateAt names fun object =>
        object.setValues (values.copyPropertyValue object.values))

def mergeEach (call : Nat) (strPath : String) : List Property → PropertyObject → PropertyObject
  | [], root => root
  | property::properties, root => mergeEach call strPath properties (mergeProperty call strPath property root)
end

private theorem findSubproperty_toProperty (strName : String) :
    object.toProperty.findSubproperty strName = (object.findSubproperty strName).map toProperty := by
  rw [Property.findSubproperty,getSubProperties_toProperty,find?_map,findSubproperty]
  simp only [Function.comp_def,name_toProperty]

theorem toProperty_setSubproperties (objects : List PropertyObject) :
    (object.setSubproperties objects).toProperty = object.toProperty.setSubproperties (objects.map toProperty) := by
  rw [Property.setSubproperties,name_toProperty,values_toProperty,← toProperties_eq_map]
  rfl

theorem map_updateFirst {change : Property → Property}
    (hf : ∀ object : PropertyObject, (f object).toProperty = change object.toProperty) (objects : List PropertyObject) :
    (updateFirst name f objects).map toProperty = Property.updateFirst name change (objects.map toProperty) := by
  induction objects with
  | nil => rfl
  | cons object objects ih =>
    rw [updateFirst,map_cons,Property.updateFirst,name_toProperty]
    split
    · rw [map_cons,hf]
    · rw [map_cons,ih]

private theorem toProperty_getOrMakeSubproperty (names : List String) (value : Variant) (object : PropertyObject) :
    (getOrMakeSubproperty call names value object).toProperty =
      Property.getOrMakeSubproperty names value object.toProperty := by
  induction names generalizing object with
  | nil => rfl
  | cons name names ih =>
    rw [getOrMakeSubproperty,Property.getOrMakeSubproperty,findSubproperty_toProperty,isSome_map]
    split
    · rw [toProperty_setSubproperties,map_updateFirst ih,getSubProperties_toProperty]
    · dsimp only
      rw [toProperty_addSubproperty,ih]
      split <;> rfl

private theorem toProperty_updateAt (change : Property → Property)
    (hf : ∀ object : PropertyObject, (f object).toProperty = change object.toProperty) (names : List String)
    (object : PropertyObject) :
    (updateAt names f object).toProperty = Property.updateAt names change object.toProperty := by
  induction names generalizing object with
  | nil => exact hf object
  | cons name names ih =>
    rw [updateAt,Property.updateAt,toProperty_setSubproperties,map_updateFirst ih,getSubProperties_toProperty]

theorem toProperty_mergeProperty (strPath : String) (source : Property) (root : PropertyObject) :
    (root.mergeProperty call strPath source).toProperty = Property.mergeProperty strPath source root.toProperty := by
  have heach (strPath : String) (properties : List Property) (root : PropertyObject)
      (hmerge : ∀ sub ∈ properties, ∀ (strPath : String) (root : PropertyObject),
        (root.mergeProperty call strPath sub).toProperty = Property.mergeProperty strPath sub root.toProperty) :
      (mergeEach call strPath properties root).toProperty = Property.mergeEach strPath properties root.toProperty := by
    induction properties generalizing root with
    | nil => rfl
    | cons property properties ih =>
      rw [forall_mem_cons] at hmerge
      rw [mergeEach,Property.mergeEach,ih _ hmerge.2,hmerge.1]
  induction source using Property.induction generalizing strPath root with
  | mk name values subproperties ih =>
    have hset (object : PropertyObject) : (object.setValues (values.copyPropertyValue object.values)).toProperty =
        object.toProperty.setValues (values.copyPropertyValue object.toProperty.values) := by
      cases object
      rfl
    have hupdate := toProperty_updateAt
      (fun property => property.setValues (values.copyPropertyValue property.values)) hset
    rw [mergeProperty,Property.mergeProperty,heach _ _ _ ih,hupdate,toProperty_getOrMakeSubproperty]

/-- The subproperty with the name is changed, and made if it is not there. -/
def withChild (call : Nat) (name : String) (f : PropertyObject → PropertyObject) (object : PropertyObject) :
    PropertyObject :=
  if (object.findSubproperty name).isSome then object.setSubproperties (updateFirst name f object.lstSubproperties)
  else object.setSubproperties (object.lstSubproperties ++ [f (create call name (.string ""))])

/-- The object at a path is changed, and made with those above it if it is not there. -/
def makeAt (call : Nat) : List String → (PropertyObject → PropertyObject) → PropertyObject → PropertyObject
  | [], f => f
  | name::names, f => withChild call name (makeAt call names f)

mutual
/-- A merge takes over the values and merges the subproperties into those with their names. -/
def mergeInto (call : Nat) : Property → PropertyObject → PropertyObject
  | .mk _ values subproperties, object => mergeSubproperties call subproperties (object.setValues values)

def mergeSubproperties (call : Nat) : List Property → PropertyObject → PropertyObject
  | [], object => object
  | property::properties, object =>
    mergeSubproperties call properties (withChild call property.name (mergeInto call property) object)
end

/-- A change that leaves the name. -/
def KeepsName (f : PropertyObject → PropertyObject) : Prop := ∀ object : PropertyObject, (f object).name = object.name

theorem find?_updateFirst (hf : KeepsName f) (name first : String) (objects : List PropertyObject) :
    (updateFirst name f objects).find? (fun sub => sub.name == first) =
      if first = name then (objects.find? fun sub => sub.name == first).map f
      else objects.find? fun sub => sub.name == first := by
  induction objects with
  | nil => simp [updateFirst]
  | cons object objects ih =>
    rw [updateFirst]
    by_cases hobject : object.name = name
    · rw [if_pos hobject]
      by_cases hfirst : first = name
      · rw [if_pos hfirst,find?_cons_of_pos (by simp [hf object,hobject,hfirst]),
          find?_cons_of_pos (by simp [hobject,hfirst]),map_some]
      · rw [if_neg hfirst,find?_cons_of_neg (by simpa [hf object,hobject] using fun h => hfirst h.symm),
          find?_cons_of_neg (by simpa [hobject] using fun h => hfirst h.symm)]
    · rw [if_neg hobject,find?_cons,find?_cons,ih]
      by_cases hfirst : first = name
      · rw [if_pos hfirst,if_pos hfirst,beq_eq_false_iff_ne.mpr fun h => hobject (h.trans hfirst)]
      · rw [if_neg hfirst,if_neg hfirst]

theorem findSubproperty_withChild (call : Nat) (hf : KeepsName f) (name first : String) (object : PropertyObject) :
    (withChild call name f object).findSubproperty first =
      if first = name then some (f ((object.findSubproperty name).getD (create call name (.string ""))))
      else object.findSubproperty first := by
  rw [withChild]
  cases hfound : object.findSubproperty name with
  | some sub =>
    rw [isSome_some,if_pos rfl,findSubproperty,lstSubproperties_setSubproperties,find?_updateFirst hf]
    by_cases hfirst : first = name
    · rw [if_pos hfirst,if_pos hfirst,hfirst,← findSubproperty,hfound]
      rfl
    · rw [if_neg hfirst,if_neg hfirst]
      rfl
  | none =>
    rw [isSome_none,if_neg Bool.false_ne_true,findSubproperty,lstSubproperties_setSubproperties,
      find?_append,← findSubproperty,getD_none]
    have hmade : (f (create call name (.string ""))).name = name := hf _
    by_cases hfirst : first = name
    · rw [if_pos hfirst,hfirst,hfound,none_or,find?_cons_of_pos (by simp [hmade])]
    · rw [if_neg hfirst,find?_cons_of_neg (by simpa [hmade] using fun h => hfirst h.symm),find?_nil,or_none]

theorem keepsName_withChild : KeepsName (withChild call name f) := by
  intro object
  rw [withChild]
  split <;> rfl

theorem keepsName_makeAt (hf : KeepsName f) : KeepsName (makeAt call names f) := by
  cases names with
  | nil => exact hf
  | cons name names => exact keepsName_withChild

private theorem keepsName_mergeSubproperties (properties : List Property) :
    KeepsName (mergeSubproperties call properties) := by
  induction properties with
  | nil => exact fun object => rfl
  | cons property properties ih =>
    intro object
    rw [mergeSubproperties,ih]
    exact keepsName_withChild object

theorem keepsName_mergeInto (call : Nat) (property : Property) : KeepsName (mergeInto call property) := by
  intro object
  cases property
  rw [mergeInto,keepsName_mergeSubproperties]
  rfl

theorem updateFirst_updateFirst (hf : KeepsName f) (objects : List PropertyObject) :
    updateFirst name g (updateFirst name f objects) = updateFirst name (fun sub => g (f sub)) objects := by
  induction objects with
  | nil => rfl
  | cons object objects ih =>
    rw [updateFirst,updateFirst]
    by_cases hobject : object.name = name
    · rw [if_pos hobject,if_pos hobject,updateFirst,if_pos ((hf object).trans hobject)]
    · rw [if_neg hobject,if_neg hobject,updateFirst,if_neg hobject,ih]

theorem updateFirst_append_new {sub : PropertyObject} (hnew : object.findSubproperty name = none)
    (hsub : sub.name = name) :
    updateFirst name g (object.lstSubproperties ++ [sub]) = object.lstSubproperties ++ [g sub] := by
  have hothers : ∀ other ∈ object.lstSubproperties, other.name ≠ name := fun other hother hsame =>
    find?_eq_none.mp hnew other hother (beq_iff_eq.mpr hsame)
  generalize object.lstSubproperties = objects at hothers
  induction objects with
  | nil => rw [nil_append,updateFirst,if_pos hsub,nil_append]
  | cons other objects ih =>
    rw [forall_mem_cons] at hothers
    rw [cons_append,updateFirst,if_neg hothers.1,ih hothers.2,cons_append]

private theorem withChild_withChild (call' : Nat) (hf : KeepsName f) (object : PropertyObject) :
    withChild call' name g (withChild call name f object) = withChild call name (fun sub => g (f sub)) object := by
  have hfound := congrArg Option.isSome (findSubproperty_withChild call hf name name object)
  rw [if_pos rfl,isSome_some] at hfound
  rw [withChild,if_pos hfound,withChild,withChild]
  split
  · rw [lstSubproperties_setSubproperties,setSubproperties_setSubproperties,updateFirst_updateFirst hf]
  · rename_i hnew
    rw [Bool.not_eq_true,isSome_eq_false_iff,isNone_iff_eq_none] at hnew
    rw [lstSubproperties_setSubproperties,setSubproperties_setSubproperties,
      updateFirst_append_new hnew (hf (create call name (.string "")))]

theorem makeAt_append_makeAt (call call' : Nat) (hf : KeepsName f) (root : PropertyObject) :
    makeAt call' (names ++ rel) g (makeAt call names f root) =
      makeAt call names (fun object => makeAt call' rel g (f object)) root := by
  induction names generalizing root with
  | nil => rfl
  | cons name names ih =>
    rw [cons_append,makeAt,makeAt,withChild_withChild call' (keepsName_makeAt hf),makeAt]
    exact congrArg (fun change => withChild call name change root) (funext ih)

theorem makeAt_makeAt (call call' : Nat) (hf : KeepsName f) :
    makeAt call' names g (makeAt call names f root) = makeAt call names (fun object => g (f object)) root := by
  have happend := @makeAt_append_makeAt names [] f g call call' hf root
  rwa [append_nil] at happend

/-- No object without a name has to be made on the way, which would not be added. -/
def Attaches : List String → PropertyObject → Prop
  | [], _ => True
  | name::names, object =>
    match object.findSubproperty name with
    | some sub => Attaches names sub
    | none => "" ∉ name::names

theorem attaches_of_names (hnames : "" ∉ names) (object : PropertyObject) : object.Attaches names := by
  induction names generalizing object with
  | nil => trivial
  | cons name names ih =>
    rw [Attaches.eq_def]
    dsimp only
    split
    · exact ih (fun hmem => hnames (mem_cons_of_mem name hmem)) _
    · exact hnames

theorem updateFirst_congr {objects : List PropertyObject} {sub : PropertyObject}
    (hfound : (objects.find? fun sub => sub.name == name) = some sub) (h : f sub = g sub) :
    updateFirst name f objects = updateFirst name g objects := by
  induction objects with
  | nil => rfl
  | cons object objects ih =>
    rw [updateFirst,updateFirst]
    by_cases hobject : object.name = name
    · rw [find?_cons_of_pos (by simpa using hobject)] at hfound
      rw [if_pos hobject,if_pos hobject,some.inj hfound,h]
    · rw [find?_cons_of_neg (by simpa using hobject)] at hfound
      rw [if_neg hobject,if_neg hobject,ih hfound]

theorem updateAt_getOrMakeSubproperty (hattaches : root.Attaches names) (values : Values) (value : Variant) :
    updateAt names (fun object => object.setValues values) (getOrMakeSubproperty call names value root) =
      makeAt call names (fun object => object.setValues values) root := by
  have hkeeps (names : List String) : KeepsName (getOrMakeSubproperty call names value) := by
    intro object
    cases names with
    | nil => rfl
    | cons name names =>
      rw [getOrMakeSubproperty]
      split
      · rfl
      · rw [addSubproperty_eq]
        rfl
  induction names generalizing root with
  | nil => rfl
  | cons name names ih =>
    rw [Attaches.eq_def] at hattaches
    dsimp only at hattaches
    rw [getOrMakeSubproperty,makeAt,withChild,updateAt]
    cases hfound : root.findSubproperty name with
    | some sub =>
      rw [hfound] at hattaches
      rw [isSome_some,if_pos rfl,if_pos rfl,lstSubproperties_setSubproperties,
        setSubproperties_setSubproperties,updateFirst_updateFirst (hkeeps names)]
      exact congrArg root.setSubproperties (updateFirst_congr hfound (ih hattaches))
    | none =>
      rw [hfound] at hattaches
      have hmade : (getOrMakeSubproperty call names value
          (create call name (if names = [] then value else .string ""))).name = name := hkeeps names _
      have hname : name ≠ "" := fun hname => hattaches (hname ▸ mem_cons_self)
      have hbelow : "" ∉ names := fun hmem => hattaches (mem_cons_of_mem name hmem)
      rw [isSome_none,if_neg Bool.false_ne_true,if_neg Bool.false_ne_true]
      rw [addSubproperty,if_neg (hmade.symm ▸ hname),lstSubproperties_setSubproperties,
        setSubproperties_setSubproperties,updateFirst_append_new hfound hmade,ih (attaches_of_names hbelow _)]
      cases names with
      | nil => rfl
      | cons next names => rw [if_neg (cons_ne_nil _ _)]

private theorem mergeEach_makeAt {properties : List Property} (hf : KeepsName f)
    (hmerge : ∀ sub ∈ properties, ∀ root : PropertyObject, mergeProperty call (pathText names) sub root =
      makeAt call (names ++ [sub.name]) (mergeInto call sub) root) (root : PropertyObject) :
    mergeEach call (pathText names) properties (makeAt call names f root) =
      makeAt call names (fun object => mergeSubproperties call properties (f object)) root := by
  induction properties generalizing f with
  | nil => rfl
  | cons property properties ih =>
    rw [forall_mem_cons] at hmerge
    have hchange : KeepsName fun object => withChild call property.name (mergeInto call property) (f object) :=
      fun object => (keepsName_withChild _).trans (hf object)
    rw [mergeEach,hmerge.1,makeAt_append_makeAt call call hf]
    exact ih hchange hmerge.2

theorem mergeProperty_eq {source : Property} (hproper : source.ProperNames) {strPath : String}
    (hpath : joinPath strPath source.name = pathText names) (hnames : ∀ name ∈ names, ProperName name)
    (root : PropertyObject) :
    mergeProperty call strPath source root = makeAt call names (mergeInto call source) root := by
  induction source using Property.induction generalizing strPath names root with
  | mk name values subproperties ih =>
    obtain ⟨hown,hbelow⟩ := Property.namesMeet_mk.mp hproper
    have hpath' : joinPath strPath name = pathText names := hpath
    have hset : (fun object : PropertyObject => object.setValues (values.copyPropertyValue object.values)) =
        fun object => object.setValues values := by
      funext object
      rw [Values.copyPropertyValue_eq]
    have hattaches : root.Attaches names := attaches_of_names (fun hmem => (hnames "" hmem).1 rfl) root
    rw [mergeProperty,hpath',pathNames_pathText hnames,hset,updateAt_getOrMakeSubproperty hattaches]
    have hinto : mergeInto call (.mk name values subproperties) =
        fun object => mergeSubproperties call subproperties (object.setValues values) := rfl
    have hkeeps : KeepsName fun object : PropertyObject => object.setValues values := fun object => rfl
    refine mergeEach_makeAt hkeeps (fun sub hsub root => ?_) root
    refine ih sub hsub (hbelow sub hsub) (pathText_append_singleton names sub.name).symm (fun other hother => ?_) root
    rcases mem_append.mp hother with hfront | hlast
    · exact hnames other hfront
    · rw [mem_singleton.mp hlast]
      exact hown _ (mem_map_of_mem hsub)

end PropertyObject
end FepParticipant.PropertyTree
