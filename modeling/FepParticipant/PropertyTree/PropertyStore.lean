import FepParticipant.PropertyTree.MergeOutcome

/-! The values that the property tree keeps under paths: what `SetPropertyValue` stores is read again, and nothing else
changes, unless an object without a name would have to be made on the way. -/
namespace FepParticipant.PropertyTree
open List Option
open Library (Binary64)

inductive ValueType where
  | string
  | float
  | integer
  | boolean
  deriving DecidableEq

def Variant.type : Variant → ValueType
  | string _ => .string
  | float _ => .float
  | integer _ => .integer
  | boolean _ => .boolean

/-- The value that `ClearProperty` sets in its place. -/
def Variant.zero : Variant → Variant
  | string _ => .string ""
  | float _ => .float (.ofInt32 0)
  | integer _ => .integer 0
  | boolean _ => .boolean false

/-- The overloads of `GetValue` for the first value. Numbers are converted. -/
def Values.getValue : ValueType → Values → Except Result Variant
  | .string, strings front _ => .ok (.string front)
  | .boolean, booleans front _ => .ok (.boolean front)
  | .integer, integers front _ => .ok (.integer front)
  | .integer, floats front _ => .ok (.integer front.toInt32)
  | .float, floats front _ => .ok (.float front)
  | .float, integers front _ => .ok (.float (.ofInt32 front))
  | _, _ => .error .errInvalidType

@[simp] theorem Values.getValue_setValue (values : Values) (value : Variant) :
    (values.setValue value).getValue value.type = .ok value := by
  cases value <;> rfl

namespace PropertyObject
variable {strPath : String}

/-- The object that `GetOrMakeSubproperty` returns. -/
def gotOrMade (call : Nat) : List String → Variant → PropertyObject → PropertyObject
  | [], _, object => object
  | strCurrent::names, value, object =>
    match object.findSubproperty strCurrent with
    | some poNext => gotOrMade call names value poNext
    | none => gotOrMade call names value (create call strCurrent (if names = [] then value else .string ""))

/-- `SetValue`, with the answer of the listeners if they are notified. -/
def setValue (notified : Result) (value : Variant) (object : PropertyObject) : Result × PropertyObject :=
  (if object.values.notifies value then notified else .errNoError,object.setValues (object.values.setValue value))

/-- `SetPropertyValue`. The result is that of the object that is got or made, also if it is not in the tree. -/
def setPropertyValue (notified : Result) (call : Nat) (strPropPath : String) (value : Variant)
    (root : PropertyObject) : Result × PropertyObject :=
  let names := pathNames strPropPath
  (((gotOrMade call names value root).setValue notified value).1,
    (root.getOrMakeSubproperty call names value).updateAt names fun object => (object.setValue notified value).2)

def getProperty (strPropPath : String) (root : PropertyObject) : Option PropertyObject :=
  root.getSubproperty (pathNames strPropPath)

def getPropertyValue (type : ValueType) (strPropPath : String) (root : PropertyObject) : Except Result Variant :=
  match root.getProperty strPropPath with
  | none => .error .errPathNotFound
  | some poProperty => poProperty.values.getValue type

/-- `DeleteSubproperty` by name. -/
def deleteSubproperty (strName : String) (object : PropertyObject) : Result × PropertyObject :=
  if (object.findSubproperty strName).isSome then
    (.errNoError,object.setSubproperties (object.lstSubproperties.eraseP fun sub => sub.name == strName))
  else (.errNotFound,object)

/-- The loop of `ClearProperty` that deletes the first subproperty by its name as long as there is one. -/
def clearSubproperties (object : PropertyObject) : PropertyObject :=
  match _h : object.lstSubproperties with
  | [] => object
  | pSubProperty::_ => clearSubproperties (object.deleteSubproperty pSubProperty.name).2
termination_by object.lstSubproperties.length
decreasing_by
  rw [deleteSubproperty,findSubproperty,_h,find?_cons_of_pos (by simp),isSome_some,if_pos rfl,
    lstSubproperties_setSubproperties,eraseP_cons_of_pos (by simp)]
  exact Nat.lt_succ_self _

def clearProperty (notified : Result) (strPropertyPath : String) (root : PropertyObject) : Result × PropertyObject :=
  match root.getProperty strPropertyPath with
  | none => (.errPathNotFound,root)
  | some pProperty =>
    ((pProperty.setValue notified pProperty.values.cleared).1,
      root.updateAt (pathNames strPropertyPath) fun object =>
        (object.setValue notified object.values.cleared).2.clearSubproperties)

/-- `DeleteProperty`. The root, which is found for the empty path, is not deleted. -/
def deleteProperty (strPropertyPath : String) (root : PropertyObject) : Result × PropertyObject :=
  let names := pathNames strPropertyPath
  if names = [] then (.errFailed,root)
  else
    match root.getSubproperty names, root.getSubproperty names.dropLast with
    | some pProperty, some pParentProperty =>
      ((pParentProperty.deleteSubproperty pProperty.name).1,
        root.updateAt names.dropLast fun parent => (parent.deleteSubproperty pProperty.name).2)
    | _, _ => (.errPathNotFound,root)

variable {call : Nat} {names rel path : List String} {name : String} {object root : PropertyObject}
  {f : PropertyObject → PropertyObject} {value : Variant}

theorem clearSubproperties_eq (object : PropertyObject) : object.clearSubproperties = object.setSubproperties [] := by
  induction hlength : object.lstSubproperties.length generalizing object with
  | zero =>
    rw [clearSubproperties]
    split
    · rename_i hempty
      rw [← hempty,setSubproperties_self]
    · rename_i hcons
      rw [hcons] at hlength
      cases hlength
  | succ length ih =>
    rw [clearSubproperties]
    split
    · rename_i hempty
      rw [hempty] at hlength
      cases hlength
    · rename_i first rest hcons
      have hdelete : (object.deleteSubproperty first.name).2 = object.setSubproperties rest := by
        rw [deleteSubproperty,findSubproperty,hcons,find?_cons_of_pos (by simp),isSome_some,if_pos rfl,
          eraseP_cons_of_pos (by simp)]
      rw [hcons,length_cons,Nat.succ_inj] at hlength
      rw [hdelete,ih (object.setSubproperties rest) hlength,setSubproperties_setSubproperties]

private theorem keepsName_updateAt (hf : KeepsName f) : KeepsName (updateAt names f) := by
  cases names with
  | nil => exact hf
  | cons name names => exact fun _ => rfl

theorem getSubproperty_updateAt (hf : KeepsName f) (names : List String) (root : PropertyObject) :
    getSubproperty names (updateAt names f root) = (getSubproperty names root).map f := by
  induction names generalizing root with
  | nil => rfl
  | cons name names ih =>
    rw [updateAt,getSubproperty,getSubproperty,findSubproperty,lstSubproperties_setSubproperties,
      find?_updateFirst (keepsName_updateAt hf),if_pos rfl,← findSubproperty]
    cases root.findSubproperty name with
    | none => rfl
    | some sub => exact ih sub

theorem setPropertyValue_eq (notified : Result) (hattaches : root.Attaches (pathNames strPath)) :
    (root.setPropertyValue notified call strPath value).2 =
      makeAt call (pathNames strPath)
      (fun object => object.setValues ((Values.booleans false []).setValue value)) root := by
  exact updateAt_getOrMakeSubproperty hattaches _ _

private theorem getSubproperty_setValues (values : Values) (hrel : rel ≠ []) :
    getSubproperty rel (object.setValues values) = getSubproperty rel object := by
  cases rel with
  | nil => exact absurd rfl hrel
  | cons name rel => rfl

private theorem getSubproperty_of_no_subproperties (hrel : rel ≠ []) (hnone : object.lstSubproperties = []) :
    getSubproperty rel object = none := by
  cases rel with
  | nil => exact absurd rfl hrel
  | cons name rel =>
    rw [getSubproperty,findSubproperty,hnone]
    rfl

theorem getSubproperty_makeAt_setValues (values : Values) (hother : ¬path <+: names) :
    getSubproperty path (makeAt call names (fun object => object.setValues values) root) =
      getSubproperty path root := by
  have hkeeps : KeepsName fun object : PropertyObject => object.setValues values := fun _ => rfl
  by_cases hbelow : names <+: path
  · obtain ⟨rel,rfl⟩ := hbelow
    have hrel : rel ≠ [] := fun hnil => hother (by rw [hnil,append_nil])
    obtain ⟨old,hold,hsame,hnew⟩ := getSubproperty_makeAt call names hkeeps root
    rw [getSubproperty_append,getSubproperty_append,hold,bind_some,getSubproperty_setValues values hrel]
    cases hbefore : getSubproperty names root with
    | some before => rw [hsame before hbefore,bind_some]
    | none => rw [getSubproperty_of_no_subproperties hrel (hnew hbefore),bind_none]
  · exact getSubproperty_makeAt_other hkeeps hbelow hother root

theorem getSubproperty_makeAt_made (hf : ∀ object : PropertyObject, object.Keeps (f object)) (hpath : path <+: names) :
    ∃ object, getSubproperty path (makeAt call names f root) = some object ∧
      (getSubproperty path root = none → object.made = call) := by
  induction names generalizing root path with
  | nil =>
    rw [prefix_nil.mp hpath]
    exact ⟨f root,rfl,nofun⟩
  | cons name names ih =>
    cases path with
    | nil => exact ⟨makeAt call (name::names) f root,rfl,nofun⟩
    | cons first rest =>
      obtain ⟨rfl,hrest⟩ := cons_prefix_cons.mp hpath
      have hkeeps : KeepsName (makeAt call names f) := fun object => (keeps_makeAt hf object).name
      rw [getSubproperty,getSubproperty,makeAt,findSubproperty_withChild call hkeeps,if_pos rfl,bind_some]
      cases root.findSubproperty first with
      | some sub => exact ih hrest
      | none =>
        obtain ⟨object,hobject,hmade⟩ : ∃ object,
            getSubproperty rest (makeAt call names f (create call first (.string ""))) = some object ∧
              (getSubproperty rest (create call first (.string "")) = none → object.made = call) := ih hrest
        refine ⟨object,hobject,fun _ => ?_⟩
        cases rest with
        | nil =>
          rw [← some.inj hobject]
          exact (keeps_makeAt hf _).made
        | cons second rest => exact hmade rfl

structure StoredAt (call : Nat) (strPath : String) (value : Variant) (before after : PropertyObject) : Prop where
  yields : after.getPropertyValue value.type strPath = .ok value
  others : ∀ strOther, ¬pathNames strOther <+: pathNames strPath →
    after.getProperty strOther = before.getProperty strOther
  reachable : ∀ names, names <+: pathNames strPath → ∃ object, after.getSubproperty names = some object ∧
    (before.getSubproperty names = none → object.made = call)
  cleared : ∀ notified, ∃ object, (after.clearProperty notified strPath).2.getProperty strPath = some object ∧
    object.values = (Values.booleans false []).setValue value.zero ∧ object.lstSubproperties = []

/-- The object at a path is taken out of its parent; another object with the same name may be found there then. -/
def DeletedAt (strPath : String) (before after : PropertyObject) : Prop :=
  ∃ parent front object back, before.getSubproperty (pathNames strPath).dropLast = some parent ∧
    parent.lstSubproperties = front ++ object::back ∧ before.getProperty strPath = some object ∧
    after.getSubproperty (pathNames strPath).dropLast = some (parent.setSubproperties (front ++ back)) ∧
    ((∀ sub ∈ front ++ back, sub.name ≠ object.name) → after.getProperty strPath = none)

private theorem getProperty_clearProperty (notified : Result) (hfound : root.getProperty strPath = some object) :
    (root.clearProperty notified strPath).2.getProperty strPath =
      some (object.setValue notified object.values.cleared).2.clearSubproperties := by
  have hclear : KeepsName fun object : PropertyObject =>
      (object.setValue notified object.values.cleared).2.clearSubproperties := by
    intro object
    dsimp only
    rw [clearSubproperties_eq]
    rfl
  rw [clearProperty,hfound]
  rw [getProperty,getSubproperty_updateAt hclear,← getProperty,hfound,map_some]

theorem storedAt_setPropertyValue (notified : Result) (call : Nat) (value : Variant)
    (hattaches : root.Attaches (pathNames strPath)) :
    StoredAt call strPath value root (root.setPropertyValue notified call strPath value).2 := by
  rw [setPropertyValue_eq notified hattaches]
  obtain ⟨old,hold,-,-⟩ := getSubproperty_makeAt call (pathNames strPath)
    (f := fun object => object.setValues ((Values.booleans false []).setValue value)) (fun _ => rfl) root
  refine ⟨?_,fun strOther hother => ?_,fun names hnames => ?_,fun notified => ?_⟩
  · rw [getPropertyValue,getProperty,hold]
    exact Values.getValue_setValue (.booleans false []) value
  · exact getSubproperty_makeAt_setValues ((Values.booleans false []).setValue value) hother
  · exact getSubproperty_makeAt_made (fun _ => ⟨rfl,rfl,rfl,prefix_rfl⟩) hnames
  · refine ⟨_,getProperty_clearProperty notified hold,?_,?_⟩
    · rw [clearSubproperties_eq]
      cases value <;> rfl
    · rw [clearSubproperties_eq]
      rfl

theorem deletedAt_deleteProperty (hroot : pathNames strPath ≠ []) (hfound : root.getProperty strPath = some object) :
    (root.deleteProperty strPath).1 = .errNoError ∧ DeletedAt strPath root (root.deleteProperty strPath).2 := by
  rw [getProperty] at hfound
  have hnames := dropLast_append_getLast hroot
  generalize hlast : (pathNames strPath).getLast hroot = last at hnames
  have hchain : (getSubproperty (pathNames strPath).dropLast root).bind (getSubproperty [last]) = some object := by
    rw [← getSubproperty_append,hnames,hfound]
  obtain ⟨parent,hparent,hobject⟩ := bind_eq_some_iff.mp hchain
  rw [getSubproperty,bind_eq_some_iff] at hobject
  obtain ⟨child,hchild,hsame⟩ := hobject
  obtain rfl := some.inj hsame
  have hname : child.name = last := by
    have hnamed := find?_some hchild
    simpa using hnamed
  obtain ⟨-,front,back,hlist,hfront⟩ := find?_eq_some_iff_append.mp hchild
  have hdelete : parent.deleteSubproperty child.name = (.errNoError,parent.setSubproperties (front ++ back)) := by
    rw [hname,deleteSubproperty,hchild,isSome_some,if_pos rfl,hlist,eraseP_append_right,
      eraseP_cons_of_pos (by simpa using hname)]
    intro sub hsub
    simpa using hfront sub hsub
  have hkeeps : KeepsName fun parent : PropertyObject => (parent.deleteSubproperty child.name).2 := by
    intro object
    dsimp only
    rw [deleteSubproperty]
    split <;> rfl
  have hafter : getSubproperty (pathNames strPath).dropLast (root.deleteProperty strPath).2 =
      some (parent.setSubproperties (front ++ back)) := by
    rw [deleteProperty,if_neg hroot,hfound,hparent]
    rw [getSubproperty_updateAt hkeeps,hparent,map_some,hdelete]
  refine ⟨?_,parent,front,child,back,hparent,hlist,hfound,hafter,fun hother => ?_⟩
  · rw [deleteProperty,if_neg hroot,hfound,hparent]
    exact congrArg Prod.fst hdelete
  · rw [getProperty,← hnames,getSubproperty_append,hafter,bind_some,getSubproperty,findSubproperty,
      lstSubproperties_setSubproperties]
    have hnone : (front ++ back).find? (fun sub => sub.name == last) = none :=
      find?_eq_none.mpr fun sub hsub hsame => hother sub hsub ((beq_iff_eq.mp hsame).trans hname.symm)
    rw [hnone,bind_none]

/-- What is set for a path is kept under it and removed again, where no object without a name has to be made. -/
theorem property_store_laws (notified : Result) (call : Nat) (strPath : String) (value : Variant)
    (root : PropertyObject)
    (hattaches : root.Attaches (pathNames strPath)) : let after := (root.setPropertyValue notified call strPath value).2
    StoredAt call strPath value root after ∧ (pathNames strPath ≠ [] →
      (after.deleteProperty strPath).1 = .errNoError ∧ DeletedAt strPath after (after.deleteProperty strPath).2) := by
  have hstored := storedAt_setPropertyValue notified call value hattaches
  refine ⟨hstored,fun hroot => ?_⟩
  obtain ⟨object,hobject,-⟩ := hstored.reachable (pathNames strPath) prefix_rfl
  exact deletedAt_deleteProperty hroot hobject

theorem wheel_speed_stored : ∃ after, StoredAt 1 "Wheel.Speed" (.integer 5) (create 0 "" (.string "")) after ∧
    (after.deleteProperty "Wheel.Speed").1 = .errNoError ∧
      DeletedAt "Wheel.Speed" after (after.deleteProperty "Wheel.Speed").2 := by
  obtain ⟨hstored,hdeleted⟩ := property_store_laws .errNoError 1 "Wheel.Speed" (.integer 5) (create 0 "" (.string ""))
    (attaches_of_names (by decide) _)
  exact ⟨_,hstored,hdeleted (by decide)⟩

/-- The root takes a value and is not deleted. -/
theorem root_not_deleted :
    ¬∀ (notified : Result) (call : Nat) (strPath : String) (value : Variant) (root : PropertyObject),
    isOk (root.setPropertyValue notified call strPath value).1 = true →
      let after := (root.setPropertyValue notified call strPath value).2
      StoredAt call strPath value root after ∧ (after.deleteProperty strPath).1 = .errNoError ∧
        DeletedAt strPath after (after.deleteProperty strPath).2 := by
  intro h
  obtain ⟨-,hdeleted,-⟩ := h .errNoError 1 "" (.integer 5) (create 0 "" (.string "")) (by decide)
  exact absurd hdeleted (by decide)

end PropertyObject
end FepParticipant.PropertyTree
