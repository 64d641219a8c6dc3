import FepParticipant.Library.Binary64
import FepParticipant.Result

/-! The properties of the property tree: a name, the values and the subproperties. -/
namespace FepParticipant.PropertyTree
open List

open Library (Binary64)

/-- A single value. -/
inductive Variant where
  | string (text : String)
  | float (value : Binary64)
  | integer (value : Int32)
  | boolean (value : Bool)

/-- The vector of values is never empty, and its elements have the type of the first one: `SetValue` leaves one
element and `AppendValue` converts a number or refuses. -/
inductive Values where
  | strings (front : String) (rest : List String)
  | floats (front : Binary64) (rest : List Binary64)
  | integers (front : Int32) (rest : List Int32)
  | booleans (front : Bool) (rest : List Bool)

namespace Values

def getArraySize : Values → Nat
  | strings _ rest => rest.length + 1
  | floats _ rest => rest.length + 1
  | integers _ rest => rest.length + 1
  | booleans _ rest => rest.length + 1

def isArray (values : Values) : Bool := decide (1 < values.getArraySize)

/-- The overloads of `SetValue` truncate an array. -/
def setValue (_ : Values) : Variant → Values
  | .string text => strings text []
  | .float value => floats value []
  | .integer value => integers value []
  | .boolean value => booleans value []

/-- The overloads of `AppendValue`. Numbers are converted to the type of the first value. -/
def appendValue : Values → Variant → Result × Values
  | strings front rest, .string text => (.errNoError,strings front (rest ++ [text]))
  | floats front rest, .float value => (.errNoError,floats front (rest ++ [value]))
  | integers front rest, .float value => (.errNoError,integers front (rest ++ [value.toInt32]))
  | integers front rest, .integer value => (.errNoError,integers front (rest ++ [value]))
  | floats front rest, .integer value => (.errNoError,floats front (rest ++ [.ofInt32 value]))
  | booleans front rest, .boolean value => (.errNoError,booleans front (rest ++ [value]))
  | values, _ => (.errInvalidType,values)

theorem foldl_appendValue {α β : Type} (variant : α → Variant) (wrap : List β → Values) (converted : α → β)
    (happend : ∀ rest value, ((wrap rest).appendValue (variant value)).2 = wrap (rest ++ [converted value]))
    (read : List β) (rest : List α) :
    rest.foldl (fun values value => (values.appendValue (variant value)).2) (wrap read) =
      wrap (read ++ rest.map converted) := by
  induction rest generalizing read with
  | nil => simp
  | cons value rest ih =>
    rw [foldl_cons,happend,ih]
    simp

end Values

inductive Property where
  | mk (name : String) (values : Values) (subproperties : List Property)

namespace Property
variable (property : Property)

def name : Property → String
  | mk name _ _ => name

def values : Property → Values
  | mk _ values _ => values

def getSubProperties : Property → List Property
  | mk _ _ subproperties => subproperties

/-- The constructors without a parent. -/
def create (name : String) (value : Variant) : Property := mk name ((Values.booleans false []).setValue value) []

def clearSubproperties : Property := mk property.name property.values []

def setValues (values : Values) : Property := mk property.name values property.getSubProperties

def setName (name : String) : Result × Property :=
  if name = "" ∧ property.getSubProperties ≠ [] then (.errEmpty,property)
  else (.errNoError,mk name property.values property.getSubProperties)

/-- `AddSubproperty` for a property without a parent. -/
def addSubproperty (subproperty : Property) : Result × Property :=
  if subproperty.name = "" then (.errEmpty,property)
  else (.errNoError,mk property.name property.values (property.getSubProperties ++ [subproperty]))

@[elab_as_elim]
theorem induction {motive : Property → Prop}
    (mk : ∀ name values subproperties, (∀ sub ∈ subproperties, motive sub) → motive (mk name values subproperties))
    (property : Property) : motive property := by
  refine Property.rec (motive_1 := motive) (motive_2 := fun properties => ∀ sub ∈ properties, motive sub)
    mk ?_ ?_ property
  · intro sub hsub
    cases hsub
  · intro head tail hhead htail sub hsub
    rcases mem_cons.mp hsub with rfl | hsub
    · exact hhead
    · exact htail sub hsub

mutual
def nodes : Property → List Property
  | mk name values subproperties => mk name values subproperties::nodesBelow subproperties

def nodesBelow : List Property → List Property
  | [] => []
  | property::properties => property.nodes ++ nodesBelow properties
end

private theorem mem_nodesBelow {properties : List Property} {property : Property} :
    property ∈ nodesBelow properties ↔ ∃ sub ∈ properties, property ∈ sub.nodes := by
  induction properties with
  | nil => simp [nodesBelow]
  | cons head tail ih => simp [nodesBelow,ih]

theorem forall_nodes_mk {P : Property → Prop} {name : String} {values : Values} {subproperties : List Property} :
    (∀ property ∈ (mk name values subproperties).nodes, P property) ↔
      P (mk name values subproperties) ∧ ∀ sub ∈ subproperties, ∀ property ∈ sub.nodes, P property := by
  rw [nodes,forall_mem_cons]
  refine and_congr_right fun _ => ⟨fun h sub hsub property hproperty => ?_,fun h property hproperty => ?_⟩
  · exact h property (mem_nodesBelow.mpr ⟨sub,hsub,hproperty⟩)
  · obtain ⟨sub,hsub,hmem⟩ := mem_nodesBelow.mp hproperty
    exact h sub hsub property hmem

theorem mem_nodes_self (property : Property) : property ∈ property.nodes := by
  cases property
  exact mem_cons_self

end Property

/-- The names in a path, each up to the next point. Nothing behind the last point is no name. -/
def namesBehind : List Char → List Char → List String
  | [], [] => []
  | current, [] => [String.ofList current]
  | current, '.' :: rest => String.ofList current::namesBehind [] rest
  | current, c::rest => namesBehind (current ++ [c]) rest

/-- The names that `GetOrMakeSubproperty` looks for, one after the other. -/
def pathNames (strRelativePath : String) : List String := namesBehind [] strRelativePath.toList

namespace Values

/-- Whether `SetValue` notifies the listeners. -/
def notifies (values : Values) : Variant → Bool
  | .string text =>
    match values with
    | strings front _ => text != front || values.isArray
    | _ => true
  | .float value =>
    match values with
    | floats front _ => value.differs front || values.isArray
    | integers front _ => value.toInt32 != front || values.isArray
    | _ => true
  | .integer value =>
    match values with
    | integers front _ => value != front || values.isArray
    | floats front _ => (Binary64.ofInt32 value).differs front || values.isArray
    | _ => true
  | .boolean value =>
    match values with
    | booleans front _ => value != front || values.isArray
    | _ => true

/-- The first value, and the values that are appended to it. -/
def variants : Values → Variant × List Variant
  | strings front rest => (.string front,rest.map .string)
  | floats front rest => (.float front,rest.map .float)
  | integers front rest => (.integer front,rest.map .integer)
  | booleans front rest => (.boolean front,rest.map .boolean)

private theorem foldl_variants {α : Type} (variant : α → Variant) (wrap : List α → Values)
    (happend : ∀ rest value, ((wrap rest).appendValue (variant value)).2 = wrap (rest ++ [value])) (rest : List α) :
    (rest.map variant).foldl (fun values value => (values.appendValue value).2) (wrap []) = wrap rest := by
  rw [foldl_map,foldl_appendValue variant wrap id happend,map_id,nil_append]

theorem setValue_variants (values target : Values) :
    values.variants.2.foldl (fun values value => (values.appendValue value).2) (target.setValue values.variants.1) =
      values := by
  cases values with
  | strings front rest => exact foldl_variants .string (.strings front) (fun _ _ => rfl) rest
  | floats front rest => exact foldl_variants .float (.floats front) (fun _ _ => rfl) rest
  | integers front rest => exact foldl_variants .integer (.integers front) (fun _ _ => rfl) rest
  | booleans front rest => exact foldl_variants .boolean (.booleans front) (fun _ _ => rfl) rest

end Values

namespace Property

variable {property sub : Property} {name : String} {names : List String} {f : Property → Property}

def setSubproperties (property : Property) (subproperties : List Property) : Property :=
  mk property.name property.values subproperties

def findSubproperty (property : Property) (strName : String) : Option Property :=
  property.getSubProperties.find? fun sub => sub.name == strName

/-- `GetSubproperty`. -/
def getSubproperty : List String → Property → Option Property
  | [], property => some property
  | strCurrent::names, property => (property.findSubproperty strCurrent).bind (getSubproperty names)

def updateFirst (name : String) (f : Property → Property) : List Property → List Property
  | [] => []
  | property::properties =>
    if property.name = name then f property::properties else property::updateFirst name f properties

/-- The property as `GetOrMakeSubproperty` leaves it if it may make the path. One without a name is made but not
added. -/
def getOrMakeSubproperty : List String → Variant → Property → Property
  | [], _, property => property
  | strCurrent::names, value, property =>
    if (property.findSubproperty strCurrent).isSome then
      property.setSubproperties
        (updateFirst strCurrent (getOrMakeSubproperty names value) property.getSubProperties)
    else
      let next := create strCurrent (if names = [] then value else .string "")
      (property.addSubproperty (getOrMakeSubproperty names value next)).2

/-- A change of the property that `GetSubproperty` finds. -/
def updateAt : List String → (Property → Property) → Property → Property
  | [], f, property => f property
  | strCurrent::names, f, property =>
    property.setSubproperties (updateFirst strCurrent (updateAt names f) property.getSubProperties)

/-- `SetPropertyValue` of the property tree. -/
def setPropertyValue (names : List String) (value : Variant) (root : Property) : Property :=
  updateAt names (fun property => property.setValues (property.values.setValue value))
    (getOrMakeSubproperty names value root)

@[simp] theorem values_setSubproperties (subproperties : List Property) :
    (property.setSubproperties subproperties).values = property.values := rfl

@[simp] theorem getSubProperties_setSubproperties (subproperties : List Property) :
    (property.setSubproperties subproperties).getSubProperties = subproperties := rfl

@[simp] theorem values_setValues (values : Values) : (property.setValues values).values = values := rfl

theorem name_updateAt (hf : ∀ property, (f property).name = property.name) (names : List String)
    (property : Property) : (updateAt names f property).name = property.name := by
  cases names with
  | nil => exact hf property
  | cons name names => rfl

theorem find?_updateFirst (hf : ∀ property, (f property).name = property.name) (name : String)
    (properties : List Property) : (updateFirst name f properties).find? (fun sub => sub.name == name) =
      (properties.find? fun sub => sub.name == name).map f := by
  induction properties with
  | nil => rfl
  | cons property properties ih =>
    rw [updateFirst]
    by_cases hname : property.name = name
    · simp [hname,hf]
    · rw [if_neg hname,List.find?_cons_of_neg (by simpa using hname),ih,List.find?_cons_of_neg (by simpa using hname)]

private theorem getSubproperty_updateAt (hf : ∀ property, (f property).name = property.name) (names : List String)
    (property : Property) :
    getSubproperty names (updateAt names f property) = (getSubproperty names property).map f := by
  induction names generalizing property with
  | nil => rfl
  | cons name names ih =>
    rw [updateAt,getSubproperty,getSubproperty,findSubproperty,findSubproperty,
      getSubProperties_setSubproperties,find?_updateFirst (name_updateAt hf names)]
    cases property.getSubProperties.find? fun sub => sub.name == name with
    | none => rfl
    | some sub => exact ih sub

theorem getSubproperty_updateAt_setValues (values : Property → Values) :
    getSubproperty names (updateAt names (fun property => property.setValues (values property)) property) =
      (getSubproperty names property).map fun property => property.setValues (values property) :=
  getSubproperty_updateAt (f := fun property => property.setValues (values property)) (fun _ => rfl) names property

end Property

end FepParticipant.PropertyTree
