import FepParticipant.PropertyTree.PropertyObjects
import FepParticipant.PropertyTree.PropertyJSON

/-! What a failed import of JSON leaves of the property. It writes as it reads, so the property stays as it was only if
nothing was there to be lost and nothing new was written up to the error. -/
namespace FepParticipant.PropertyTree
open List PropertyObject

section
variable {Number : Type}

@[elab_as_elim]
theorem JSONNode.induction {motive : JSONNode Number → Prop} (scalar : ∀ name value, motive (.scalar name value))
    (array : ∀ name elements, (∀ element ∈ elements, motive element) → motive (.array name elements))
    (node : ∀ name children, (∀ child ∈ children, motive child) → motive (.node name children))
    (document : JSONNode Number) : motive document := by
  refine JSONNode.rec (motive_1 := motive) (motive_2 := fun nodes => ∀ node ∈ nodes, motive node)
    scalar array node ?_ ?_ document
  · intro other hother
    cases hother
  · intro head tail hhead htail other hother
    rcases mem_cons.mp hother with rfl | hother
    · exact hhead
    · exact htail other hother

def JSONType.isValue : JSONType → Bool
  | .string => true
  | .number => true
  | .bool => true
  | _ => false

namespace JSONNode

def elements : JSONNode Number → List (JSONNode Number)
  | scalar _ _ => []
  | array _ elements => elements
  | node _ children => children

def isSubproperty (node : JSONNode Number) : Bool := node.size != 0 && node.type != .array

/-- A value, or an array of at least two values of one type. -/
def valueValid : JSONNode Number → Bool
  | scalar _ value => (scalar "" value).type.isValue
  | array _ (first::second::rest) =>
    first.type.isValue && (second::rest).all fun element => element.type == first.type
  | array _ _ => false
  | node _ _ => false

/-- The first element with the name `Value`. -/
def findValue (elements : List (JSONNode Number)) : Option (JSONNode Number) :=
  elements.find? fun element => decide (element.name = "Value")

mutual
/-- The document has a value that can be read, and so have all subproperties. -/
def valid : JSONNode Number → Bool
  | scalar _ _ => false
  | array _ elements => (findValue elements).any valueValid && validEach elements
  | node _ children => (findValue children).any valueValid && validEach children

def validEach : List (JSONNode Number) → Bool
  | [] => true
  | element::elements => (!element.isSubproperty || element.valid) && validEach elements
end

/-- The nodes in front of the first subproperty that is not valid. -/
def beforeInvalid (nodes : List (JSONNode Number)) : List (JSONNode Number) :=
  nodes.takeWhile fun element => !element.isSubproperty || element.valid

theorem valid_eq (node : JSONNode Number) :
    node.valid = ((findValue node.elements).any valueValid && validEach node.elements) := by
  cases node <;> rfl

end JSONNode
end

section
variable (lib : NumberNodes)

/-- The value of a node without children. -/
def scalarVariant : JSONNode lib.Number → Option Variant
  | .scalar _ scalar => readScalar lib scalar
  | .array _ _ => none
  | .node _ _ => none

/-- The values in a node up to the first element of another type than the first one. -/
def valuesBeforeInvalid : JSONNode lib.Number → Option Values
  | .array _ (first::second::rest) =>
    (scalarVariant lib first).map fun value =>
      (((second::rest).takeWhile fun element => element.type == first.type).filterMap (scalarVariant lib)).foldl
        (fun values value => (values.appendValue value).2) ((Values.booleans false []).setValue value)
  | .array _ _ => none
  | node => (scalarVariant lib node).map (Values.booleans false []).setValue

namespace PropertyObject

/-- `JSONToProperty` up to the loop over the subproperties. The listeners of the object stay. -/
def readNameAndValues (object : PropertyObject) (name : String) (children : List (JSONNode lib.Number)) :
    Result × PropertyObject :=
  match PropertyTree.readNameAndValues lib object.toProperty name children with
  | (res,read) => (res,mk object.made read.name read.values object.vecListeners [])

mutual
/-- `JSONToProperty` in the call with the number. -/
def jsonToProperty (call : Nat) : PropertyObject → JSONNode lib.Number → Result × PropertyObject
  | object, .scalar name _ => object.readNameAndValues lib name []
  | object, .array name elements =>
    match object.readNameAndValues lib name elements with
    | (res,read) => if isFailed res then (res,read) else readSubproperties call read elements
  | object, .node name children =>
    match object.readNameAndValues lib name children with
    | (res,read) => if isFailed res then (res,read) else readSubproperties call read children

/-- The loop over the subproperties. -/
def readSubproperties (call : Nat) : PropertyObject → List (JSONNode lib.Number) → Result × PropertyObject
  | object, [] => (.errNoError,object)
  | object, node::nodes =>
    if node.size ≠ 0 ∧ node.type ≠ .array then
      match jsonToProperty call (.create call "" (.string "")) node with
      | (res,subproperty) =>
        if isFailed res then (res,object) else readSubproperties call (object.addSubproperty subproperty) nodes
    else readSubproperties call object nodes
end

end PropertyObject

/-- A property that was made by earlier calls, before a call. -/
structure ImportTarget where
  object : PropertyObject
  call : Nat
  older : ∀ sub ∈ object.lstSubproperties, sub.made < call

namespace ImportTarget

def jsonToProperty (target : ImportTarget) (document : JSONNode lib.Number) : Result × PropertyObject :=
  target.object.jsonToProperty lib target.call document

end ImportTarget

/-- The values with their type, the subproperties and the listeners are those before. -/
structure PropertyObject.Unchanged (before after : PropertyObject) : Prop where
  values : after.values = before.values
  lstSubproperties : after.lstSubproperties = before.lstSubproperties
  vecListeners : after.vecListeners = before.vecListeners

/-- There is nothing to be lost and nothing new to be written up to the error. -/
structure NothingWritten (object : PropertyObject) (document : JSONNode lib.Number) : Prop where
  noSubproperties : object.lstSubproperties = []
  sameValues : ∀ value ∈ JSONNode.findValue document.elements, ∀ values ∈ valuesBeforeInvalid lib value,
    values = object.values
  unnamed : (JSONNode.findValue document.elements).any JSONNode.valueValid →
    ∀ node ∈ JSONNode.beforeInvalid document.elements, node.isSubproperty → node.name = ""

variable {lib}

theorem isValue_scalar (name : String) (scalar : JSONScalar lib.Number) :
    (JSONNode.scalar name scalar).type.isValue = (readScalar lib scalar).isSome := by
  cases scalar <;> rfl

theorem scalarVariant_of_isValue {element : JSONNode lib.Number} (h : element.type.isValue = true) :
    ∃ name scalar value, element = .scalar name scalar ∧ readScalar lib scalar = some value := by
  cases element with
  | scalar name scalar =>
    rw [isValue_scalar,Option.isSome_iff_exists] at h
    obtain ⟨value,hvalue⟩ := h
    exact ⟨name,scalar,value,rfl,hvalue⟩
  | array name elements => cases h
  | node name children => cases h

theorem appendElements_eq {elementType : JSONType} (htype : elementType.isValue = true) (values : Values)
    (elements : List (JSONNode lib.Number)) :
    isOk (appendElements lib elementType values elements).1 =
      elements.all (fun element => element.type == elementType) ∧
      (appendElements lib elementType values elements).2 =
        ((elements.takeWhile fun element => element.type == elementType).filterMap (scalarVariant lib)).foldl
          (fun values value => (values.appendValue value).2) values := by
  induction elements generalizing values with
  | nil => exact ⟨rfl,rfl⟩
  | cons element elements ih =>
    by_cases hsame : element.type = elementType
    · obtain ⟨name,scalar,value,rfl,hvalue⟩ := scalarVariant_of_isValue (hsame ▸ htype)
      have hread : scalarVariant lib (.scalar name scalar) = some value := hvalue
      obtain ⟨hres,hvalues⟩ := ih (values.appendValue value).2
      rw [appendElements,if_neg (not_not_intro hsame),hvalue]
      rw [hres,hvalues,all_cons,takeWhile_cons_of_pos (by exact beq_iff_eq.mpr hsame),
        filterMap_cons_some hread,foldl_cons,beq_iff_eq.mpr hsame,Bool.true_and]
      exact ⟨rfl,rfl⟩
    · rw [appendElements.eq_def]
      dsimp only
      rw [if_pos hsame,all_cons,takeWhile_cons_of_neg (by simpa using hsame),
        beq_eq_false_iff_ne.mpr hsame,Bool.false_and]
      exact ⟨rfl,rfl⟩

private theorem deserializeFirstValue_scalar (name : String) (scalar : JSONScalar lib.Number) (values : Values) :
    isOk (deserializeFirstValue lib values (.scalar name scalar)).1 = (readScalar lib scalar).isSome ∧
      (deserializeFirstValue lib values (.scalar name scalar)).2 =
        ((readScalar lib scalar).map (Values.booleans false []).setValue).getD values := by
  rw [deserializeFirstValue]
  cases readScalar lib scalar with
  | none => exact ⟨rfl,rfl⟩
  | some value =>
    refine ⟨rfl,?_⟩
    cases value <;> rfl

theorem jsonToValues_eq {value : JSONNode lib.Number} (hname : value.name = "Value") (values : Values) :
    isOk (jsonToValues lib values value).1 = value.valueValid ∧
      (jsonToValues lib values value).2 = (valuesBeforeInvalid lib value).getD values := by
  rw [jsonToValues.eq_def,if_neg (not_not_intro hname)]
  cases value with
  | scalar name scalar =>
    rw [JSONNode.valueValid,isValue_scalar]
    exact deserializeFirstValue_scalar name scalar values
  | node name children => exact ⟨rfl,rfl⟩
  | array name elements =>
    match elements with
    | [] => exact ⟨rfl,rfl⟩
    | [_] => exact ⟨rfl,rfl⟩
    | first::second::rest =>
      dsimp only
      rw [JSONNode.valueValid,valuesBeforeInvalid]
      by_cases htype : first.type.isValue = true
      · have hallowed : ¬(first.type ≠ .string ∧ first.type ≠ .number ∧ first.type ≠ .bool) := by
          rintro ⟨hstring,hnumber,hbool⟩
          cases hfirst : first.type <;> rw [hfirst] at hstring hnumber hbool htype <;> contradiction
        obtain ⟨other,scalar,read,rfl,hread⟩ := scalarVariant_of_isValue htype
        obtain ⟨hres,hvalues⟩ := deserializeFirstValue_scalar other scalar values
        obtain ⟨hres',hvalues'⟩ := appendElements_eq htype ((Values.booleans false []).setValue read) (second::rest)
        rw [hread] at hres hvalues
        have hfirst : deserializeFirstValue lib values (.scalar other scalar) =
            (.errNoError,(Values.booleans false []).setValue read) := Prod.ext ((isOk_iff _).mp hres) hvalues
        have hvariant : scalarVariant lib (.scalar other scalar) = some read := hread
        rw [if_neg hallowed,hfirst,hvariant]
        rw [if_neg (by simp),hres',hvalues',htype,Bool.true_and]
        exact ⟨rfl,rfl⟩
      · have hnone : scalarVariant lib first = none := by
          cases first with
          | scalar other scalar => simpa [isValue_scalar,scalarVariant] using htype
          | array other elements => rfl
          | node other children => rfl
        have hrefused : first.type ≠ .string ∧ first.type ≠ .number ∧ first.type ≠ .bool := by
          refine ⟨?_,?_,?_⟩ <;> exact fun h => htype (h ▸ rfl)
        rw [if_pos hrefused,hnone,Bool.eq_false_iff.mpr htype]
        exact ⟨rfl,rfl⟩

private theorem name_of_findValue {elements : List (JSONNode lib.Number)} {value : JSONNode lib.Number}
    (h : JSONNode.findValue elements = some value) : value.name = "Value" := by
  have hfound := find?_some h
  exact of_decide_eq_true hfound

namespace PropertyObject

variable {call : Nat}
variable {object : PropertyObject}

theorem setName_clearSubproperties (name : String) :
    object.toProperty.clearSubproperties.setName name = (.errNoError,.mk name object.values []) := by
  rw [Property.setName,if_neg fun h => h.2 rfl,Property.clearSubproperties,values_toProperty]
  rfl

theorem readNameAndValues_eq (object : PropertyObject) (name : String) (elements : List (JSONNode lib.Number)) :
    isOk (object.readNameAndValues lib name elements).1 = (JSONNode.findValue elements).any JSONNode.valueValid ∧
      (object.readNameAndValues lib name elements).2 = mk object.made name
        (((JSONNode.findValue elements).bind (valuesBeforeInvalid lib)).getD object.values) object.vecListeners [] := by
  rw [readNameAndValues,PropertyTree.readNameAndValues,setName_clearSubproperties]
  dsimp only
  rw [if_neg (by simp),← JSONNode.findValue]
  cases hfound : JSONNode.findValue elements with
  | none => exact ⟨rfl,rfl⟩
  | some value =>
    obtain ⟨hres,hvalues⟩ := jsonToValues_eq (name_of_findValue hfound) object.values
    exact ⟨hres,congrArg (fun values => mk object.made name values object.vecListeners []) hvalues⟩

theorem jsonToProperty_unfold (object : PropertyObject) (document : JSONNode lib.Number) :
    object.jsonToProperty lib call document =
      if isFailed (object.readNameAndValues lib document.name document.elements).1 then
        object.readNameAndValues lib document.name document.elements
      else
        readSubproperties lib call (object.readNameAndValues lib document.name document.elements).2
          document.elements := by
  cases document with
  | scalar name scalar =>
    have hfailed : isFailed (object.readNameAndValues lib name []).1 = true := by
      rw [isFailed,(readNameAndValues_eq object name []).1]
      rfl
    exact (if_pos hfailed).symm
  | array name elements => rfl
  | node name children => rfl

private theorem isSubproperty_iff (node : JSONNode lib.Number) :
    node.isSubproperty = true ↔ node.size ≠ 0 ∧ node.type ≠ .array := by
  rw [JSONNode.isSubproperty,Bool.and_eq_true,bne_iff_ne,bne_iff_ne]

/-- What the loop over the subproperties adds. -/
def imported (lib : NumberNodes) (call : Nat) (nodes : List (JSONNode lib.Number)) : List PropertyObject :=
  (((JSONNode.beforeInvalid nodes).filter JSONNode.isSubproperty).map fun node =>
    ((create call "" (.string "")).jsonToProperty lib call node).2).filter fun sub => sub.name ≠ ""

variable {nodes : List (JSONNode lib.Number)}

theorem readSubproperties_eq (object : PropertyObject)
    (hvalid : ∀ node ∈ nodes, ∀ object : PropertyObject, isOk (object.jsonToProperty lib call node).1 = node.valid) :
    isOk (object.readSubproperties lib call nodes).1 = JSONNode.validEach nodes ∧
      (object.readSubproperties lib call nodes).2 =
        object.setSubproperties (object.lstSubproperties ++ imported lib call nodes) := by
  induction nodes generalizing object with
  | nil =>
    rw [readSubproperties,JSONNode.validEach]
    refine ⟨rfl,?_⟩
    rw [imported,JSONNode.beforeInvalid,takeWhile_nil,filter_nil,map_nil,filter_nil,
      append_nil,setSubproperties_self]
  | cons node nodes ih =>
    rw [forall_mem_cons] at hvalid
    rw [readSubproperties,JSONNode.validEach,imported,JSONNode.beforeInvalid]
    by_cases hsub : node.isSubproperty = true
    · rw [if_pos ((isSubproperty_iff node).mp hsub),hsub,Bool.not_true,Bool.false_or]
      have hres := hvalid.1 (create call "" (.string ""))
      cases hnode : node.valid with
      | false =>
        have hfailed : isFailed ((create call "" (.string "")).jsonToProperty lib call node).1 = true := by
          rw [isFailed,hres,hnode,Bool.not_false]
        rw [takeWhile_cons_of_neg (by simp [hsub,hnode])]
        dsimp only
        rw [if_pos hfailed,Bool.false_and,filter_nil,map_nil,filter_nil,append_nil,setSubproperties_self]
        exact ⟨hres.trans hnode,rfl⟩
      | true =>
        have hgood : ¬isFailed ((create call "" (.string "")).jsonToProperty lib call node).1 = true := by
          rw [isFailed,hres,hnode,Bool.not_true]
          exact Bool.false_ne_true
        obtain ⟨hrest,hadded⟩ := ih (object.addSubproperty
          ((create call "" (.string "")).jsonToProperty lib call node).2) hvalid.2
        rw [takeWhile_cons_of_pos (by simp [hnode]),filter_cons_of_pos hsub,map_cons]
        dsimp only
        rw [if_neg hgood,Bool.true_and,hrest,hadded,addSubproperty_eq,lstSubproperties_setSubproperties,
          setSubproperties_setSubproperties,append_assoc,imported,← filter_append]
        exact ⟨rfl,rfl⟩
    · rw [if_neg fun h => hsub ((isSubproperty_iff node).mpr h),Bool.eq_false_iff.mpr hsub,Bool.not_false,
        Bool.true_or,Bool.true_and,takeWhile_cons_of_pos (by simp [hsub]),filter_cons_of_neg hsub]
      exact ih object hvalid.2

theorem jsonToProperty_of_elements (object : PropertyObject) {document : JSONNode lib.Number}
    (hvalid : ∀ node ∈ document.elements, ∀ object : PropertyObject,
      isOk (object.jsonToProperty lib call node).1 = node.valid) :
    isOk (object.jsonToProperty lib call document).1 = document.valid ∧
      (object.jsonToProperty lib call document).2 = mk object.made document.name
        (((JSONNode.findValue document.elements).bind (valuesBeforeInvalid lib)).getD object.values) object.vecListeners
        (if (JSONNode.findValue document.elements).any JSONNode.valueValid then imported lib call document.elements
          else []) := by
  obtain ⟨hres,hread⟩ := readNameAndValues_eq object document.name document.elements
  rw [jsonToProperty_unfold,isFailed,hres,JSONNode.valid_eq]
  cases hvalue : (JSONNode.findValue document.elements).any JSONNode.valueValid with
  | false =>
    rw [hvalue] at hres
    exact ⟨hres,hread⟩
  | true =>
    obtain ⟨hrest,hadded⟩ :=
      readSubproperties_eq (object.readNameAndValues lib document.name document.elements).2 hvalid
    rw [Bool.not_true,if_neg Bool.false_ne_true,if_pos rfl,hrest,hadded,hread]
    exact ⟨rfl,rfl⟩

theorem isOk_jsonToProperty (object : PropertyObject) (document : JSONNode lib.Number) :
    isOk (object.jsonToProperty lib call document).1 = document.valid := by
  induction document using JSONNode.induction generalizing object with
  | scalar name scalar => exact (jsonToProperty_of_elements object fun _ hnode => absurd hnode not_mem_nil).1
  | array name elements ih =>
    have hspec := @jsonToProperty_of_elements lib call object (.array name elements) ih
    exact hspec.1
  | node name children ih =>
    have hspec := @jsonToProperty_of_elements lib call object (.node name children) ih
    exact hspec.1

theorem jsonToProperty_eq (object : PropertyObject) (document : JSONNode lib.Number) :
    (object.jsonToProperty lib call document).2 = mk object.made document.name
      (((JSONNode.findValue document.elements).bind (valuesBeforeInvalid lib)).getD object.values) object.vecListeners
      (if (JSONNode.findValue document.elements).any JSONNode.valueValid then imported lib call document.elements
        else []) :=
  (jsonToProperty_of_elements object fun node _ object => isOk_jsonToProperty object node).2

theorem made_of_mem_imported {sub : PropertyObject} (h : sub ∈ imported lib call nodes) : sub.made = call := by
  obtain ⟨node,-,rfl⟩ := mem_map.mp (mem_filter.mp h).1
  rw [jsonToProperty_eq]
  rfl

theorem imported_eq_nil : imported lib call nodes = [] ↔
    ∀ node ∈ JSONNode.beforeInvalid nodes, node.isSubproperty → node.name = "" := by
  rw [imported,filter_eq_nil_iff,forall_mem_map]
  simp only [mem_filter,jsonToProperty_eq,name,decide_not,Bool.not_eq_true',decide_eq_false_iff_not,
    not_not,and_imp]

theorem toProperty_readSubproperties (object : PropertyObject)
    (hnodes : ∀ node ∈ nodes, ∀ object : PropertyObject, PropertyTree.jsonToProperty lib object.toProperty node =
      ((object.jsonToProperty lib call node).1,(object.jsonToProperty lib call node).2.toProperty)) :
    PropertyTree.readSubproperties lib object.toProperty nodes =
      ((object.readSubproperties lib call nodes).1,(object.readSubproperties lib call nodes).2.toProperty) := by
  induction nodes generalizing object with
  | nil => rfl
  | cons node nodes ih =>
    rw [forall_mem_cons] at hnodes
    rw [PropertyTree.readSubproperties,readSubproperties]
    split
    · have hnode := hnodes.1 (create call "" (.string ""))
      have hcreate : (create call "" (.string "")).toProperty = .create "" (.string "") := rfl
      rw [hcreate] at hnode
      rw [hnode]
      dsimp only
      split
      · rfl
      · rw [← toProperty_addSubproperty]
        exact ih _ hnodes.2
    · exact ih object hnodes.2

private theorem toProperty_readNameAndValues (object : PropertyObject) (name : String)
    (elements : List (JSONNode lib.Number)) : PropertyTree.readNameAndValues lib object.toProperty name elements =
      ((object.readNameAndValues lib name elements).1,(object.readNameAndValues lib name elements).2.toProperty) := by
  rw [readNameAndValues,PropertyTree.readNameAndValues,setName_clearSubproperties]
  dsimp only
  cases elements.find? fun child => decide (child.name = "Value") with
  | none => rfl
  | some value => rfl

theorem toProperty_jsonToProperty (object : PropertyObject) (document : JSONNode lib.Number) :
    PropertyTree.jsonToProperty lib object.toProperty document =
      ((object.jsonToProperty lib call document).1,(object.jsonToProperty lib call document).2.toProperty) := by
  have hstep (elements : List (JSONNode lib.Number)) (name : String) (object : PropertyObject)
      (hnodes : ∀ node ∈ elements, ∀ object : PropertyObject, PropertyTree.jsonToProperty lib object.toProperty node =
        ((object.jsonToProperty lib call node).1,(object.jsonToProperty lib call node).2.toProperty)) :
      PropertyTree.jsonToProperty lib object.toProperty (.node name elements) =
        ((object.jsonToProperty lib call (.node name elements)).1,
          (object.jsonToProperty lib call (.node name elements)).2.toProperty) := by
    rw [PropertyTree.jsonToProperty,jsonToProperty,toProperty_readNameAndValues]
    dsimp only
    split
    · rfl
    · exact toProperty_readSubproperties _ hnodes
  induction document using JSONNode.induction generalizing object with
  | scalar name scalar =>
    have hread : PropertyTree.readNameAndValues lib object.toProperty name [] = _ :=
      toProperty_readNameAndValues object name []
    exact hread
  | array name elements ih => exact hstep elements name object ih
  | node name children ih => exact hstep children name object ih

end PropertyObject

/-- A failed import leaves the property as it was exactly if nothing was below it and the document brings nothing
new up to the error. -/
theorem failed_import_unchanged_iff (lib : NumberNodes) (target : ImportTarget) (document : JSONNode lib.Number) :
    (isFailed (target.jsonToProperty lib document).1 → target.object.Unchanged (target.jsonToProperty lib document).2) ↔
      document.valid ∨ NothingWritten lib target.object document := by
  have hres : isFailed (target.jsonToProperty lib document).1 = !document.valid :=
    congrArg Bool.not (target.object.isOk_jsonToProperty document)
  rw [hres,ImportTarget.jsonToProperty,jsonToProperty_eq]
  cases hvalid : document.valid with
  | true => simp
  | false =>
    simp only [Bool.not_false,forall_const,Bool.false_eq_true,false_or]
    constructor
    · rintro ⟨hvalues,hsubproperties,-⟩
      have hnone : target.object.lstSubproperties = [] := by
        by_contra hne
        obtain ⟨sub,hsub⟩ := exists_mem_of_ne_nil _ hne
        have holder := target.older sub hsub
        rw [← hsubproperties,PropertyObject.lstSubproperties] at hsub
        split at hsub
        · exact absurd (made_of_mem_imported hsub) holder.ne
        · cases hsub
      refine ⟨hnone,fun value hvalue values hread => ?_,fun hgood => ?_⟩
      · rw [PropertyObject.values,Option.mem_def.mp hvalue,Option.bind_some,Option.mem_def.mp hread] at hvalues
        exact hvalues
      · rw [PropertyObject.lstSubproperties,if_pos hgood,hnone] at hsubproperties
        exact imported_eq_nil.mp hsubproperties
    · rintro ⟨hnone,hvalues,hunnamed⟩
      refine ⟨?_,?_,rfl⟩
      · rw [PropertyObject.values]
        cases hread : (JSONNode.findValue document.elements).bind (valuesBeforeInvalid lib) with
        | none => rfl
        | some values =>
          obtain ⟨value,hvalue,hwritten⟩ := Option.bind_eq_some_iff.mp hread
          exact hvalues value hvalue values hwritten
      · rw [PropertyObject.lstSubproperties,hnone]
        split
        · exact imported_eq_nil.mpr (hunnamed ‹_›)
        · rfl

end

def cameraWithMode : ImportTarget where
  object := .mk 0 "camera" (.booleans false []) [] [.mk 0 "mode" (.strings "day" []) [7] []]
  call := 1
  older := by decide

def gainWithoutValue : JSONNode decimalNodes.Number :=
  .node "camera" [.scalar "Value" (.bool true),.node "gain" [.scalar "unit" (.string "dB")]]

/-- The import fails at the gain when the value is set and the mode is gone. -/
theorem failed_import_changes : ¬(isFailed (cameraWithMode.jsonToProperty decimalNodes gainWithoutValue).1 →
      cameraWithMode.object.Unchanged (cameraWithMode.jsonToProperty decimalNodes gainWithoutValue).2) := by
  intro h
  have hunchanged := h (by decide)
  exact absurd hunchanged.lstSubproperties (cons_ne_nil _ _).symm

end FepParticipant.PropertyTree
