import FepParticipant.Library.SplitTokens
import FepParticipant.PropertyTree.PropertyJSON
import FepParticipant.PropertyTree.PropertyStore
import Std.Data.String.ToInt

/-! The configuration service, which hands out the values of properties as text and takes them back, and the
conversions of typed properties. -/
namespace FepParticipant.PropertyTree
open Library List

/-- The conversions of `a_util::strings`. -/
structure StringConversions where
  boolToString : Bool → String
  toBool : String → Bool
  int32ToString : Int32 → String
  toInt32 : String → Int32
  doubleToString : Binary64 → String
  toDouble : String → Binary64

/-- A text without a semicolon that is not empty. -/
def IsElement (text : String) : Prop := IsToken ';' text.toList

instance (text : String) : Decidable (IsElement text) := inferInstanceAs (Decidable (IsToken _ _))

/-- Truth values and integers are read back from their texts, which are words and decimal numbers. -/
structure StringConversions.Standard (strings : StringConversions) : Prop where
  toBool_boolToString (value : Bool) : strings.toBool (strings.boolToString value) = value
  toInt32_int32ToString (value : Int32) : strings.toInt32 (strings.int32ToString value) = value
  word (value : Bool) : IsElement (strings.boolToString value)
  number (value : Int32) : IsElement (strings.int32ToString value)

/-- `split` with the semicolon, which drops empty tokens. -/
def splitElements (text : String) : List String := (tokens ';' text.toList).map String.ofList

/-- `PropertyType<T>::getTypeName`. -/
def typeName : ValueType → String
  | .boolean => "bool"
  | .integer => "int"
  | .float => "double"
  | .string => "string"

/-- `PropertyType<std::vector<T>>::getTypeName`. -/
def vectorTypeName : ValueType → String
  | .boolean => "array-bool"
  | .integer => "array-int"
  | .float => "array-double"
  | .string => "array-string"

/-- The loops that put a semicolon in front of every element but the first. -/
def joinElements (elements : List String) : String :=
  (elements.foldl (fun (first,text) element => (false,(if first then text else text ++ ";") ++ element)) (true,"")).2

namespace Values

def type : Values → ValueType
  | strings _ _ => .string
  | floats _ _ => .float
  | integers _ _ => .integer
  | booleans _ _ => .boolean

/-- The text of each element. -/
def elements (strings : StringConversions) : Values → List String
  | booleans front rest => (front::rest).map strings.boolToString
  | floats front rest => (front::rest).map strings.doubleToString
  | integers front rest => (front::rest).map strings.int32ToString
  | .strings front rest => front::rest

def getValueAsString (strings : StringConversions) (values : Values) : String :=
  if values.isArray then joinElements (values.elements strings)
  else
    match values with
    | booleans front _ => strings.boolToString front
    | floats front _ => strings.doubleToString front
    | integers front _ => strings.int32ToString front
    | .strings front _ => front

def getTypeAsString (values : Values) : String := (if values.isArray then "array-" else "") ++ typeName values.type

end Values

def StringConversions.variant (strings : StringConversions) (text : String) : ValueType → Variant
  | .boolean => .boolean (strings.toBool text)
  | .integer => .integer (strings.toInt32 text)
  | .float => .float (strings.toDouble text)
  | .string => .string text

def typeNamed (names : ValueType → String) (name : String) : Option ValueType :=
  [ValueType.boolean,.integer,.float,.string].find? fun type => name == names type

/-- An element of an array. The first one is set, the others are appended. -/
def resetElement (strings : StringConversions) (type : String) :
    Bool × Bool × Values → String → Bool × Bool × Values
  | (first,valueset,values), current_val =>
    match typeNamed vectorTypeName type with
    | some type =>
      let variant := strings.variant current_val type
      (false,true,if first then values.setValue variant else (values.appendValue variant).2)
    | none => (false,valueset,values)

/-- `resetProperty`, with whether a value was set. -/
def resetProperty (strings : StringConversions) (values : Values) (value type : String) : Bool × Values :=
  if 6 < type.toList.length ∧ type.toList.take 6 = "array-".toList then
    ((splitElements value).foldl (resetElement strings type) (true,false,values)).2
  else
    match typeNamed typeName type with
    | some type => (true,values.setValue (strings.variant value type))
    | none => (false,values)

/-- The results of `setProperty`. -/
inductive SetPropertyResult where
  | ok
  | errAccessDenied
  | errInvalidType
  | errInvalidAddress

namespace RPCConfigServer

def normalizePathForTree (internal_property_path : String) : String :=
  let path :=
    if internal_property_path = "/" ∨ internal_property_path = "" then []
    else
      match internal_property_path.toList with
      | '/' :: path => path
      | path => path
  String.ofList (path.map fun c => if c = '/' then '.' else c)

/-- `getProperty`, with the value and the type. -/
def getProperty (strings : StringConversions) (root : Property) (property_path : String) : String × String :=
  if property_path = "" ∨ property_path = "/" then (strings.boolToString true,typeName .boolean)
  else
    match root.getSubproperty (pathNames (normalizePathForTree property_path)) with
    | some prop => (prop.values.getValueAsString strings,prop.values.getTypeAsString)
    | none => ("","")

def setProperty (strings : StringConversions) (root : Property) (property_path type value : String) :
    SetPropertyResult × Property :=
  if property_path = "" ∨ property_path = "/" then (.errAccessDenied,root)
  else
    let names := pathNames (normalizePathForTree property_path)
    match root.getSubproperty names with
    | some prop =>
      (if (resetProperty strings prop.values value type).1 then .ok else .errInvalidType,
        root.updateAt names fun prop => prop.setValues (resetProperty strings prop.values value type).2)
    | none => (.errInvalidAddress,root)

def setWhatIsGot (strings : StringConversions) (root : Property) (property_path : String) :
    SetPropertyResult × Property :=
  match getProperty strings root property_path with
  | (value,type) => setProperty strings root property_path type value

end RPCConfigServer

namespace VectorConversion

/-- `DefaultPropertyTypeConversion<std::vector<bool>>`, like those of the other vectors. -/
def toStringBool (strings : StringConversions) (value : List Bool) : String :=
  joinElements (value.map strings.boolToString)

def fromStringBool (strings : StringConversions) (value : String) : List Bool :=
  (splitElements value).map strings.toBool

def toStringInt32 (strings : StringConversions) (value : List Int32) : String :=
  joinElements (value.map strings.int32ToString)

def fromStringInt32 (strings : StringConversions) (value : String) : List Int32 :=
  (splitElements value).map strings.toInt32

/-- `join` with the semicolon. -/
def toStringString (value : List String) : String := String.ofList ([';'].intercalate (value.map String.toList))

def fromStringString (value : String) : List String := splitElements value

end VectorConversion

section
variable {strings : StringConversions} {elements : List String} {values : Values} {type : ValueType}

private theorem intercalate_append (before piece : List Char) (pieces : List (List Char)) :
    [';'].intercalate ((before ++ piece)::pieces) = before ++ [';'].intercalate (piece::pieces) := by
  cases pieces with
  | nil => simp
  | cons next pieces => simp [intercalate_cons_cons]

theorem joinElements_eq : joinElements elements = String.ofList ([';'].intercalate (elements.map String.toList)) := by
  have hrest (text : String) (rest : List String) :
      (rest.foldl (fun (first,text) element =>
          (false,(if first then text else text ++ ";") ++ element)) (false,text)).2 =
        String.ofList ([';'].intercalate (text.toList::rest.map String.toList)) := by
    induction rest generalizing text with
    | nil => simp
    | cons element rest ih =>
      rw [foldl_cons,ih,map_cons,intercalate_cons_cons,← intercalate_append]
      simp
  cases elements with
  | nil => rfl
  | cons first rest =>
    rw [joinElements,foldl_cons,hrest,map_cons]
    simp

theorem splitElements_joinElements_iff :
    splitElements (joinElements elements) = elements ↔ ∀ element ∈ elements, IsElement element := by
  have hmap : splitElements (joinElements elements) = elements ↔
      tokens ';' ([';'].intercalate (elements.map String.toList)) = elements.map String.toList := by
    rw [joinElements_eq,splitElements,String.toList_ofList]
    constructor
    · intro h
      have hlist := congrArg (List.map String.toList) h
      simpa using hlist
    · intro h
      rw [h,map_map]
      simp
  rw [hmap,tokens_intercalate_iff,forall_mem_map]
  rfl

theorem splitElements_joinElements_eq_nil :
    splitElements (joinElements elements) = [] ↔ ∀ element ∈ elements, ∀ c ∈ element.toList, c = ';' := by
  rw [joinElements_eq,splitElements,String.toList_ofList,map_eq_nil_iff,tokens_eq_nil_iff,
    forall_mem_intercalate_iff,forall_mem_map]

theorem resetProperty_array (value : String) : resetProperty strings values value (vectorTypeName type) =
    match splitElements value with
    | [] => (false,values)
    | first::rest => (true,rest.foldl (fun values text => (values.appendValue (strings.variant text type)).2)
        (values.setValue (strings.variant first type))) := by
  have harray : 6 < (vectorTypeName type).toList.length ∧ (vectorTypeName type).toList.take 6 = "array-".toList := by
    cases type <;> decide
  have helement (first valueset : Bool) (values : Values) (text : String) :
      resetElement strings (vectorTypeName type) (first,valueset,values) text =
        (false,true,if first then values.setValue (strings.variant text type)
          else (values.appendValue (strings.variant text type)).2) := by
    have htype : typeNamed vectorTypeName (vectorTypeName type) = some type := by cases type <;> decide
    rw [resetElement,htype]
  have hrest (values : Values) (rest : List String) :
      rest.foldl (resetElement strings (vectorTypeName type)) (false,true,values) =
        (false,true,rest.foldl (fun values text => (values.appendValue (strings.variant text type)).2) values) := by
    induction rest generalizing values with
    | nil => rfl
    | cons text rest ih => rw [foldl_cons,foldl_cons,helement,if_neg Bool.false_ne_true,ih]
  rw [resetProperty,if_pos harray]
  cases splitElements value with
  | nil => rfl
  | cons first rest => rw [foldl_cons,helement,if_pos rfl,hrest]

private theorem resetProperty_single (value : String) :
    resetProperty strings values value (typeName type) = (true,values.setValue (strings.variant value type)) := by
  have hsingle : ¬(6 < (typeName type).toList.length ∧ (typeName type).toList.take 6 = "array-".toList) := by
    cases type <;> decide
  have htype : typeNamed typeName (typeName type) = some type := by cases type <;> decide
  rw [resetProperty,if_neg hsingle,htype]

theorem getTypeAsString_eq : values.getTypeAsString =
    if values.isArray then vectorTypeName values.type else typeName values.type := by
  rw [Values.getTypeAsString]
  split
  · cases values <;> rfl
  · cases values <;> rfl

/-- The text of the values can be told apart: the strings of an array are not empty and have no semicolon, unless
they are made of semicolons only, when nothing is set. -/
def Values.Separable : Values → Prop
  | .strings _ [] => True
  | .strings front rest => (∀ element ∈ front::rest, IsElement element) ∨
      ∀ element ∈ front::rest, ∀ c ∈ element.toList, c = ';'
  | _ => True

theorem reset_single (hsingle : values.isArray = false) :
    (resetProperty strings values (values.getValueAsString strings) values.getTypeAsString).2 =
      values.setValue (strings.variant (values.getValueAsString strings) values.type) := by
  rw [getTypeAsString_eq,if_neg (Bool.not_eq_true _ ▸ hsingle),resetProperty_single]

theorem reset_array (harray : values.isArray = true) {first : String} {rest : List String}
    (hsplit : splitElements (joinElements (values.elements strings)) = first::rest) :
    (resetProperty strings values (values.getValueAsString strings) values.getTypeAsString).2 =
      rest.foldl (fun read text => (read.appendValue (strings.variant text values.type)).2)
        (values.setValue (strings.variant first values.type)) := by
  rw [getTypeAsString_eq,if_pos harray,resetProperty_array,Values.getValueAsString.eq_def,if_pos harray,hsplit]

theorem reset_vector {α : Type} (wrap : α → List α → Values) (ofText : String → α)
    (hset : ∀ values text, Values.setValue values (strings.variant text type) = wrap (ofText text) [])
    (happend : ∀ front rest text, ((wrap front rest).appendValue (strings.variant text type)).2 =
      wrap front (rest ++ [ofText text])) (first : String) (rest : List String) :
    rest.foldl (fun read text => (read.appendValue (strings.variant text type)).2)
      (values.setValue (strings.variant first type)) = wrap (ofText first) (rest.map ofText) := by
  rw [hset,Values.foldl_appendValue (strings.variant · type) (wrap (ofText first)) ofText (happend (ofText first)),
    nil_append]

private theorem reset_standard {α : Type} {wrap : α → List α → Values} {toText : α → String} {ofText : String → α}
    (hround : ∀ value, ofText (toText value) = value) (helement : ∀ value, IsElement (toText value))
    (hset : ∀ values text, Values.setValue values (strings.variant text type) = wrap (ofText text) [])
    (happend : ∀ front rest text, ((wrap front rest).appendValue (strings.variant text type)).2 =
      wrap front (rest ++ [ofText text])) {front : α} {rest : List α} (htype : (wrap front rest).type = type)
    (harray : (wrap front rest).isArray = decide (rest ≠ []))
    (helements : (wrap front rest).elements strings = (front::rest).map toText)
    (hsingle : rest = [] → (wrap front rest).getValueAsString strings = toText front) :
    (resetProperty strings (wrap front rest) ((wrap front rest).getValueAsString strings)
      (wrap front rest).getTypeAsString).2 = wrap front rest := by
  cases rest with
  | nil => rw [reset_single (by simpa using harray),hsingle rfl,htype,hset,hround]
  | cons second rest =>
    have hsplit : splitElements (joinElements ((wrap front (second::rest)).elements strings)) =
        toText front::(second::rest).map toText := by
      rw [helements]
      exact splitElements_joinElements_iff.mpr (forall_mem_map.mpr fun value _ => helement value)
    rw [reset_array (by simpa using harray) hsplit,htype,reset_vector wrap ofText hset happend,hround,map_map]
    exact congrArg (wrap front) ((map_congr_left fun value _ => hround value).trans (map_id _))

theorem resetProperty_getValue_iff (hstandard : strings.Standard) (hfloat : values.type ≠ .float) :
    (resetProperty strings values (values.getValueAsString strings) values.getTypeAsString).2 = values ↔
      values.Separable := by
  cases values with
  | floats front rest => exact absurd rfl hfloat
  | booleans front rest =>
    refine iff_of_true ?_ trivial
    exact reset_standard hstandard.toBool_boolToString hstandard.word (fun _ _ => rfl) (fun _ _ _ => rfl) rfl
      (by cases rest <;> rfl) rfl (by rintro rfl; rfl)
  | integers front rest =>
    refine iff_of_true ?_ trivial
    exact reset_standard hstandard.toInt32_int32ToString hstandard.number (fun _ _ => rfl) (fun _ _ _ => rfl)
      rfl (by cases rest <;> rfl) rfl (by rintro rfl; rfl)
  | strings front rest =>
    cases rest with
    | nil =>
      have hsingle : (Values.strings front []).isArray = false := rfl
      refine iff_of_true ?_ trivial
      rw [reset_single hsingle]
      rfl
    | cons second rest =>
      have harray : (Values.strings front (second::rest)).isArray = true := rfl
      have helements : (Values.strings front (second::rest)).elements strings = front::second::rest := rfl
      cases hsplit : splitElements (joinElements (front::second::rest)) with
      | nil =>
        refine iff_of_true ?_ (.inr (splitElements_joinElements_eq_nil.mp hsplit))
        rw [getTypeAsString_eq,if_pos harray,resetProperty_array,Values.getValueAsString.eq_def,if_pos harray,
          helements,hsplit]
      | cons first others =>
        have hset : (resetProperty strings (.strings front (second::rest))
            ((Values.strings front (second::rest)).getValueAsString strings)
            (Values.strings front (second::rest)).getTypeAsString).2 = .strings first others := by
          rw [reset_array harray (helements ▸ hsplit)]
          exact (reset_vector .strings id (fun _ _ => rfl) (fun _ _ _ => rfl) first others).trans
            (congrArg (Values.strings first) (map_id _))
        have hseparable : (Values.strings front (second::rest)).Separable ↔
            ∀ element ∈ front::second::rest, IsElement element := by
          refine or_iff_left fun hempty => ?_
          rw [splitElements_joinElements_eq_nil.mpr hempty] at hsplit
          cases hsplit
        rw [hset,hseparable,← splitElements_joinElements_iff,hsplit,Values.strings.injEq,List.cons.injEq]

end

def IsRootPath (property_path : String) : Prop := property_path = "" ∨ property_path = "/"

namespace RPCConfigServer

variable {strings : StringConversions} {root : Property} {property_path : String} {names : List String}

theorem setWhatIsGot_root (hpath : IsRootPath property_path) : (setWhatIsGot strings root property_path).2 = root := by
  rw [IsRootPath] at hpath
  rw [setWhatIsGot,getProperty,if_pos hpath]
  dsimp only
  rw [setProperty,if_pos hpath]

theorem content_setWhatIsGot (hpath : ¬IsRootPath property_path)
    (hnames : pathNames (normalizePathForTree property_path) = names) :
    (setWhatIsGot strings root property_path).2.content names = (root.content names).map fun values =>
      (resetProperty strings values (values.getValueAsString strings) values.getTypeAsString).2 := by
  rw [IsRootPath] at hpath
  rw [setWhatIsGot,getProperty,if_neg hpath,hnames]
  cases hfound : root.getSubproperty names with
  | none =>
    dsimp only
    rw [setProperty,if_neg hpath,hnames]
    dsimp only
    rw [hfound,Property.content,hfound]
    rfl
  | some prop =>
    dsimp only
    rw [setProperty,if_neg hpath,hnames]
    dsimp only
    rw [hfound,Property.content,Property.getSubproperty_updateAt_setValues,Property.content,hfound]
    rfl

end RPCConfigServer

private theorem type_ne_float {values : Values} (h : ∀ front rest, values ≠ .floats front rest) :
    values.type ≠ .float := by
  cases values with
  | floats front rest => exact absurd rfl (h front rest)
  | strings front rest => exact nofun
  | integers front rest => exact nofun
  | booleans front rest => exact nofun

open RPCConfigServer in
/-- A property still has its values when what was got for it is set, and the vectors are read back, for the strings
that `IsElement` and `Separable` tell. -/
theorem typed_round_trip_iff (strings : StringConversions) (hstandard : strings.Standard) :
    (∀ (root : Property) (property_path : String) (names : List String),
      pathNames (normalizePathForTree property_path) = names →
      (∀ front rest, root.content names ≠ some (.floats front rest)) →
        ((setWhatIsGot strings root property_path).2.content names = root.content names ↔
          IsRootPath property_path ∨ ∀ values, root.content names = some values → values.Separable)) ∧
    (∀ vector, VectorConversion.fromStringBool strings (VectorConversion.toStringBool strings vector) = vector) ∧
    (∀ vector, VectorConversion.fromStringInt32 strings (VectorConversion.toStringInt32 strings vector) = vector) ∧
    ∀ vector, VectorConversion.fromStringString (VectorConversion.toStringString vector) = vector ↔
      ∀ element ∈ vector, IsElement element := by
  refine ⟨fun root property_path names hnames hfloat => ?_,fun vector => ?_,fun vector => ?_,fun vector => ?_⟩
  · by_cases hpath : IsRootPath property_path
    · exact iff_of_true (by rw [setWhatIsGot_root hpath]) (.inl hpath)
    · rw [content_setWhatIsGot hpath hnames,or_iff_right hpath]
      cases hcontent : root.content names with
      | none => exact iff_of_true rfl fun values hvalues => absurd hvalues (Option.some_ne_none values).symm
      | some values =>
        have htype : values.type ≠ .float :=
          type_ne_float fun front rest hvalues => hfloat front rest (hvalues ▸ hcontent)
        rw [Option.map_some,Option.some_inj,resetProperty_getValue_iff hstandard htype]
        exact ⟨fun h values' hvalues => Option.some.inj hvalues ▸ h,fun h => h values rfl⟩
  · rw [VectorConversion.toStringBool,VectorConversion.fromStringBool,
      splitElements_joinElements_iff.mpr (forall_mem_map.mpr fun value _ => hstandard.word value),map_map]
    exact (map_congr_left fun value _ => hstandard.toBool_boolToString value).trans (map_id _)
  · rw [VectorConversion.toStringInt32,VectorConversion.fromStringInt32,
      splitElements_joinElements_iff.mpr (forall_mem_map.mpr fun value _ => hstandard.number value),map_map]
    exact (map_congr_left fun value _ => hstandard.toInt32_int32ToString value).trans (map_id _)
  · rw [VectorConversion.toStringString,VectorConversion.fromStringString,← joinElements_eq]
    exact splitElements_joinElements_iff

/-- Truth values as words and numbers as their decimal text. -/
def spelledStrings : StringConversions where
  boolToString value := if value then "true" else "false"
  toBool text := text == "true"
  int32ToString value := toString value.toInt
  toInt32 text := Int32.ofInt (text.toInt?.getD 0)
  doubleToString := decimalText
  toDouble text := Binary64.ofInt32 (Int32.ofInt (text.toInt?.getD 0))

private theorem toInt?_toString (i : Int) : (toString i).toInt? = some i := by
  rw [Int.toString_eq_repr,Int.toInt?_repr]

theorem spelledStrings_standard : spelledStrings.Standard where
  toBool_boolToString value := by cases value <;> decide
  toInt32_int32ToString value := by
    change Int32.ofInt ((toString value.toInt).toInt?.getD 0) = value
    rw [toInt?_toString,Option.getD_some,Int32.ofInt_toInt]
  word value := by cases value <;> decide
  number value := by
    have htext : decimalText (.ofInt32 value) = toString value.toInt := by
      rw [Binary64.ofInt32,decimalText,if_pos (Rat.den_intCast _),Rat.num_intCast]
    refine ⟨fun hempty => ?_,fun hmem => ?_⟩
    · have hempty' : toString value.toInt = "" := String.toList_inj.mp hempty
      rw [Int.toString_eq_repr,Int.repr_eq_if] at hempty'
      split at hempty'
      · exact Nat.repr_ne_empty hempty'
      · exact Nat.repr_ne_empty (String.append_eq_empty_iff.mp hempty').2
    · change ';' ∈ (toString value.toInt).toList at hmem
      rw [← htext] at hmem
      rcases mem_decimalText_finite hmem with h | h | h <;> revert h <;> decide

/-- Two names below the root. -/
def namesTree : Property := .mk "" (.strings "" []) [.mk "Names" (.strings "left" ["right"]) []]

theorem names_set_again : (RPCConfigServer.setWhatIsGot spelledStrings namesTree "/Names").2.content ["Names"] =
    namesTree.content ["Names"] := by
  refine ((typed_round_trip_iff spelledStrings spelledStrings_standard).1 namesTree "/Names" ["Names"] (by decide)
    (fun front rest h => ?_)).mpr (.inr fun values hvalues => ?_)
  · cases h
  · cases hvalues
    exact .inl (by decide)

/-- An element with a semicolon becomes two elements. -/
theorem element_split : ¬∀ (strings : StringConversions), strings.Standard →
    (∀ (root : Property) (property_path : String) (names : List String),
      pathNames (RPCConfigServer.normalizePathForTree property_path) = names →
      (∀ front rest, root.content names ≠ some (.floats front rest)) →
        (RPCConfigServer.setWhatIsGot strings root property_path).2.content names = root.content names) ∧
    (∀ vector, VectorConversion.fromStringBool strings (VectorConversion.toStringBool strings vector) = vector) ∧
    (∀ vector, VectorConversion.fromStringInt32 strings (VectorConversion.toStringInt32 strings vector) = vector) ∧
    ∀ vector, VectorConversion.fromStringString (VectorConversion.toStringString vector) = vector := by
  intro h
  have hvector := (h spelledStrings spelledStrings_standard).2.2.2 ["left;right"]
  have helement := (@splitElements_joinElements_iff ["left;right"]).mp (by rw [joinElements_eq]; exact hvector)
  revert helement
  decide

end FepParticipant.PropertyTree
