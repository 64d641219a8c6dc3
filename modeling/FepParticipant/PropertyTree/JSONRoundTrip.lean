import FepParticipant.PropertyTree.PropertyJSON

/-! What is read back from the JSON form of a property. An integral floating point value has no point in its text
and is read as an integer, so that an array of doubles takes its type from its first value. -/
namespace FepParticipant.PropertyTree
open List

open Library (Binary64)

section
variable (lib : NumberNodes) {α β : Type} (scalar : α → JSONScalar lib.Number) (variant : α → Variant)
  (wrap : List β → Values) (converted : α → β) {elementType : JSONType}

section
variable (hread : ∀ value, readScalar lib (scalar value) = some (variant value))
include hread

section
variable (htype : ∀ value, (JSONNode.scalar "" (scalar value)).type = elementType)
include htype

private theorem appendElements_map (values : Values) (rest : List α) :
    appendElements lib elementType values (rest.map fun value => .scalar "" (scalar value)) =
      (.errNoError,rest.foldl (fun read value => (read.appendValue (variant value)).2) values) := by
  induction rest generalizing values with
  | nil => rfl
  | cons value rest ih =>
    rw [map_cons,appendElements,if_neg (not_not_intro (htype value)),hread value]
    exact ih _

theorem jsonToValues_valueNode (hscalar : elementType = .string ∨ elementType = .number ∨ elementType = .bool)
    (happend : ∀ rest value, ((wrap rest).appendValue (variant value)).2 = wrap (rest ++ [converted value]))
    (values : Values) {front : α} (hfront : values.setValue (variant front) = wrap []) (rest : List α) :
    jsonToValues lib values (valueNode lib scalar front rest) = (.errNoError,wrap (rest.map converted)) := by
  have hfirst (name : String) : deserializeFirstValue lib values (.scalar name (scalar front)) =
      (.errNoError,wrap []) := by
    rw [deserializeFirstValue,hread front,← hfront]
  cases rest with
  | nil => exact hfirst "Value"
  | cons second rest =>
    have helements := appendElements_map lib scalar variant hread htype (wrap []) (second::rest)
    have hallowed : ¬ (elementType ≠ .string ∧ elementType ≠ .number ∧ elementType ≠ .bool) := by
      rintro ⟨hstring,hnumber,hbool⟩
      rcases hscalar with h | h | h
      · exact hstring h
      · exact hnumber h
      · exact hbool h
    rw [Values.foldl_appendValue variant wrap converted happend,nil_append,map_cons] at helements
    rw [valueNode,map_cons,map_cons,jsonToValues,htype front,if_neg hallowed,hfirst]
    · exact helements
    · exact cons_ne_nil _ _
    · exact cons_ne_nil _ _

end

end

end

section
variable (lib : NumberNodes)

def readInteger (value : Binary64) : Int32 := Int32.ofInt (lib.asInt (lib.ofFloat value))

/-- A double behind a first one that is not an integer. -/
def readAsFloat (value : Binary64) : Binary64 :=
  if value.integer? = none then value else .ofInt32 (readInteger lib value)

/-- A double behind a first one that is an integer. -/
def readAsInteger (value : Binary64) : Int32 := if value.integer? = none then value.toInt32 else readInteger lib value

def Values.readBack : Values → Values
  | floats front rest =>
    if front.integer? = none then floats front (rest.map (readAsFloat lib))
    else integers (readInteger lib front) (rest.map (readAsInteger lib))
  | values => values

/-- Doubles of which the first is not an integer, and which hold no integer that does not fit in 32 bits. -/
def Values.Recoverable : Values → Prop
  | floats front rest =>
    front.integer? = none ∧ ∀ value ∈ rest, ∀ i, value.integer? = some i → -2 ^ 31 ≤ i ∧ i < 2 ^ 31
  | _ => True

mutual
def Property.readBack : Property → Property
  | .mk name values subproperties => .mk name (values.readBack lib) (readBackBelow subproperties)

def readBackBelow : List Property → List Property
  | [] => []
  | property::properties => property.readBack::readBackBelow properties
end

theorem readBackBelow_eq_map (properties : List Property) :
    readBackBelow lib properties = properties.map (Property.readBack lib) := by
  induction properties with
  | nil => rfl
  | cons property properties ih => rw [readBackBelow,ih,map_cons]

theorem subpropertiesToJSON_eq_map (properties : List Property) :
    subpropertiesToJSON lib properties = properties.map (propertyToJSON lib) := by
  induction properties with
  | nil => rfl
  | cons property properties ih => rw [subpropertiesToJSON,ih,map_cons]

end

section
variable {lib : NumberNodes}
variable {values : Values}

section
variable (hlawful : lib.Lawful)
include hlawful

private theorem readNumber_ofFloat (value : Binary64) : readNumber lib (lib.ofFloat value) =
      if value.integer? = none then .float value else .integer (readInteger lib value) := by
  have hpoint := hlawful.point_iff (lib.ofFloat value)
  rw [hlawful.asFloat_ofFloat] at hpoint
  rw [readNumber,hlawful.asFloat_ofFloat]
  exact if_congr hpoint rfl rfl

private theorem readNumber_ofInt (value : Int32) : readNumber lib (lib.ofInt value) = .integer value := by
  have hinteger : (lib.asFloat (lib.ofInt value)).integer? = some value.toInt := by
    rw [hlawful.asFloat_ofInt,Binary64.integer?_ofInt32]
  have hpoint : '.' ∉ (lib.asString (lib.ofInt value)).toList := by
    rw [hlawful.point_iff,hinteger]
    exact Option.some_ne_none _
  rw [readNumber,if_neg hpoint,hlawful.asInt_eq _ value hinteger,Int32.ofInt_toInt]

theorem jsonToValues_valuesToJSON (target values : Values) :
    jsonToValues lib target (valuesToJSON lib values) = (.errNoError,values.readBack lib) := by
  cases values with
  | strings front rest =>
    have hread := jsonToValues_valueNode lib .string .string (.strings front) id
      (fun _ => rfl) (fun _ => rfl) (.inl rfl) (fun _ _ => rfl) target rfl rest
    rwa [map_id] at hread
  | floats front rest =>
    by_cases hfront : front.integer? = none
    · rw [Values.readBack,if_pos hfront]
      refine jsonToValues_valueNode lib (fun value => .number (lib.ofFloat value))
        (fun value => readNumber lib (lib.ofFloat value)) (.floats front) (readAsFloat lib)
        (fun _ => rfl) (fun _ => rfl) (.inr (.inl rfl)) ?_ target ?_ rest
      · intro read value
        rw [readNumber_ofFloat hlawful,readAsFloat]
        split <;> rfl
      · rw [readNumber_ofFloat hlawful,if_pos hfront,Values.setValue]
    · rw [Values.readBack,if_neg hfront]
      refine jsonToValues_valueNode lib (fun value => .number (lib.ofFloat value))
        (fun value => readNumber lib (lib.ofFloat value)) (.integers (readInteger lib front)) (readAsInteger lib)
        (fun _ => rfl) (fun _ => rfl) (.inr (.inl rfl)) ?_ target ?_ rest
      · intro read value
        rw [readNumber_ofFloat hlawful,readAsInteger]
        split <;> rfl
      · rw [readNumber_ofFloat hlawful,if_neg hfront,Values.setValue]
  | integers front rest =>
    have hread := jsonToValues_valueNode lib (fun value => .number (lib.ofInt value)) .integer
      (.integers front) id (fun value => congrArg some (readNumber_ofInt hlawful value)) (fun _ => rfl)
      (.inr (.inl rfl)) (fun _ _ => rfl) target rfl rest
    rwa [map_id] at hread
  | booleans front rest =>
    have hread := jsonToValues_valueNode lib .bool .boolean (.booleans front) id
      (fun _ => rfl) (fun _ => rfl) (.inr (.inr rfl)) (fun _ _ => rfl) target rfl rest
    rwa [map_id] at hread

theorem readAsFloat_eq_iff (value : Binary64) :
    readAsFloat lib value = value ↔ ∀ i, value.integer? = some i → -2 ^ 31 ≤ i ∧ i < 2 ^ 31 := by
  cases hvalue : value.integer? with
  | none => simp [readAsFloat,hvalue]
  | some i =>
    have hread : readAsFloat lib value = .ofInt32 (readInteger lib value) := if_neg (by simp [hvalue])
    rw [hread,eq_comm,Binary64.eq_ofInt32_iff,hvalue]
    constructor
    · rintro h j hj
      rw [Option.some.injEq] at h hj
      rw [← hj,h]
      exact ⟨Int32.le_toInt _,Int32.toInt_lt _⟩
    · intro h
      obtain ⟨hlow,hhigh⟩ := h i rfl
      have hi : (Int32.ofInt i).toInt = i := Int32.toInt_ofInt_of_le hlow hhigh
      have hint : lib.asInt (lib.ofFloat value) = (Int32.ofInt i).toInt := by
        apply hlawful.asInt_eq
        rw [hlawful.asFloat_ofFloat,hvalue,hi]
      rw [readInteger,hint,Int32.ofInt_toInt,hi]

end

theorem map_eq_self_iff {α : Type} {f : α → α} {list : List α} : list.map f = list ↔ ∀ a ∈ list, f a = a := by
  induction list with
  | nil => simp
  | cons a list ih => rw [map_cons,List.cons.injEq,forall_mem_cons,ih]

theorem Values.readBack_eq_iff (hlawful : lib.Lawful) (values : Values) :
    values.readBack lib = values ↔ values.Recoverable := by
  cases values with
  | strings front rest => exact iff_of_true rfl trivial
  | integers front rest => exact iff_of_true rfl trivial
  | booleans front rest => exact iff_of_true rfl trivial
  | floats front rest =>
    rw [readBack,Recoverable]
    by_cases hfront : front.integer? = none
    · rw [if_pos hfront,floats.injEq,map_eq_self_iff]
      simp only [readAsFloat_eq_iff hlawful,hfront,true_and]
    · rw [if_neg hfront]
      exact iff_of_false (fun h => nomatch h) (fun h => hfront h.1)

private theorem valueNode_cases {α : Type} (scalar : α → JSONScalar lib.Number) (front : α) (rest : List α) :
    (∃ value, valueNode lib scalar front rest = .scalar "Value" value) ∨
      ∃ elements, valueNode lib scalar front rest = .array "Value" elements := by
  cases rest with
  | nil => exact .inl ⟨_,rfl⟩
  | cons second rest => exact .inr ⟨_,rfl⟩

theorem valuesToJSON_cases : (∃ value, valuesToJSON lib values = .scalar "Value" value) ∨
      ∃ elements, valuesToJSON lib values = .array "Value" elements := by
  cases values with
  | strings front rest => exact valueNode_cases _ front rest
  | floats front rest => exact valueNode_cases (fun value => .number (lib.ofFloat value)) front rest
  | integers front rest => exact valueNode_cases (fun value => .number (lib.ofInt value)) front rest
  | booleans front rest => exact valueNode_cases _ front rest

theorem valuesToJSON_skipped (values : Values) :
    ¬ ((valuesToJSON lib values).size ≠ 0 ∧ (valuesToJSON lib values).type ≠ .array) := by
  rintro ⟨hsize,htype⟩
  rcases valuesToJSON_cases with ⟨value,hvalue⟩ | ⟨elements,helements⟩
  · rw [hvalue] at hsize
    exact hsize rfl
  · rw [helements] at htype
    exact htype rfl

theorem name_valuesToJSON : (valuesToJSON lib values).name = "Value" := by
  rcases valuesToJSON_cases with ⟨value,hvalue⟩ | ⟨elements,helements⟩
  · rw [hvalue]
    rfl
  · rw [helements]
    rfl

theorem readNameAndValues_valuesToJSON (hlawful : lib.Lawful) (target : Property) (name : String)
    (nodes : List (JSONNode lib.Number)) : readNameAndValues lib target name (valuesToJSON lib values::nodes) =
      (.errNoError,.mk name (values.readBack lib) []) := by
  have hnamed : target.clearSubproperties.setName name = (.errNoError,.mk name target.values []) :=
    if_neg fun h => h.2 rfl
  have hfind : (valuesToJSON lib values::nodes).find? (fun child => decide (child.name = "Value")) =
      some (valuesToJSON lib values) :=
    find?_cons_of_pos (decide_eq_true (name_valuesToJSON))
  rw [readNameAndValues,hnamed]
  rw [hfind]
  dsimp only
  rw [jsonToValues_valuesToJSON hlawful]
  rfl

private theorem name_readBack (property : Property) : (property.readBack lib).name = property.name := by
  cases property
  rfl

private theorem readSubproperties_map {subproperties : List Property} (hread : ∀ sub ∈ subproperties, ∀ target,
      jsonToProperty lib target (propertyToJSON lib sub) = (.errNoError,sub.readBack lib))
    (hnames : ∀ sub ∈ subproperties, sub.name ≠ "") (name : String) (values : Values) (added : List Property) :
    readSubproperties lib (.mk name values added) (subproperties.map (propertyToJSON lib)) =
      (.errNoError,.mk name values (added ++ subproperties.map (Property.readBack lib))) := by
  induction subproperties generalizing added with
  | nil => simp [readSubproperties]
  | cons sub subproperties ih =>
    rw [forall_mem_cons] at hread hnames
    have hnode : (propertyToJSON lib sub).size ≠ 0 ∧ (propertyToJSON lib sub).type ≠ .array := by
      cases sub
      exact ⟨Nat.succ_ne_zero _,fun h => nomatch h⟩
    have hadd : ((Property.mk name values added).addSubproperty (sub.readBack lib)).2 =
        .mk name values (added ++ [sub.readBack lib]) := by
      rw [Property.addSubproperty,if_neg (by rw [name_readBack]; exact hnames.1)]
      rfl
    rw [map_cons,readSubproperties,if_pos hnode,hread.1]
    dsimp only
    rw [hadd,if_neg (by simp),ih hread.2 hnames.2]
    simp

theorem jsonToProperty_propertyToJSON (hlawful : lib.Lawful) (property : Property)
    (hnames : ∀ sub ∈ property.nodes, sub.name ≠ "") (target : Property) :
    jsonToProperty lib target (propertyToJSON lib property) = (.errNoError,property.readBack lib) := by
  induction property using Property.induction generalizing target with
  | mk name values subproperties ih =>
    have hbelow := (Property.forall_nodes_mk.mp hnames).2
    have hloop := readSubproperties_map (fun sub hsub => ih sub hsub (hbelow sub hsub))
      (fun sub hsub => hbelow sub hsub sub sub.mem_nodes_self) name (values.readBack lib) []
    rw [propertyToJSON,jsonToProperty,readNameAndValues_valuesToJSON hlawful,subpropertiesToJSON_eq_map]
    dsimp only
    rw [if_neg (by simp),readSubproperties,if_neg (valuesToJSON_skipped values),hloop,Property.readBack,
      readBackBelow_eq_map]
    rfl

private theorem Property.readBack_eq_iff (hlawful : lib.Lawful) (property : Property) :
    property.readBack lib = property ↔ ∀ sub ∈ property.nodes, sub.values.Recoverable := by
  induction property using Property.induction with
  | mk name values subproperties ih =>
    rw [readBack,readBackBelow_eq_map,Property.mk.injEq,map_eq_self_iff,Values.readBack_eq_iff hlawful,
      forall_nodes_mk]
    simp only [true_and]
    exact and_congr_right fun _ => forall₂_congr ih

/-- For every tree of named properties what is written is read if and only if in every property with doubles the
first is no integer and the integers among them fit in 32 bits. -/
theorem json_round_trip_iff (lib : NumberNodes) (hlawful : lib.Lawful) (property target : Property)
    (hnames : ∀ sub ∈ property.nodes, sub.name ≠ "") :
    jsonToProperty lib target (propertyToJSON lib property) = (.errNoError,property) ↔
      ∀ sub ∈ property.nodes, sub.values.Recoverable := by
  rw [jsonToProperty_propertyToJSON hlawful property hnames target,Prod.mk.injEq,Property.readBack_eq_iff hlawful]
  exact and_iff_right rfl

end

private theorem representable_half : FepParticipant.Library.Representable (5 / 2) :=
  ⟨5,-1,by norm_num,by norm_num,by norm_num,by norm_num⟩

/-- The double 2.5. -/
def twoAndHalf : Binary64 := .finite (5 / 2) representable_half

theorem integer?_twoAndHalf : twoAndHalf.integer? = none := by decide +kernel

/-- A property with the doubles 2.5, 3.0 below it. -/
def integralSecond : Property := .mk "motor" (.booleans true []) [.mk "gain" (.floats twoAndHalf [.ofInt32 3]) []]

/-- The array 2.5, 3.0 comes back. -/
theorem json_round_trip_recoverable :
    jsonToProperty decimalNodes (.create "" (.string "")) (propertyToJSON decimalNodes integralSecond) =
      (.errNoError,integralSecond) := by
  refine (json_round_trip_iff decimalNodes decimalNodes_lawful _ _ ?_).mpr ?_
  · simp [integralSecond,Property.nodes,Property.nodesBelow,Property.name]
  · simp [integralSecond,Property.nodes,Property.nodesBelow,Property.values,Values.Recoverable,integer?_twoAndHalf]

/-- The doubles 1.0, 2.5. -/
def integralFirst : Property := .mk "gain" (.floats (.ofInt32 1) [twoAndHalf]) []

/-- The array 1.0, 2.5 comes back as the integers 1, 2. -/
theorem json_round_trip_fails :
    jsonToProperty decimalNodes (.create "" (.string "")) (propertyToJSON decimalNodes integralFirst) =
        (.errNoError,.mk "gain" (.integers 1 [2]) []) ∧
      jsonToProperty decimalNodes (.create "" (.string "")) (propertyToJSON decimalNodes integralFirst) ≠
        (.errNoError,integralFirst) := by
  have hnames : ∀ sub ∈ integralFirst.nodes, sub.name ≠ "" := by
    simp [integralFirst,Property.nodes,Property.nodesBelow,Property.name]
  have htwo : twoAndHalf.toInt32 = 2 := by decide +kernel
  have hone : readInteger decimalNodes (.ofInt32 1) = 1 := by decide +kernel
  have hread : integralFirst.readBack decimalNodes = .mk "gain" (.integers 1 [2]) [] := by
    simp [integralFirst,Property.readBack,readBackBelow,Values.readBack,readAsInteger,integer?_twoAndHalf,
      htwo,hone]
  rw [jsonToProperty_propertyToJSON decimalNodes_lawful _ hnames,hread]
  exact ⟨rfl,by simp [integralFirst]⟩

end FepParticipant.PropertyTree
