import FepParticipant.PropertyTree.Property
import Mathlib.Algebra.Order.Field.Basic
import Mathlib.Data.Nat.Prime.Basic
import Mathlib.Tactic.FieldSimp
import Mathlib.Tactic.Ring

/-! The JSON form of a property: a node with its name whose first child, `Value`, holds the values and whose further
children are the subproperties. Number nodes with the exact decimal text of their value. -/
namespace FepParticipant.PropertyTree
open List Nat String
open Library (Binary64 Representable)

structure NumberNodes where
  Number : Type
  ofFloat : Binary64 → Number
  ofInt : Int32 → Number
  asString : Number → String
  asFloat : Number → Binary64
  asInt : Number → Int

/-- A number node keeps its value, and its text has a point if and only if the value is not an integer. -/
structure NumberNodes.Lawful (lib : NumberNodes) : Prop where
  asFloat_ofFloat : ∀ value, lib.asFloat (lib.ofFloat value) = value
  asFloat_ofInt : ∀ value, lib.asFloat (lib.ofInt value) = .ofInt32 value
  asInt_eq : ∀ number (value : Int32), (lib.asFloat number).integer? = some value.toInt →
    lib.asInt number = value.toInt
  point_iff : ∀ number, '.' ∈ (lib.asString number).toList ↔ (lib.asFloat number).integer? = none

inductive JSONType where
  | null
  | string
  | number
  | bool
  | array
  | node
  deriving DecidableEq

/-- The value of a node without children. -/
inductive JSONScalar (Number : Type) where
  | null
  | string (text : String)
  | number (number : Number)
  | bool (value : Bool)

/-- A node of the JSON library has a name, and a value or a list of children. -/
inductive JSONNode (Number : Type) where
  | scalar (name : String) (value : JSONScalar Number)
  | array (name : String) (elements : List (JSONNode Number))
  | node (name : String) (children : List (JSONNode Number))

namespace JSONNode

variable {Number : Type}

def name : JSONNode Number → String
  | scalar name _ => name
  | array name _ => name
  | node name _ => name

def type : JSONNode Number → JSONType
  | scalar _ .null => .null
  | scalar _ (.string _) => .string
  | scalar _ (.number _) => .number
  | scalar _ (.bool _) => .bool
  | array _ _ => .array
  | node _ _ => .node

def size : JSONNode Number → Nat
  | scalar _ _ => 0
  | array _ elements => elements.length
  | node _ children => children.length

end JSONNode

section
variable (lib : NumberNodes)

/-- The values as one node or, for an array, as a node with one nameless child for each of them. -/
def valueNode {α : Type} (scalar : α → JSONScalar lib.Number) (front : α) : List α → JSONNode lib.Number
  | [] => .scalar "Value" (scalar front)
  | rest => .array "Value" ((front::rest).map fun value => .scalar "" (scalar value))

/-- `ValuesToJSON`, which always succeeds. -/
def valuesToJSON : Values → JSONNode lib.Number
  | .strings front rest => valueNode lib .string front rest
  | .floats front rest => valueNode lib (fun value => .number (lib.ofFloat value)) front rest
  | .integers front rest => valueNode lib (fun value => .number (lib.ofInt value)) front rest
  | .booleans front rest => valueNode lib .bool front rest

mutual
/-- `PropertyToJSON` on a new node, which always succeeds. -/
def propertyToJSON : Property → JSONNode lib.Number
  | .mk name values subproperties => .node name (valuesToJSON lib values::subpropertiesToJSON subproperties)

def subpropertiesToJSON : List Property → List (JSONNode lib.Number)
  | [] => []
  | property::properties => propertyToJSON property::subpropertiesToJSON properties
end

/-- What is read from a number node: a floating point value if its text has a point, else an integer. -/
def readNumber (number : lib.Number) : Variant :=
  if '.' ∈ (lib.asString number).toList then .float (lib.asFloat number)
  else .integer (Int32.ofInt (lib.asInt number))

/-- What is read from a value node of the types string, number and bool. -/
def readScalar : JSONScalar lib.Number → Option Variant
  | .null => none
  | .string text => some (.string text)
  | .number number => some (readNumber lib number)
  | .bool value => some (.boolean value)

/-- `DeserializeFirstValue`. -/
def deserializeFirstValue (values : Values) : JSONNode lib.Number → Result × Values
  | .scalar _ scalar =>
    match readScalar lib scalar with
    | some value => (.errNoError,values.setValue value)
    | none => (.errInvalidType,values)
  | .array _ _ => (.errInvalidType,values)
  | .node _ _ => (.errInvalidType,values)

/-- The loop over the further elements, which all have the type of the first. The results of `AppendValue` are not
read. -/
def appendElements (elementType : JSONType) : Values → List (JSONNode lib.Number) → Result × Values
  | values, [] => (.errNoError,values)
  | values, element::elements =>
    if element.type ≠ elementType then (.errInvalidArg,values)
    else
      match element with
      | .scalar _ scalar =>
        match readScalar lib scalar with
        | some value => appendElements elementType (values.appendValue value).2 elements
        | none => appendElements elementType values elements
      | .array _ _ => appendElements elementType values elements
      | .node _ _ => appendElements elementType values elements

/-- `JSONToValues`. -/
def jsonToValues (values : Values) (node : JSONNode lib.Number) : Result × Values :=
  if node.name ≠ "Value" then (.errInvalidArg,values)
  else
    match node with
    | .array _ [] => (.errInvalidArg,values)
    | .array _ [_] => (.errInvalidArg,values)
    | .array _ (first::elements) =>
      if first.type ≠ .string ∧ first.type ≠ .number ∧ first.type ≠ .bool then (.errInvalidArg,values)
      else
        match deserializeFirstValue lib values first with
        | (res,read) => if isFailed res then (res,read) else appendElements lib first.type read elements
    | node => deserializeFirstValue lib values node

/-- `JSONToProperty` up to the loop over the subproperties. -/
def readNameAndValues (property : Property) (name : String) (children : List (JSONNode lib.Number)) :
    Result × Property :=
  match property.clearSubproperties.setName name with
  | (res,named) =>
    if isFailed res then (.errInvalidArg,named)
    else
      match children.find? fun child => decide (child.name = "Value") with
      | none => (.errInvalidArg,named)
      | some node =>
        match jsonToValues lib named.values node with
        | (res,values) => (res,named.setValues values)

mutual
/-- `JSONToProperty`. A scalar has no children. -/
def jsonToProperty : Property → JSONNode lib.Number → Result × Property
  | property, .scalar name _ => readNameAndValues lib property name []
  | property, .array name elements =>
    match readNameAndValues lib property name elements with
    | (res,read) => if isFailed res then (res,read) else readSubproperties read elements
  | property, .node name children =>
    match readNameAndValues lib property name children with
    | (res,read) => if isFailed res then (res,read) else readSubproperties read children

/-- The loop over the subproperties. A property without a name is not added, which the loop does not notice. -/
def readSubproperties : Property → List (JSONNode lib.Number) → Result × Property
  | property, [] => (.errNoError,property)
  | property, node::nodes =>
    if node.size ≠ 0 ∧ node.type ≠ .array then
      match jsonToProperty (.create "" (.string "")) node with
      | (res,subproperty) =>
        if isFailed res then (res,property)
        else readSubproperties (property.addSubproperty subproperty).2 nodes
    else readSubproperties property nodes
end

end

def decimalText : Binary64 → String
  | .finite value _ =>
    let whole := value.num.natAbs / value.den
    let fraction := value.num.natAbs % value.den * 10 ^ value.den.log2 / value.den
    if value.den = 1 then toString value.num
    else (if value < 0 then "-" else "") ++ toString whole ++ "." ++
      String.ofList (List.replicate (value.den.log2 - (toString fraction).length) '0') ++ toString fraction
  | .infinity negative => if negative then "-.inf" else ".inf"
  | .notANumber => ".nan"

def decimalNodes : NumberNodes where
  Number := Binary64
  ofFloat := id
  ofInt := .ofInt32
  asString := decimalText
  asFloat := id
  asInt value := value.integer?.getD 0

private theorem point_not_mem_repr (n : Nat) : '.' ∉ n.repr.toList := by
  intro h
  rw [toList_repr] at h
  have hdigit := isDigit_of_mem_toDigits (by decide) (by decide) h
  revert hdigit
  decide

private theorem point_not_mem_toString (i : Int) : '.' ∉ (toString i).toList := by
  rw [Int.toString_eq_repr,Int.repr_eq_if]
  split
  · exact point_not_mem_repr _
  · rw [toList_append,List.mem_append]
    rintro (h | h)
    · revert h
      decide
    · exact point_not_mem_repr _ h

private theorem point_mem_decimalText_iff (value : Binary64) : '.' ∈ (decimalText value).toList ↔
    value.integer? = none := by
  cases value with
  | finite value representable =>
    rw [decimalText,Binary64.integer?]
    by_cases hden : value.den = 1
    · rw [if_pos hden,if_pos hden]
      exact iff_of_false (point_not_mem_toString _) (Option.some_ne_none _)
    · rw [if_neg hden,if_neg hden]
      exact iff_of_true (by simp) rfl
  | infinity negative => exact iff_of_true (by cases negative <;> decide) rfl
  | notANumber => exact iff_of_true (by decide) rfl

theorem decimalNodes_lawful : decimalNodes.Lawful where
  asFloat_ofFloat _ := rfl
  asFloat_ofInt _ := rfl
  asInt_eq number value h := by
    change (Binary64.integer? number).getD 0 = value.toInt
    change (Binary64.integer? number) = some value.toInt at h
    rw [h]
    rfl
  point_iff := point_mem_decimalText_iff

variable {value : ℚ}

def textValue (text : List Char) : ℚ :=
  (if '-' ∈ text then -1 else 1) * Nat.ofDigitChars 10 (text.filter Char.isDigit) 0 /
    10 ^ ((text.dropWhile (· != '.')).length - 1)

theorem den_eq_two_pow (h : Representable value) : value.den = 2 ^ value.den.log2 := by
  obtain ⟨m,e,-,-,-,rfl⟩ := h
  have hdvd : ∃ j : ℕ, ((m : ℚ) * 2 ^ e).den ∣ 2 ^ j := by
    obtain ⟨j,rfl | rfl⟩ := e.eq_nat_or_neg
    · refine ⟨0,?_⟩
      have hint : (m : ℚ) * 2 ^ (j : ℤ) = ((m * 2 ^ j : ℤ) : ℚ) := by push_cast; rfl
      rw [hint,Rat.den_intCast]
      exact one_dvd _
    · refine ⟨j,?_⟩
      have hdiv : (m : ℚ) * 2 ^ (-(j : ℤ)) = Rat.divInt m ((2 ^ j : ℕ) : ℤ) := by
        rw [Rat.divInt_eq_div]
        push_cast
        rw [zpow_neg,zpow_natCast,div_eq_mul_inv]
      rw [hdiv]
      exact_mod_cast Rat.den_dvd m ((2 ^ j : ℕ) : ℤ)
  obtain ⟨j,hdvd⟩ := hdvd
  obtain ⟨i,-,hi⟩ := (dvd_prime_pow prime_two).mp hdvd
  rw [hi,log2_two_pow]

theorem isDigit_of_mem {n : Nat} {c : Char} (hc : c ∈ Nat.toDigits 10 n) : c.isDigit = true :=
  isDigit_of_mem_toDigits (by decide) (by decide) hc

theorem not_mem_of_isDigit {digits : List Char} (hdigits : ∀ c ∈ digits, c.isDigit = true) {c : Char}
    (hc : c.isDigit = false) : c ∉ digits := by
  intro hmem
  rw [hdigits c hmem] at hc
  cases hc

/-- The digits behind the point: as many as the denominator has binary digits. -/
def fractionDigits (value : ℚ) : List Char :=
  let digits := Nat.toDigits 10 (value.num.natAbs % value.den * 10 ^ value.den.log2 / value.den)
  List.replicate (value.den.log2 - digits.length) '0' ++ digits

theorem isDigit_of_mem_fractionDigits : ∀ c ∈ fractionDigits value, c.isDigit = true := by
  intro c hc
  rcases mem_append.mp hc with hzero | hdigit
  · rw [eq_of_mem_replicate hzero]
    decide
  · exact isDigit_of_mem hdigit

/-- A sign, the digits of the whole part, and a point with the further digits unless the value is an integer. -/
theorem toList_decimalText (representable : Representable value) : (decimalText (.finite value representable)).toList =
      (if value < 0 then ['-'] else []) ++ Nat.toDigits 10 (value.num.natAbs / value.den) ++
        if value.den = 1 then [] else '.' :: fractionDigits value := by
  rw [decimalText]
  by_cases hden : value.den = 1
  · rw [if_pos hden,if_pos hden,hden,Nat.div_one,append_nil,Int.toString_eq_repr,Int.repr_eq_if]
    by_cases hneg : value < 0
    · have hnum := Rat.num_neg.mpr hneg
      rw [if_neg (by omega),if_pos hneg,toList_append,toList_repr,
        show (-value.num).toNat = value.num.natAbs by omega]
      rfl
    · have hnum := Rat.num_nonneg.mpr (not_lt.mp hneg)
      rw [if_pos hnum,if_neg hneg,toList_repr,show value.num.toNat = value.num.natAbs by omega]
      rfl
  · rw [if_neg hden,if_neg hden]
    have hlength (n : Nat) : n.repr.length = (Nat.toDigits 10 n).length := by
      rw [← length_toList,toList_repr]
    simp only [toList_append,toList_ofList,toString_eq_repr,hlength,toList_repr,fractionDigits]
    split <;> simp

theorem textValue_digits {sign whole behind digits : List Char} (hsign : sign = [] ∨ sign = ['-'])
    (hwhole : ∀ c ∈ whole, c.isDigit = true) (hbehind : behind = [] ∧ digits = [] ∨ behind = '.' :: digits)
    (hdigits : ∀ c ∈ digits, c.isDigit = true) : textValue (sign ++ whole ++ behind) =
      (if sign = [] then 1 else -1) * Nat.ofDigitChars 10 (whole ++ digits) 0 / 10 ^ digits.length := by
  have hpoint : ∀ c ∈ sign ++ whole, (c != '.') = true := by
    intro c hc
    rw [bne_iff_ne]
    rintro rfl
    rcases mem_append.mp hc with h | h
    · rcases hsign with rfl | rfl
      · cases h
      · simp at h
    · exact not_mem_of_isDigit hwhole (by decide) h
  have hfilter : (sign ++ whole ++ behind).filter Char.isDigit = whole ++ digits := by
    have hnone : sign.filter Char.isDigit = [] := by rcases hsign with rfl | rfl <;> decide
    rw [filter_append,filter_append,hnone,filter_eq_self.mpr hwhole,nil_append]
    rcases hbehind with ⟨rfl,rfl⟩ | rfl
    · rfl
    · rw [filter_cons_of_neg (by decide),filter_eq_self.mpr hdigits]
  have hminus : '-' ∈ sign ++ whole ++ behind ↔ sign ≠ [] := by
    have hnotWhole := not_mem_of_isDigit hwhole (c := '-') (by decide)
    have hnotDigits := not_mem_of_isDigit hdigits (c := '-') (by decide)
    rcases hsign with rfl | rfl
    · rcases hbehind with ⟨rfl,rfl⟩ | rfl <;> simp [hnotWhole,hnotDigits]
    · simp
  have hlength : ((sign ++ whole ++ behind).dropWhile (· != '.')).length - 1 = digits.length := by
    rw [dropWhile_append_of_pos hpoint]
    rcases hbehind with ⟨rfl,rfl⟩ | rfl <;> simp
  rw [textValue,hfilter,hlength]
  simp only [hminus,ne_eq,ite_not]

theorem ofDigitChars_fractionDigits (representable : Representable value) (hden : value.den ≠ 1) :
    (fractionDigits value).length = value.den.log2 ∧
      (Nat.ofDigitChars 10 (Nat.toDigits 10 (value.num.natAbs / value.den) ++ fractionDigits value) 0 : ℚ) /
        10 ^ value.den.log2 = value.num.natAbs / value.den := by
  have hpow := den_eq_two_pow representable
  rw [fractionDigits]
  generalize value.den.log2 = k at hpow ⊢
  have hkpos : 0 < k := by
    refine pos_of_ne_zero fun hk => hden ?_
    rw [hpow,hk]
    rfl
  have hten : 10 ^ k = value.den * 5 ^ k := by rw [hpow,← Nat.mul_pow]
  have hfraction : value.num.natAbs % value.den * 10 ^ k / value.den = value.num.natAbs % value.den * 5 ^ k := by
    rw [hten,Nat.mul_left_comm,Nat.mul_div_cancel_left _ value.den_pos]
  have hlt : value.num.natAbs % value.den * 5 ^ k < 10 ^ k := by
    rw [hten]
    exact Nat.mul_lt_mul_of_pos_right (Nat.mod_lt _ value.den_pos) (Nat.pow_pos (by decide))
  have hlength := (length_toDigits_le_iff (by decide) hkpos).mpr hlt
  have hsum : value.num.natAbs = value.den * (value.num.natAbs / value.den) + value.num.natAbs % value.den :=
    (div_add_mod _ _).symm
  rw [hfraction]
  generalize value.num.natAbs % value.den = r at hlength hsum ⊢
  generalize value.num.natAbs / value.den = whole at hsum ⊢
  refine ⟨?_,?_⟩
  · rw [List.length_append,List.length_replicate]
    omega
  · rw [ofDigitChars_append,ofDigitChars_append,ofDigitChars_ten_toDigits,
      ofDigitChars_replicate_zero,ofDigitChars_eq_ofDigitChars_zero,ofDigitChars_ten_toDigits,
      ← Nat.mul_assoc,← Nat.pow_add,Nat.add_sub_cancel' hlength,hsum]
    have hten' : (10 : ℚ) ^ k = value.den * 5 ^ k := by exact_mod_cast hten
    push_cast
    rw [hten']
    field_simp

theorem textValue_decimalText (representable : Representable value) :
    textValue (decimalText (.finite value representable)).toList = value := by
  have hsign : (if value < 0 then ['-'] else [] : List Char) = [] ∨
      (if value < 0 then ['-'] else [] : List Char) = ['-'] := by split <;> simp
  have habs : (if (if value < 0 then ['-'] else [] : List Char) = [] then (1 : ℚ) else -1) *
      (value.num.natAbs / value.den) = value := by
    have hvalue : value = value.num / value.den := (Rat.num_div_den value).symm
    by_cases hneg : value < 0
    · have hnum : ((value.num.natAbs : ℤ) : ℚ) = -value.num := by
        rw [Int.ofNat_natAbs_of_nonpos (Rat.num_nonpos.mpr hneg.le)]
        push_cast
        rfl
      rw [if_pos hneg,if_neg (cons_ne_nil _ _),show (value.num.natAbs : ℚ) = -value.num from hnum]
      conv_rhs => rw [hvalue]
      ring
    · have hnum : ((value.num.natAbs : ℤ) : ℚ) = value.num := by
        rw [Int.natAbs_of_nonneg (Rat.num_nonneg.mpr (not_lt.mp hneg))]
      rw [if_neg hneg,if_pos rfl,one_mul,show (value.num.natAbs : ℚ) = value.num from hnum]
      exact hvalue.symm
  rw [toList_decimalText]
  by_cases hden : value.den = 1
  · rw [if_pos hden,textValue_digits hsign (fun _ => isDigit_of_mem) (.inl ⟨rfl,rfl⟩) (fun _ hc => by cases hc),
      append_nil,ofDigitChars_ten_toDigits,length_nil,pow_zero,div_one]
    rw [hden,cast_one,div_one] at habs
    rw [hden,Nat.div_one]
    exact habs
  · obtain ⟨hlength,hdigits⟩ := ofDigitChars_fractionDigits representable hden
    rw [if_neg hden,textValue_digits hsign (fun _ => isDigit_of_mem) (.inr rfl) isDigit_of_mem_fractionDigits,
      hlength,mul_div_assoc,hdigits]
    exact habs

theorem mem_decimalText_finite {representable : Representable value} {c : Char}
    (hc : c ∈ (decimalText (.finite value representable)).toList) : c.isDigit = true ∨ c = '-' ∨ c = '.' := by
  rw [toList_decimalText] at hc
  rcases mem_append.mp hc with hfront | hbehind
  · rcases mem_append.mp hfront with hsign | hwhole
    · split at hsign
      · exact .inr (.inl (mem_singleton.mp hsign))
      · cases hsign
    · exact .inl (isDigit_of_mem hwhole)
  · split at hbehind
    · cases hbehind
    · rcases mem_cons.mp hbehind with rfl | hdigit
      · exact .inr (.inr rfl)
      · exact .inl (isDigit_of_mem_fractionDigits c hdigit)

theorem decimalText_injective : Function.Injective decimalText := by
  have hfinite : ∀ {value : ℚ} (representable : Representable value),
      'n' ∉ (decimalText (.finite value representable)).toList := by
    intro value representable hmem
    rcases mem_decimalText_finite hmem with h | h | h
    · revert h
      decide
    · cases h
    · cases h
  intro a b h
  cases a with
  | finite value representable =>
    cases b with
    | finite other representable' =>
      have hvalue : value = other := by
        rw [← textValue_decimalText representable,← textValue_decimalText representable',h]
      subst hvalue
      rfl
    | infinity negative =>
      refine absurd ?_ (hfinite representable)
      rw [h]
      cases negative <;> decide
    | notANumber =>
      refine absurd ?_ (hfinite representable)
      rw [h]
      decide
  | infinity negative =>
    cases b with
    | finite other representable' =>
      refine absurd ?_ (hfinite representable')
      rw [← h]
      cases negative <;> decide
    | infinity other => cases negative <;> cases other <;> first | rfl | exact absurd h (by decide)
    | notANumber => cases negative <;> exact absurd h (by decide)
  | notANumber =>
    cases b with
    | finite other representable' =>
      refine absurd ?_ (hfinite representable')
      rw [← h]
      decide
    | infinity other => cases other <;> exact absurd h (by decide)
    | notANumber => rfl

end FepParticipant.PropertyTree
