import Mathlib.Tactic.NormNum

/-! The values of the IEEE 754 format binary64. The two zeros have one value. -/
namespace FepParticipant.Library

/-- A significand of 53 bits at an exponent of the format. -/
def Representable (value : ℚ) : Prop := ∃ m e : ℤ, m.natAbs < 2 ^ 53 ∧ -1074 ≤ e ∧ e ≤ 971 ∧ value = m * (2 : ℚ) ^ e

inductive Binary64 where
  | finite (value : ℚ) (representable : Representable value)
  | infinity (negative : Bool)
  | notANumber

namespace Binary64

/-- The integer a value is equal to. -/
def integer? : Binary64 → Option ℤ
  | finite value _ => if value.den = 1 then some value.num else none
  | infinity _ => none
  | notANumber => none

theorem representable_ofInt32 (n : Int32) : Representable n.toInt := by
  refine ⟨n.toInt,0,?_,by norm_num,by norm_num,by simp⟩
  have hlow := n.le_toInt
  have hhigh := n.toInt_lt
  omega

/-- A 32-bit integer is a value of the format. -/
def ofInt32 (n : Int32) : Binary64 := finite n.toInt (representable_ofInt32 n)

/-- Truncation towards zero. Outside the range of the type the result is the one of the x86 instruction. -/
def toInt32 : Binary64 → Int32
  | finite value _ =>
    let truncated := value.num.tdiv value.den
    if -2 ^ 31 ≤ truncated ∧ truncated < 2 ^ 31 then Int32.ofInt truncated else Int32.minValue
  | infinity _ => Int32.minValue
  | notANumber => Int32.minValue

/-- The operator `!=`, which tells a NaN from every value. -/
def differs : Binary64 → Binary64 → Bool
  | finite a _, finite b _ => a != b
  | infinity a, infinity b => a != b
  | _, _ => true

@[simp] theorem integer?_ofInt32 (n : Int32) : (ofInt32 n).integer? = some n.toInt := by
  simp [ofInt32,integer?]

private theorem integer?_finite_eq_some {value : ℚ} {representable : Representable value} {i : ℤ} :
    (finite value representable).integer? = some i ↔ value = i := by
  constructor
  · intro h
    by_cases hden : value.den = 1
    · rw [integer?,if_pos hden,Option.some.injEq] at h
      rw [← h,Rat.coe_int_num_of_den_eq_one hden]
    · rw [integer?,if_neg hden] at h
      cases h
  · rintro rfl
    simp [integer?]

/-- An integer is one value only. -/
private theorem eq_of_integer? {a b : Binary64} {i : ℤ} (ha : a.integer? = some i)
    (hb : b.integer? = some i) : a = b := by
  cases a with
  | finite u hu =>
    cases b with
    | finite v hv =>
      rw [integer?_finite_eq_some] at ha hb
      cases ha.trans hb.symm
      rfl
    | infinity negative => cases hb
    | notANumber => cases hb
  | infinity negative => cases ha
  | notANumber => cases ha

/-- The values of the 32-bit integers. -/
theorem eq_ofInt32_iff {a : Binary64} {n : Int32} : a = ofInt32 n ↔ a.integer? = some n.toInt := by
  constructor
  · rintro rfl
    exact integer?_ofInt32 n
  · intro h
    exact eq_of_integer? h (integer?_ofInt32 n)

end Binary64

end FepParticipant.Library
