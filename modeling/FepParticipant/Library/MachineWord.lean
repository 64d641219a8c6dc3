import Mathlib.Algebra.Ring.Int.Defs
import Mathlib.Algebra.Order.Ring.Nat

/-! Signed machine words: what a two's-complement word holds after an operation whose exact result may leave its range.
Unsigned numbers as bytes, the least significant first. -/
namespace FepParticipant.Library
open Int
variable {x : Int}

/-- The value of `x` in a signed word of `w` bits. -/
def signedWord (w : Nat) (x : Int) : Int := x.bmod (2 ^ w)

/-- Signed 64-bit arithmetic wraps around at `2 ^ 63`. -/
def wrap64 (x : Int) : Int := signedWord 64 x

/-- Signed 32-bit arithmetic wraps around at `2 ^ 31`. -/
def wrap32 (x : Int) : Int := signedWord 32 x

/-- What a signed 64-bit word can hold. -/
def Fits64 (x : Int) : Prop := -2 ^ 63 ≤ x ∧ x < 2 ^ 63

instance (x : Int) : Decidable (Fits64 x) := inferInstanceAs (Decidable (_ ∧ _))

theorem wrap64_of_range {x : Int} (hlo : -2 ^ 63 ≤ x) (hhi : x < 2 ^ 63) : wrap64 x = x := by
  exact bmod_eq_of_le (by omega) (by omega)

theorem wrap64_of_nonneg (h : 0 ≤ x) (hhi : x < 2 ^ 63) : wrap64 x = x := wrap64_of_range (by omega) hhi

theorem le_wrap64 (x : Int) : -2 ^ 63 ≤ wrap64 x := le_bmod (by omega)

theorem wrap64_lt (x : Int) : wrap64 x < 2 ^ 63 := bmod_lt (by omega)

theorem wrap32_lt (x : Int) : wrap32 x < 2 ^ 31 := bmod_lt (by omega)

theorem le_wrap32 (x : Int) : -2 ^ 31 ≤ wrap32 x := le_bmod (by omega)

/-- Nothing is lost exactly in the range of the word. -/
theorem wrap32_eq_self_iff {x : Int} : wrap32 x = x ↔ -2 ^ 31 ≤ x ∧ x < 2 ^ 31 := by
  constructor
  · intro h
    exact ⟨h ▸ le_wrap32 x,h ▸ wrap32_lt x⟩
  · rintro ⟨hlo,hhi⟩
    exact bmod_eq_of_le (by omega) (by omega)

theorem wrap32_wrap32_mul (x y : Int) : wrap32 (wrap32 x * y) = wrap32 (x * y) := by
  unfold wrap32 signedWord
  rw [bmod_mul_bmod]

/-- What 32 bits keep of a 64-bit number. -/
theorem wrap32_wrap64 (x : Int) : wrap32 (wrap64 x) = wrap32 x := by
  exact bmod_bmod_of_dvd (by decide)

/-- A word differs from what it holds by a multiple of its range. -/
theorem exists_wrap64_eq (x : Int) : ∃ k : Int, wrap64 x = x - 2 ^ 64 * k := by
  refine ⟨Int.bdiv x (2 ^ 64),?_⟩
  unfold wrap64 signedWord
  rw [bmod_eq_self_sub_mul_bdiv]
  rfl

theorem wrap64_add_wrap64 (x y : Int) : wrap64 (x + wrap64 y) = wrap64 (x + y) := by
  unfold wrap64 signedWord
  rw [add_comm,bmod_add_bmod,add_comm]

theorem wrap64_wrap64_add (x y : Int) : wrap64 (wrap64 x + y) = wrap64 (x + y) := by
  unfold wrap64 signedWord
  rw [bmod_add_bmod]

theorem wrap64_add_cancel_right {x y : Int} (z : Int) : wrap64 (x + z) = wrap64 (y + z) ↔ wrap64 x = wrap64 y :=
  bmod_add_cancel_right z

@[simp] theorem wrap64_zero : wrap64 0 = 0 := rfl

/-- The `width` lowest bytes of a number. -/
def littleEndian : Nat → Nat → List UInt8
  | 0, _ => []
  | width + 1, n => UInt8.ofNat n::littleEndian width (n / 256)

def ofLittleEndian : List UInt8 → Nat
  | [] => 0
  | byte::bytes => byte.toNat + 256 * ofLittleEndian bytes

@[simp] theorem length_littleEndian (width n : Nat) : (littleEndian width n).length = width := by
  induction width generalizing n with
  | zero => rfl
  | succ width ih => simp [littleEndian,ih]

private theorem ofLittleEndian_littleEndian (width n : Nat) :
    ofLittleEndian (littleEndian width n) = n % 256 ^ width := by
  induction width generalizing n with
  | zero => simp [littleEndian,ofLittleEndian,Nat.mod_one]
  | succ width ih =>
    have hbyte : (UInt8.ofNat n).toNat = n % 256 := by simp
    rw [littleEndian,ofLittleEndian,ih,hbyte,Nat.pow_succ',Nat.mod_mul]

theorem ofLittleEndian_littleEndian_of_lt {width n : Nat} (h : n < 256 ^ width) :
    ofLittleEndian (littleEndian width n) = n := by
  rw [ofLittleEndian_littleEndian,Nat.mod_eq_of_lt h]

/-- Read a field off the front. -/
def takeField (width : Nat) (bytes : List UInt8) : Nat × List UInt8 :=
  (ofLittleEndian (bytes.take width),bytes.drop width)

/-- A field that was written is read back, and what stands behind it is left. -/
theorem takeField_append {width n : Nat} (h : n < 256 ^ width) (rest : List UInt8) :
    takeField width (littleEndian width n ++ rest) = (n,rest) := by
  have hlength := length_littleEndian width n
  apply Prod.ext
  · rw [takeField,List.take_left' hlength,ofLittleEndian_littleEndian_of_lt h]
  · rw [takeField,List.drop_left' hlength]

end FepParticipant.Library
