import Mathlib.Algebra.GCDMonoid.Multiset
import Mathlib.Algebra.GCDMonoid.Nat
import Mathlib.Tactic.Ring

/-! The least common multiple and the greatest common divisor of the cycles in a list, and the slots of one period of a
cyclic table. -/
namespace FepParticipant.Library
open Int List
variable {l : List Int}

/-- Least common multiple of a list of cycles. -/
def commonMultiple (cycles : List Int) : Int := (cycles : Multiset Int).lcm

/-- Greatest common divisor of a list of cycles. -/
def commonDivisor (cycles : List Int) : Int := (cycles : Multiset Int).gcd

variable {cycles : List Int} {c : Int}

theorem dvd_commonMultiple (h : c ∈ cycles) : c ∣ commonMultiple cycles := Multiset.dvd_lcm (by simpa using h)

theorem commonDivisor_dvd (h : c ∈ cycles) : commonDivisor cycles ∣ c := Multiset.gcd_dvd (by simpa using h)

theorem commonMultiple_eq_foldl : commonMultiple cycles = cycles.foldl (fun a b => (Int.lcm a b : Int)) 1 := by
  rw [commonMultiple,Multiset.lcm,Multiset.coe_fold_l]
  exact congrArg (fun f => cycles.foldl f 1) (funext₂ fun a b => (coe_lcm a b).symm)

theorem commonMultiple_nonneg (cycles : List Int) : 0 ≤ commonMultiple cycles := by
  rw [commonMultiple_eq_foldl]
  induction cycles using List.reverseRecOn with
  | nil => simp
  | append_singleton l c _ => simp

theorem commonDivisor_cons : commonDivisor (c::l) = Int.gcd c (commonDivisor l) := by
  rfl

theorem commonDivisor_nonneg (cycles : List Int) : 0 ≤ commonDivisor cycles := by
  cases cycles with
  | nil => exact le_of_eq Multiset.gcd_zero.symm
  | cons c l => rw [commonDivisor_cons]; exact natCast_nonneg _

theorem commonMultiple_pos (hpos : ∀ c ∈ cycles, 0 < c) : 0 < commonMultiple cycles := by
  have hne : commonMultiple cycles ≠ 0 := by
    rw [commonMultiple,ne_eq,Multiset.lcm_eq_zero_iff]
    intro h
    exact lt_irrefl _ (hpos 0 (by simpa using h))
  have := commonMultiple_nonneg cycles
  omega

theorem commonDivisor_pos (hne : cycles ≠ []) (hpos : ∀ c ∈ cycles, 0 < c) : 0 < commonDivisor cycles := by
  obtain ⟨c,l,rfl⟩ := exists_cons_of_ne_nil hne
  have hc := hpos c (by simp)
  have hdvd : commonDivisor (c::l) ∣ c := commonDivisor_dvd (by simp)
  have hzero : commonDivisor (c::l) ≠ 0 := by
    intro h
    rw [h,Int.zero_dvd] at hdvd
    omega
  have := commonDivisor_nonneg (c::l)
  omega

theorem commonDivisor_dvd_commonMultiple (hne : cycles ≠ []) : commonDivisor cycles ∣ commonMultiple cycles := by
  obtain ⟨c,l,rfl⟩ := exists_cons_of_ne_nil hne
  exact (commonDivisor_dvd (by simp)).trans (dvd_commonMultiple (c := c) (by simp))

/-- The folded divisor may start from any common multiple of it. -/
theorem foldl_gcd_of_dvd (hc : 0 ≤ c) (h : commonDivisor cycles ∣ c) :
    cycles.foldl (fun a b => (Int.gcd a b : Int)) c = commonDivisor cycles := by
  have key (l : List Int) : ∀ a : Int, 0 ≤ a →
      l.foldl (fun a b => (Int.gcd a b : Int)) a = Int.gcd a (commonDivisor l) := by
    induction l with
    | nil => intro a ha; simpa [commonDivisor] using (natAbs_of_nonneg ha).symm
    | cons b l ih =>
      intro a _
      rw [foldl_cons,ih _ (natCast_nonneg _),commonDivisor_cons,gcd_assoc]
  rw [key cycles c hc,gcd_eq_right (commonDivisor_nonneg cycles) h]

theorem foldl_gcd_of_mem (hc : 0 ≤ c) (h : c ∈ cycles) :
    cycles.foldl (fun a b => (Int.gcd a b : Int)) c = commonDivisor cycles :=
  foldl_gcd_of_dvd hc (commonDivisor_dvd h)

theorem dvd_foldl_lcm (a : Int) : a ∣ l.foldl (fun a b => (Int.lcm a b : Int)) a := by
  induction l generalizing a with
  | nil => exact dvd_rfl
  | cons b l ih => exact (Int.dvd_lcm_left a b).trans (ih _)

private theorem foldl_lcm_pos (hpos : ∀ b ∈ l, 0 < b) {a : Int} (ha : 0 < a) :
    0 < l.foldl (fun a b => (Int.lcm a b : Int)) a := by
  induction l generalizing a with
  | nil => exact ha
  | cons b l ih =>
    have hb := hpos b (by simp)
    have hlcm : 0 < Int.lcm a b := lcm_pos (by omega) (by omega)
    exact ih (fun x hx => hpos x (by simp [hx])) (natCast_pos.mpr hlcm)

/-- Partial least common multiples never exceed the whole one. -/
theorem le_foldl_lcm (hpos : ∀ b ∈ l, 0 < b) {a : Int} (ha : 0 < a) : a ≤ l.foldl (fun a b => (Int.lcm a b : Int)) a :=
  le_of_dvd (foldl_lcm_pos hpos ha) (dvd_foldl_lcm a)

/-- Slot `n % slots` of a table that spans a common multiple of the cycle is due exactly when
the `n`th slot of the unrolled schedule is. -/
theorem dvd_slot_iff {slots g : Int} (hspan : c ∣ slots * g) (n : Int) : c ∣ n % slots * g ↔ c ∣ n * g := by
  have hsplit : n * g = n % slots * g + n / slots * (slots * g) := by
    have := emod_add_mul_ediv n slots
    calc n * g = (n % slots + slots * (n / slots)) * g := by rw [this]
      _ = n % slots * g + n / slots * (slots * g) := by ring
  rw [hsplit,Int.dvd_add_left (hspan.mul_left _)]

end FepParticipant.Library
