import Mathlib.Data.List.Range
import Mathlib.Data.Int.ModEq
import Mathlib.Tactic.Ring
import Mathlib.Tactic.Linarith

/-! The instants of a periodic event: the first at `start`, one each `cycle` after it. -/
namespace FepParticipant.Library
open List Int

/-- How many instants are not later than `now`. -/
def dueCount (start : Int) (cycle : Nat) (now : Int) : Nat := ((now - start) / cycle + 1).toNat

/-- The instants not later than `now`, in their order. -/
def instants (start : Int) (cycle : Nat) (now : Int) : List Int :=
  (List.range (dueCount start cycle now)).map fun k : Nat => start + k * cycle

/-- The first instant later than `now`. -/
def nextInstant (start : Int) (cycle : Nat) (now : Int) : Int := start + dueCount start cycle now * cycle

variable {start now later : Int} {cycle : Nat}

theorem le_nextInstant (start : Int) (cycle : Nat) (now : Int) : start ≤ nextInstant start cycle now :=
  Int.le_add_of_nonneg_right (by positivity)

section
variable (hcycle : 0 < cycle)
include hcycle

theorem dueCount_of_lt (h : now < start) : dueCount start cycle now = 0 := by
  have hdiv : (now - start) / (cycle : Int) < 0 := ediv_neg_of_neg_of_pos (by omega) (by omega)
  unfold dueCount
  omega

theorem dueCount_of_le (h : start ≤ now) : dueCount start cycle now = dueCount (start + cycle) cycle now + 1 := by
  have hdiv : (now - start) / (cycle : Int) = (now - (start + cycle)) / cycle + 1 := by
    rw [show now - start = now - (start + cycle) + 1 * cycle by ring]
    exact add_mul_ediv_right _ _ (by omega)
  have hnonneg : 0 ≤ (now - start) / (cycle : Int) := ediv_nonneg (by omega) (by omega)
  unfold dueCount
  omega

theorem instants_of_lt (h : now < start) : instants start cycle now = [] := by
  simp [instants,dueCount_of_lt hcycle h]

theorem nextInstant_of_lt (h : now < start) : nextInstant start cycle now = start := by
  simp [nextInstant,dueCount_of_lt hcycle h]

theorem instants_of_le (h : start ≤ now) : instants start cycle now = start::instants (start + cycle) cycle now := by
  unfold instants
  rw [dueCount_of_le hcycle h,range_succ_eq_map]
  simp only [map_cons,map_map,Nat.cast_zero,zero_mul,add_zero,List.cons.injEq,true_and]
  apply map_congr_left
  intro k _
  simp only [Function.comp_apply,Nat.cast_succ]
  ring

theorem nextInstant_of_le (h : start ≤ now) : nextInstant start cycle now = nextInstant (start + cycle) cycle now := by
  unfold nextInstant
  rw [dueCount_of_le hcycle h]
  push_cast
  ring

/-- Induction from the first instant that is not due back to the start. -/
theorem due_induction {motive : Int → Prop} (now : Int) (future : ∀ start, now < start → motive start)
    (due : ∀ start, start ≤ now → motive (start + cycle) → motive start) : motive start := by
  induction hn : dueCount start cycle now generalizing start with
  | zero =>
    apply future
    by_contra hle
    have := dueCount_of_le hcycle (not_lt.mp hle)
    omega
  | succ n ih =>
    have hle : start ≤ now := by
      by_contra hlt
      have := dueCount_of_lt hcycle (not_le.mp hlt)
      omega
    apply due start hle
    apply ih
    have := dueCount_of_le hcycle hle
    omega

/-- The instants up to a later time: those due already, then those from the next one on. -/
theorem instants_append (h : now ≤ later) : instants start cycle later =
    instants start cycle now ++ instants (nextInstant start cycle now) cycle later := by
  induction start using due_induction hcycle now with
  | future start hlt => rw [instants_of_lt hcycle hlt,nextInstant_of_lt hcycle hlt,nil_append]
  | due start hle ih =>
    rw [instants_of_le hcycle (hle.trans h),instants_of_le hcycle hle,nextInstant_of_le hcycle hle,cons_append,ih]

theorem nextInstant_nextInstant (h : now ≤ later) :
    nextInstant (nextInstant start cycle now) cycle later = nextInstant start cycle later := by
  induction start using due_induction hcycle now with
  | future start hlt => rw [nextInstant_of_lt hcycle hlt]
  | due start hle ih => rw [nextInstant_of_le hcycle hle,nextInstant_of_le hcycle (hle.trans h),ih]

/-- The instants increase, so each is there once. -/
theorem instants_increase : (instants start cycle now).Pairwise (· < ·) := by
  apply pairwise_map.mpr
  apply pairwise_lt_range.imp
  intro k l hkl
  have : (k : Int) * cycle < l * cycle := mul_lt_mul_of_pos_right (by omega) (by omega)
  omega

end

end FepParticipant.Library
