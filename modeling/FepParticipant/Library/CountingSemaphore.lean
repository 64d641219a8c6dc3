import Mathlib.Logic.Basic

/-! A counting semaphore as its users see it: posting adds a token, and a wait
that does not time out takes one away. -/
namespace FepParticipant.Library

/-- Operations of a counting semaphore together with the token count that describes them. -/
class CountingSemaphore (S : Type) where
  fresh : S
  notify : S → S
  tryWait : S → Option S
  isSet : S → Bool
  reset : S → S
  count : S → Nat
  count_fresh : count fresh = 0
  count_notify (s : S) : count (notify s) = count s + 1
  tryWait_eq_none (s : S) : tryWait s = none ↔ count s = 0
  count_of_tryWait {s t : S} : tryWait s = some t → count s = count t + 1
  isSet_iff (s : S) : isSet s = true ↔ 0 < count s
  count_reset (s : S) : count (reset s) = 0

namespace CountingSemaphore
attribute [simp] count_fresh count_notify count_reset

/-- The token count itself is a counting semaphore. -/
instance : CountingSemaphore Nat where
  fresh := 0
  notify n := n + 1
  tryWait | 0 => none | n + 1 => some n
  isSet n := 0 < n
  reset _ := 0
  count n := n
  count_fresh := rfl
  count_notify _ := rfl
  tryWait_eq_none n := by cases n <;> simp
  count_of_tryWait {s t} h := by cases s <;> simp_all
  isSet_iff n := by simp
  count_reset _ := rfl

end CountingSemaphore
end FepParticipant.Library
