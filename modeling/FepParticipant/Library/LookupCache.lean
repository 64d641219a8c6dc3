import Mathlib.Logic.Basic

/-! A cache of lookups beside the source that answers them: what a cached lookup gives, and
which changes of the source the cache survives. -/
namespace FepParticipant.Library.LookupCache

variable {κ ν : Type} [BEq κ] [LawfulBEq κ]

/-- Every cached value is what the source answers. -/
def Coherent (source : κ → Option ν) (cache : List (κ × ν)) : Prop :=
  ∀ key value, cache.lookup key = some value → source key = some value

/-- A lookup that asks the source only for keys the cache does not have, and keeps the answer. -/
def lookup (source : κ → Option ν) (cache : List (κ × ν)) (key : κ) : Option ν × List (κ × ν) :=
  match cache.lookup key with
  | some value => (some value,cache)
  | none => match source key with
    | some value => (some value,(key,value)::cache)
    | none => (none,cache)

variable {source source' : κ → Option ν} {cache : List (κ × ν)}

omit [LawfulBEq κ] in
theorem coherent_nil : Coherent source ([] : List (κ × ν)) := fun _ _ h => by cases h

omit [LawfulBEq κ] in
/-- With a coherent cache a lookup gives what the source answers. -/
theorem Coherent.lookup_fst (h : Coherent source cache) (key : κ) : (lookup source cache key).1 = source key := by
  unfold lookup
  cases hcached : cache.lookup key with
  | some value => exact (h key value hcached).symm
  | none => cases source key <;> rfl

/-- A lookup keeps the cache coherent. -/
theorem Coherent.lookup_snd (h : Coherent source cache) (key : κ) : Coherent source (lookup source cache key).2 := by
  unfold lookup
  cases hcached : cache.lookup key with
  | some value => exact h
  | none =>
    cases hsource : source key with
    | none => exact h
    | some value =>
      intro other answer hother
      rw [List.lookup_cons] at hother
      cases hsame : other == key with
      | true =>
        rw [hsame] at hother
        cases hother
        rw [eq_of_beq hsame,hsource]
      | false =>
        rw [hsame] at hother
        exact h other answer hother

omit [LawfulBEq κ] in
/-- A change of the source keeps the cache coherent exactly if the cached keys are answered as before. -/
theorem Coherent.change_iff (h : Coherent source cache) :
    Coherent source' cache ↔ ∀ key, (cache.lookup key).isSome = true → source' key = source key := by
  constructor
  · intro h' key hcached
    obtain ⟨value,hvalue⟩ := Option.isSome_iff_exists.mp hcached
    rw [h' key value hvalue,h key value hvalue]
  · intro hsame key value hvalue
    rw [hsame key (by rw [hvalue]; rfl),h key value hvalue]

end FepParticipant.Library.LookupCache
