import Mathlib.Data.List.Infix

/-! Trees as maps from paths to values, and the events that change them. An event that comes again
changes nothing, so that a replica may receive it more than once. -/
namespace FepParticipant.Library
open List

variable {α β : Type} [DecidableEq α]

/-- A value is put where there is one, a new one is added below a parent, or a path is dropped with all
that is below it. -/
inductive TreeEvent (α β : Type) where
  | put (path : List α) (value : β)
  | add (parent : List α) (name : α) (value : β)
  | drop (path : List α)

namespace TreeEvent

variable {content : List α → Option β} {path : List α}
variable {event : TreeEvent α β}

def apply (content : List α → Option β) : TreeEvent α β → List α → Option β
  | put path value => fun other => if other = path ∧ (content path).isSome then some value else content other
  | add parent name value => fun other =>
    if other = parent ++ [name] ∧ (content parent).isSome then some value else content other
  | drop path => fun other => if path <+: other then none else content other

def applyAll (content : List α → Option β) (events : List (TreeEvent α β)) : List α → Option β :=
  events.foldl apply content

theorem applyAll_append (content : List α → Option β) (events more : List (TreeEvent α β)) :
    applyAll content (events ++ more) = applyAll (applyAll content events) more := by
  rw [applyAll,foldl_append]
  rfl

/-- An event that comes again changes nothing. -/
private theorem apply_apply : apply (apply content event) event = apply content event := by
  funext other
  cases event with
  | put path value =>
    by_cases hother : other = path
    · subst hother
      by_cases hsome : (content other).isSome <;> simp [apply,hsome]
    · simp [apply,hother]
  | add parent name value =>
    have hparent : parent ≠ parent ++ [name] := fun h => by simpa using congrArg List.length h
    by_cases hother : other = parent ++ [name]
    · by_cases hsome : (content parent).isSome <;> simp [apply,hother,hsome,hparent]
    · simp [apply,hother]
  | drop path => by_cases hother : path <+: other <;> simp [apply,hother]

/-- An event that comes any number of times is applied once. -/
theorem applyAll_replicate (count : Nat) :
    applyAll content (List.replicate (count + 1) event) = apply content event := by
  induction count with
  | zero => rfl
  | succ count ih =>
    rw [replicate_succ',applyAll_append,ih]
    exact apply_apply

/-- What is dropped with a path may be dropped before or after it. -/
theorem applyAll_drops {paths : List (List α)} (path : List α) (hbelow : ∀ other ∈ paths, path <+: other)
    (hmem : path ∈ paths) : applyAll content (paths.map drop) = apply content (drop path) := by
  have hdrops (content : List α → Option β) (paths : List (List α)) (other : List α) :
      applyAll content (paths.map drop) other = if ∃ dropped ∈ paths,
        dropped <+: other then none else content other := by
    induction paths generalizing content with
    | nil => simp [applyAll]
    | cons dropped paths ih =>
      refine (ih (apply content (drop dropped))).trans ?_
      by_cases hhead : dropped <+: other
      · simp [apply,hhead]
      · simp [apply,hhead]
  funext other
  rw [hdrops]
  by_cases hother : path <+: other
  · rw [if_pos ⟨path,hmem,hother⟩]
    exact (if_pos hother).symm
  · rw [if_neg fun ⟨dropped,hdropped,hbefore⟩ => hother ((hbelow dropped hdropped).trans hbefore)]
    exact (if_neg hother).symm

variable {root : List α}

/-- The same event for a tree that stands below a path of another one. -/
def below (root : List α) : TreeEvent α β → TreeEvent α β
  | put path value => put (root ++ path) value
  | add parent name value => add (root ++ parent) name value
  | drop path => drop (root ++ path)

/-- The content below a path. -/
def contentBelow (root : List α) (content : List α → Option β) (rel : List α) : Option β := content (root ++ rel)

/-- An event below a path is one of the tree there. -/
theorem contentBelow_apply (content : List α → Option β) (root : List α) (event : TreeEvent α β) :
    contentBelow root (apply content (event.below root)) = apply (contentBelow root content) event := by
  funext rel
  cases event with
  | put path value => by_cases hrel : rel = path <;> simp [contentBelow,below,apply,hrel]
  | add parent name value => by_cases hrel : rel = parent ++ [name] <;> simp [contentBelow,below,apply,hrel]
  | drop path => simp [contentBelow,below,apply,prefix_append_right_inj]

theorem apply_below_other {other : List α} (hother : ¬root <+: other) :
    apply content (event.below root) other = content other := by
  cases event with
  | put path value =>
    refine if_neg ?_
    rintro ⟨rfl,-⟩
    exact hother (prefix_append _ _)
  | add parent name value =>
    refine if_neg ?_
    rintro ⟨rfl,-⟩
    rw [append_assoc] at hother
    exact hother (prefix_append _ _)
  | drop path => exact if_neg fun hbelow => hother ((prefix_append _ _).trans hbelow)

/-- A value that is put elsewhere. -/
theorem contentBelow_put_other {value : β} (hother : ¬root <+: path) :
    contentBelow root (apply content (put path value)) = contentBelow root content := by
  funext rel
  refine if_neg ?_
  rintro ⟨rfl,-⟩
  exact hother (prefix_append _ _)

theorem contentBelow_add_other {name : α} {value : β} (hother : ¬root <+: path ++ [name]) :
    contentBelow root (apply content (add path name value)) = contentBelow root content := by
  funext rel
  refine if_neg ?_
  rintro ⟨hsame,-⟩
  exact hother (hsame ▸ prefix_append _ _)

/-- A path that is dropped neither in front of the other one nor behind it. -/
theorem contentBelow_drop_other (hbelow : ¬root <+: path) (habove : ¬path <+: root) :
    contentBelow root (apply content (drop path)) = contentBelow root content := by
  funext rel
  refine if_neg fun hdropped => ?_
  rcases prefix_or_prefix_of_prefix hdropped (prefix_append root rel) with hfirst | hsecond
  · exact habove hfirst
  · exact hbelow hsecond

theorem contentBelow_drop_above (habove : path <+: root) :
    contentBelow root (apply content (drop path)) = fun _ => none := by
  funext rel
  exact if_pos (habove.trans (prefix_append _ _))

/-- Nothing comes to a tree that is not there. -/
theorem apply_none : apply (fun _ => none) event = fun _ => none := by
  funext rel
  cases event <;> simp [apply]

theorem applyAll_none (events : List (TreeEvent α β)) : applyAll (fun _ => none) events = fun _ => none := by
  induction events with
  | nil => rfl
  | cons event events ih =>
    rw [applyAll,foldl_cons,apply_none]
    exact ih

end TreeEvent

end FepParticipant.Library
