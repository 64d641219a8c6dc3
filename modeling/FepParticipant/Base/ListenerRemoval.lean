import FepParticipant.Library.Reachability
import FepParticipant.Result
import Mathlib.Data.List.Count

/-! Removal of a listener that may be registered several times, at a DDB and at a property: `std::remove` moves the
other listeners to the front, and of what stands behind them one element is erased. -/
namespace FepParticipant.Base
open Library List Nat

/-- `std::remove`: the sequence it leaves, and the position of the returned iterator. -/
def stdRemove (listeners : List Nat) (poListener : Nat) : List Nat × Nat :=
  let kept := listeners.filter (· ≠ poListener)
  (kept ++ listeners.drop kept.length,kept.length)

def pushListener (listeners : List Nat) : Option Nat → List Nat × Result
  | none => (listeners,.errPointer)
  | some poListener => (listeners ++ [poListener],.errNoError)

def eraseListener (listeners : List Nat) : Option Nat → List Nat × Result
  | none => (listeners,.errPointer)
  | some poListener =>
    let removed := stdRemove listeners poListener
    if removed.2 = listeners.length then (removed.1,.errNotFound)
    else (removed.1.eraseIdx removed.2,.errNoError)

/-- The listeners of a DDB and of a property, in the order in which they are called. -/
structure CalledListeners where
  lstListeners : List Nat
  vecListeners : List Nat

inductive ListenerCall where
  | registerSyncListener (poListener : Option Nat)
  | unregisterSyncListener (poListener : Option Nat)
  | registerListener (poListener : Option Nat)
  | unregisterListener (poListener : Option Nat)

namespace CalledListeners
variable (listeners : CalledListeners)

/-- `cDDB::RegisterSyncListener`. -/
def registerSyncListener (poListener : Option Nat) : CalledListeners × Result :=
  let (lstListeners,nResult) := pushListener listeners.lstListeners poListener
  ({listeners with lstListeners},nResult)

/-- `cDDB::UnregisterSyncListener`. -/
def unregisterSyncListener (poListener : Option Nat) : CalledListeners × Result :=
  let (lstListeners,nResult) := eraseListener listeners.lstListeners poListener
  ({listeners with lstListeners},nResult)

/-- `cProperty::RegisterListener`. -/
def registerListener (poListener : Option Nat) : CalledListeners × Result :=
  let (vecListeners,nResult) := pushListener listeners.vecListeners poListener
  ({listeners with vecListeners},nResult)

/-- `cProperty::UnregisterListener`. -/
def unregisterListener (poListener : Option Nat) : CalledListeners × Result :=
  let (vecListeners,nResult) := eraseListener listeners.vecListeners poListener
  ({listeners with vecListeners},nResult)

def call : ListenerCall → CalledListeners
  | .registerSyncListener poListener => (listeners.registerSyncListener poListener).1
  | .unregisterSyncListener poListener => (listeners.unregisterSyncListener poListener).1
  | .registerListener poListener => (listeners.registerListener poListener).1
  | .unregisterListener poListener => (listeners.unregisterListener poListener).1

end CalledListeners

/-- A removal takes the first registration of the listener away, or all of them. -/
inductive RemovalRule where
  | one
  | all

namespace RemovalRule

def remove (listeners : List Nat) (poListener : Nat) : RemovalRule → List Nat
  | .one => listeners.erase poListener
  | .all => listeners.filter (· ≠ poListener)

/-- With one registration both rules agree. With more, all but the first have to stand at the end for `one`. -/
def Met (listeners : List Nat) (poListener : Nat) : RemovalRule → Prop
  | .one => ∃ others count, poListener ∉ others ∧
      listeners.erase poListener = others ++ List.replicate count poListener
  | .all => listeners.count poListener ≤ 1

variable {listeners : List Nat} {poListener : Nat}

theorem eraseListener_eq : (eraseListener listeners (some poListener)).1 =
      listeners.filter (· ≠ poListener) ++ listeners.drop ((listeners.filter (· ≠ poListener)).length + 1) := by
  dsimp only [eraseListener]
  by_cases hlength : (stdRemove listeners poListener).2 = listeners.length
  · rw [if_pos hlength]
    dsimp only [stdRemove] at hlength ⊢
    rw [hlength,drop_length,drop_eq_nil_of_le (le_succ _)]
  · rw [if_neg hlength]
    dsimp only [stdRemove]
    rw [eraseIdx_append_of_length_le (Nat.le_refl _),Nat.sub_self,eraseIdx_zero,tail_drop]

theorem length_kept (listeners : List Nat) (poListener : Nat) :
    listeners.count poListener + (listeners.filter (· ≠ poListener)).length = listeners.length := by
  induction listeners with
  | nil => rfl
  | cons listener listeners ih =>
    by_cases hsame : listener = poListener
    · simp [hsame] at ih ⊢
      omega
    · simp [hsame] at ih ⊢
      omega

theorem filter_ne_of_not_mem (h : poListener ∉ listeners) : listeners.filter (· ≠ poListener) = listeners :=
  filter_eq_self.mpr fun listener hlistener => by
    simpa using fun hsame : listener = poListener => h (hsame ▸ hlistener)

theorem kept_append_drop_iff (rest : List Nat) :
    rest.filter (· ≠ poListener) ++ rest.drop (rest.filter (· ≠ poListener)).length = rest ↔
      ∃ back count, poListener ∉ back ∧ rest = back ++ List.replicate count poListener := by
  constructor
  · intro hrest
    refine ⟨rest.filter (· ≠ poListener),_,by simp,hrest.symm.trans (congrArg _ (eq_replicate_of_mem ?_))⟩
    intro listener hlistener
    have hfiltered := congrArg (List.filter (· ≠ poListener)) hrest
    rw [filter_append,filter_filter] at hfiltered
    simp only [Bool.and_self,append_right_eq_self,filter_eq_nil_iff] at hfiltered
    simpa using hfiltered listener hlistener
  · rintro ⟨back,count,hback,rfl⟩
    rw [filter_append,filter_ne_of_not_mem hback]
    simp

/-- Without its first registration the others of the listener are still to be sorted out. -/
private theorem kept_eq : listeners.filter (· ≠ poListener) = (listeners.erase poListener).filter (· ≠ poListener) := by
  by_cases hmem : poListener ∈ listeners
  · obtain ⟨front,rest,rfl,hfront⟩ := eq_append_cons_of_mem hmem
    simp [erase_append_right _ hfront]
  · rw [erase_of_not_mem hmem]

private theorem drop_eq : listeners.drop (((listeners.erase poListener).filter (· ≠ poListener)).length + 1) =
      (listeners.erase poListener).drop ((listeners.erase poListener).filter (· ≠ poListener)).length := by
  by_cases hmem : poListener ∈ listeners
  · obtain ⟨front,rest,rfl,hfront⟩ := eq_append_cons_of_mem hmem
    rw [erase_append_right _ hfront,erase_cons_head,filter_append,filter_ne_of_not_mem hfront,
      length_append,Nat.add_assoc,drop_length_add_append,drop_length_add_append,
      drop_succ_cons]
  · rw [erase_of_not_mem hmem,filter_ne_of_not_mem hmem,drop_length,drop_eq_nil_of_le (le_succ _)]

theorem eraseListener_iff (rule : RemovalRule) : (eraseListener listeners (some poListener)).1 =
    rule.remove listeners poListener ↔ rule.Met listeners poListener := by
  rw [eraseListener_eq]
  cases rule with
  | all =>
    have hlength := length_kept listeners poListener
    simp only [remove,Met,append_right_eq_self,drop_eq_nil_iff]
    omega
  | one =>
    rw [remove,kept_eq,drop_eq]
    exact kept_append_drop_iff _

end RemovalRule

namespace CalledListeners

def Removes (rule : RemovalRule) (listeners : CalledListeners) : ListenerCall → Prop
  | .unregisterSyncListener (some poListener) =>
    listeners.call (.unregisterSyncListener (some poListener)) =
      {listeners with lstListeners := rule.remove listeners.lstListeners poListener}
  | .unregisterListener (some poListener) =>
    listeners.call (.unregisterListener (some poListener)) =
      {listeners with vecListeners := rule.remove listeners.vecListeners poListener}
  | call => match call with
    | .registerSyncListener (some poListener) =>
      listeners.call call = {listeners with lstListeners := listeners.lstListeners ++ [poListener]}
    | .registerListener (some poListener) =>
      listeners.call call = {listeners with vecListeners := listeners.vecListeners ++ [poListener]}
    | _ => listeners.call call = listeners

def Removable (rule : RemovalRule) (listeners : CalledListeners) : ListenerCall → Prop
  | .unregisterSyncListener (some poListener) => rule.Met listeners.lstListeners poListener
  | .unregisterListener (some poListener) => rule.Met listeners.vecListeners poListener
  | _ => True

private theorem removes_iff (rule : RemovalRule) (listeners : CalledListeners) (call : ListenerCall) :
    listeners.Removes rule call ↔ listeners.Removable rule call := by
  match call with
  | .unregisterSyncListener (some poListener) =>
    refine Iff.trans ?_ rule.eraseListener_iff
    simp [Removes,CalledListeners.call,unregisterSyncListener]
  | .unregisterListener (some poListener) =>
    refine Iff.trans ?_ rule.eraseListener_iff
    simp [Removes,CalledListeners.call,unregisterListener]
  | .registerSyncListener (some _) | .registerListener (some _) => exact iff_of_true rfl trivial
  | .unregisterSyncListener none | .unregisterListener none | .registerSyncListener none |
    .registerListener none => exact iff_of_true rfl trivial

/-- In a whole run one rule describes all removals exactly if it is met at each of them. -/
theorem removals_follow_a_rule (listeners : CalledListeners) (calls : List ListenerCall) :
    (∃ rule, Throughout (fun listeners call => some (listeners.call call)) (Removes rule) listeners calls) ↔
      ∃ rule, Throughout (fun listeners call => some (listeners.call call)) (Removable rule) listeners calls :=
  exists_congr fun rule => throughout_iff (fun listeners call (_ : True) => removes_iff rule listeners call)
    (fun _ _ _ _ _ _ => trivial) trivial calls

/-- A listener registered twice before another: neither rule is followed, and the other one is there twice. -/
theorem other_listener_duplicated :
    ¬∃ rule, Throughout (fun listeners call => some (listeners.call call)) (Removes rule) ⟨[],[]⟩
      [.registerListener (some 1),.registerListener (some 1),.registerListener (some 2),
        .unregisterListener (some 1)] := by
  rintro ⟨rule,-,hrun⟩
  have hremoved := ((hrun _ rfl).2 _ rfl).2 _ rfl |>.1
  cases rule with
  | one => exact absurd (congrArg vecListeners hremoved) (by decide)
  | all => exact absurd (congrArg vecListeners hremoved) (by decide)

end CalledListeners
end FepParticipant.Base
