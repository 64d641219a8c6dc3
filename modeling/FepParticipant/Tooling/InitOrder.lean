import FepParticipant.Library.StrictWeakOrder
import Mathlib.Algebra.Order.Ring.Int

/-! The order in which the controller initializes and starts the elements of a system. -/
namespace FepParticipant.Tooling
open Library List

/-- What the controller reads of an element; the maps are given by what they find. -/
structure ElementInstance where
  name : String
  interfaceInstances : String → Option (String → Option String)
  requirementResolutions : String → Option String

namespace ElementInstance
variable (elem : ElementInstance)

/-- `toInt32` gives the number a text stands for. -/
def getInitPrioFromSTM (toInt32 : String → Option Int) (elem : ElementInstance) : Int :=
  match elem.interfaceInstances "FEP_StateMachine" with
  | some properties =>
    match properties "InitPriority" with
    | some value => (toInt32 value).getD 0
    | none => 0
  | none => 0

def isTimingMaster : Bool :=
  (elem.interfaceInstances "FEP_TimingMaster").isSome || (elem.interfaceInstances "FEP_TimingMaster_30").isSome

def isTimingClientOf (master : String) : Bool :=
  match elem.requirementResolutions "FEP_TimingMaster" with
  | some resolution => resolution == master
  | none =>
    match elem.requirementResolutions "FEP_TimingMaster_30" with
    | some resolution => resolution == master
    | none => false

def isVUProvider : Bool := (elem.interfaceInstances "FEP_VUProvider").isSome

def isVUConsumerOf (vuprovider : String) : Bool :=
  match elem.requirementResolutions "FEP_VUProvider" with
  | some resolution => resolution == vuprovider
  | none => false

/-- The comparison of two elements, which may throw a text. No two elements have one name, which stands for the
pointer here. -/
def compare (toInt32 : String → Option Int) (a b : ElementInstance) : Except String Bool :=
  if a.name = b.name then .ok false
  else if a.isTimingMaster && b.isTimingMaster then .error s!"{a.name} and {b.name} are both FEP Timing Masters!"
  else if a.isTimingMaster && a.isVUProvider then .error s!"{a.name} is both FEP Timing Master and VUProvider!"
  else if b.isTimingMaster && b.isVUProvider then .error s!"{b.name} is both FEP Timing Master and VUProvider!"
  else if a.isTimingMaster && b.isTimingClientOf a.name then .ok false
  else if b.isTimingMaster && a.isTimingClientOf b.name then .ok true
  else if a.isVUProvider && b.isVUConsumerOf a.name then .ok true
  else if b.isVUProvider && a.isVUConsumerOf b.name then .ok false
  else .ok (decide (a.getInitPrioFromSTM toInt32 < b.getInitPrioFromSTM toInt32))

/-- An element that must be initialized before the other one: a timing client before its master, a VUProvider before
its consumers. -/
def Required (a b : ElementInstance) : Prop :=
  (b.isTimingMaster ∧ a.isTimingClientOf b.name) ∨ (a.isVUProvider ∧ b.isVUConsumerOf a.name)

instance (a b : ElementInstance) : Decidable (a.Required b) := inferInstanceAs (Decidable (_ ∨ _))

/-- Required to be initialized before, or by priority if neither is required. -/
def Precedes (toInt32 : String → Option Int) (a b : ElementInstance) : Prop :=
  a.Required b ∨ (¬b.Required a ∧ a.getInitPrioFromSTM toInt32 < b.getInitPrioFromSTM toInt32)

instance (toInt32 : String → Option Int) : DecidableRel (Precedes toInt32) :=
  fun _ _ => inferInstanceAs (Decidable (_ ∨ _))

end ElementInstance
open ElementInstance

/-- `std::upper_bound`: what stands in front of the first element that is greater than the value, and the others. -/
def upperBound (compare : ElementInstance → ElementInstance → Except String Bool) (value : ElementInstance) :
    List ElementInstance → Except String (List ElementInstance × List ElementInstance)
  | [] => .ok ([],[])
  | element::rest => do
    if ← compare value element then return ([],element::rest)
    else
      let (sublist,rest) ← upperBound compare value rest
      return (element::sublist,rest)

/-- The loop that makes the groups; `turns` is at least the number of elements. -/
def initGroups (compare : ElementInstance → ElementInstance → Except String Bool) :
    Nat → List ElementInstance → Except String (List (List ElementInstance))
  | _, [] => .ok []
  | 0, _::_ => .ok []
  | turns + 1, value::rest => do
    let (sublist,rest) ← upperBound compare value rest
    let groups ← initGroups compare turns rest
    return (value::sublist)::groups

/-- `calculateInitOrder`: no groups if sorting has thrown; an exception behind it leaves the function. `sort` is
`std::sort`. -/
def calculateInitOrder
    (sort : (ElementInstance → ElementInstance → Except String Bool) → List ElementInstance →
      Except String (List ElementInstance))
    (isStandalone : String → Bool) (toInt32 : String → Option Int) (elements : List ElementInstance) :
    Except String (Option (List (List ElementInstance))) :=
  let serialInitOrder := elements.filter fun elem => !isStandalone elem.name
  match sort (compare toInt32) serialInitOrder with
  | .error _ => .ok none
  | .ok sorted => do
    let initOrder ← initGroups (compare toInt32) sorted.length sorted
    return some initOrder

/-- What `std::sort` promises: for a strict weak order that does not throw the elements are sorted. -/
def Sorts (sort : (ElementInstance → ElementInstance → Except String Bool) → List ElementInstance →
    Except String (List ElementInstance)) : Prop :=
  ∀ (compare : ElementInstance → ElementInstance → Except String Bool) (elements : List ElementInstance),
    (∀ a ∈ elements, ∀ b ∈ elements, (compare a b).isOk) →
    StrictWeakOn (fun a b => compare a b = .ok true) elements →
    ∃ sorted, sort compare elements = .ok sorted ∧ sorted.Perm elements ∧
      sorted.Pairwise fun a b => compare b a ≠ .ok true

/-- Sorting is defined, and gives groups of all elements not standalone, in which everything required is earlier and
any other pair is ordered by priority. -/
def InitOrdered (isStandalone : String → Bool) (toInt32 : String → Option Int) (elements : List ElementInstance) :
    Prop :=
  let serialInitOrder := elements.filter fun elem => !isStandalone elem.name
  StrictWeakOn (fun a b => ElementInstance.compare toInt32 a b = .ok true) serialInitOrder ∧
  ∀ sort, Sorts sort → ∃ initOrder, calculateInitOrder sort isStandalone toInt32 elements = .ok (some initOrder) ∧
    initOrder.flatten.Perm serialInitOrder ∧ (∀ group ∈ initOrder, group ≠ []) ∧
    ∀ a ∈ serialInitOrder, ∀ b ∈ serialInitOrder,
      (a.Required b → Earlier initOrder a b) ∧
      (¬a.Required b → ¬b.Required a → a.getInitPrioFromSTM toInt32 < b.getInitPrioFromSTM toInt32 →
        Earlier initOrder a b)

/-- A system with different names, at most one timing master, which is no VUProvider, and acyclic requirements. -/
structure WellDescribed (elements : List ElementInstance) : Prop where
  names : ∀ a ∈ elements, ∀ b ∈ elements, a.name = b.name → a = b
  oneMaster : ∀ a ∈ elements, ∀ b ∈ elements, a.isTimingMaster → b.isTimingMaster → a = b
  masterNotProvider : ∀ a ∈ elements, a.isTimingMaster → ¬a.isVUProvider
  acyclic : ∀ a, ¬Relation.TransGen (fun a b => a ∈ elements ∧ b ∈ elements ∧ a.Required b) a a

namespace WellDescribed

variable {toInt32 : String → Option Int} {elements : List ElementInstance} {a b c : ElementInstance}

section
variable (h : WellDescribed elements)
include h

private theorem not_required_self (ha : a ∈ elements) : ¬a.Required a := fun hreq => h.acyclic a (.single ⟨ha,ha,hreq⟩)

theorem required_asymm (ha : a ∈ elements) (hb : b ∈ elements) (hab : a.Required b) : ¬b.Required a := fun hba =>
  h.acyclic a (.tail (.single ⟨ha,hb,hab⟩) ⟨hb,ha,hba⟩)

theorem of_subset {others : List ElementInstance} (hsub : others ⊆ elements) : WellDescribed others where
  names a ha b hb := h.names a (hsub ha) b (hsub hb)
  oneMaster a ha b hb := h.oneMaster a (hsub ha) b (hsub hb)
  masterNotProvider a ha := h.masterNotProvider a (hsub ha)
  acyclic a hcycle := h.acyclic a (hcycle.lift id fun _ _ ⟨ha,hb,hreq⟩ => ⟨hsub ha,hsub hb,hreq⟩)

theorem compare_eq (ha : a ∈ elements) (hb : b ∈ elements) :
    ElementInstance.compare toInt32 a b = .ok (decide (Precedes toInt32 a b)) := by
  rw [ElementInstance.compare]
  by_cases hname : a.name = b.name
  · obtain rfl := h.names a ha b hb hname
    rw [if_pos rfl]
    congr 1
    refine (decide_eq_false ?_).symm
    rintro (hreq | ⟨-,hprio⟩)
    · exact h.not_required_self ha hreq
    · exact lt_irrefl _ hprio
  have htwo : ¬(a.isTimingMaster && b.isTimingMaster) = true := fun hmasters => by
    rw [Bool.and_eq_true] at hmasters
    exact hname (congrArg ElementInstance.name (h.oneMaster a ha b hb hmasters.1 hmasters.2))
  have hprovider {elem : ElementInstance} (helem : elem ∈ elements) :
      ¬(elem.isTimingMaster && elem.isVUProvider) = true := fun hboth => by
    rw [Bool.and_eq_true] at hboth
    exact h.masterNotProvider elem helem hboth.1 hboth.2
  rw [if_neg hname,if_neg htwo,if_neg (hprovider ha),if_neg (hprovider hb)]
  by_cases hab : a.Required b
  · have hba := h.required_asymm ha hb hab
    rw [Required,not_or] at hba
    rw [decide_eq_true (show Precedes toInt32 a b from .inl hab),if_neg (by simpa using hba.1)]
    by_cases hclient : (b.isTimingMaster && a.isTimingClientOf b.name) = true
    · rw [if_pos hclient]
    · rw [if_neg hclient,if_pos]
      simpa using hab.resolve_left (by simpa using hclient)
  · by_cases hba : b.Required a
    · have hnot : ¬Precedes toInt32 a b := fun hprecedes => hprecedes.elim hab fun hprio => hprio.1 hba
      rw [decide_eq_false hnot]
      rw [Required,not_or] at hab
      by_cases hclient : (a.isTimingMaster && b.isTimingClientOf a.name) = true
      · rw [if_pos hclient]
      · rw [if_neg hclient,if_neg (by simpa using hab.1),if_neg (by simpa using hab.2),if_pos]
        simpa using hba.resolve_left (by simpa using hclient)
    · have hiff : Precedes toInt32 a b ↔ a.getInitPrioFromSTM toInt32 < b.getInitPrioFromSTM toInt32 :=
        ⟨fun hprecedes => (hprecedes.resolve_left hab).2,fun hprio => .inr ⟨hba,hprio⟩⟩
      rw [decide_eq_decide.mpr hiff]
      rw [Required,not_or] at hab hba
      rw [if_neg (by simpa using hba.1),if_neg (by simpa using hab.1),if_neg (by simpa using hab.2),
        if_neg (by simpa using hba.2)]

theorem less_iff (ha : a ∈ elements) (hb : b ∈ elements) :
    ElementInstance.compare toInt32 a b = .ok true ↔ Precedes toInt32 a b := by
  rw [h.compare_eq ha hb,Except.ok.injEq,decide_eq_true_eq]

private theorem precedes_asymm (ha : a ∈ elements) (hb : b ∈ elements)
    (hab : Precedes toInt32 a b) : ¬Precedes toInt32 b a := by
  rintro (hba | ⟨hnot,hprio⟩)
  · rcases hab with hreq | ⟨hnot,-⟩
    · exact h.required_asymm ha hb hreq hba
    · exact hnot hba
  · rcases hab with hreq | ⟨-,hless⟩
    · exact hnot hreq
    · exact absurd hless (lt_asymm hprio)

/-- The comparison is a strict weak order exactly when every third element is greater than the first of a required
pair or less than the second. -/
theorem strictWeakOn_iff : StrictWeakOn (fun a b => ElementInstance.compare toInt32 a b = .ok true) elements ↔
      ∀ a ∈ elements, ∀ b ∈ elements, a.Required b → ∀ c ∈ elements, Precedes toInt32 a c ∨ Precedes toInt32 c b := by
  constructor
  · intro hweak a ha b hb hab c hc
    rw [← h.less_iff ha hc,← h.less_iff hc hb]
    exact hweak.between ha hb hc ((h.less_iff ha hb).mpr (.inl hab))
  · intro hrequired
    apply StrictWeakOn.of_between
    · intro a ha b hb hab
      rw [h.less_iff ha hb] at hab
      rw [h.less_iff hb ha]
      exact h.precedes_asymm ha hb hab
    · intro a ha b hb hab c hc
      rw [h.less_iff ha hb] at hab
      rw [h.less_iff ha hc,h.less_iff hc hb]
      rcases hab with hab | ⟨hba,hprio⟩
      · exact hrequired a ha b hb hab c hc
      · have hback : ¬Precedes toInt32 b a := fun hprecedes =>
          hprecedes.elim hba fun hless => absurd hprio (lt_asymm hless.2)
        -- by priority, unless the third element is required before the first or behind the second
        by_cases hca : c.Required a
        · exact .inr ((hrequired c hc a ha hca b hb).resolve_right hback)
        · by_cases hbc : b.Required c
          · exact .inl ((hrequired b hb c hc hbc a ha).resolve_left hback)
          · by_cases hless : a.getInitPrioFromSTM toInt32 < c.getInitPrioFromSTM toInt32
            · exact .inl (.inr ⟨hca,hless⟩)
            · exact .inr (.inr ⟨hbc,lt_of_le_of_lt (not_lt.mp hless) hprio⟩)

end

end WellDescribed

variable {toInt32 : String → Option Int} {isStandalone : String → Bool} {elements sorted : List ElementInstance}

private theorem upperBound_eq (h : WellDescribed elements) {value : ElementInstance} (hvalue : value ∈ elements)
    {rest : List ElementInstance} (hrest : rest ⊆ elements) : upperBound (ElementInstance.compare toInt32) value rest =
      .ok (rest.takeWhile fun element => !decide (Precedes toInt32 value element),
        rest.dropWhile fun element => !decide (Precedes toInt32 value element)) := by
  induction rest with
  | nil => rfl
  | cons element rest ih =>
    rw [cons_subset] at hrest
    rw [upperBound,h.compare_eq hvalue hrest.1,ih hrest.2]
    by_cases hless : Precedes toInt32 value element
    · rw [decide_eq_true hless,takeWhile_cons_of_neg (by simp [hless]),dropWhile_cons_of_neg (by simp [hless])]
      rfl
    · rw [decide_eq_false hless,takeWhile_cons_of_pos (by simp [hless]),dropWhile_cons_of_pos (by simp [hless])]
      rfl

private theorem initGroups_eq (toInt32 : String → Option Int) (h : WellDescribed elements) {turns : Nat}
    (hsorted : sorted ⊆ elements) (hturns : sorted.length ≤ turns) :
    initGroups (ElementInstance.compare toInt32) turns sorted = .ok (cutAtGreater (Precedes toInt32) sorted) := by
  induction turns generalizing sorted with
  | zero =>
    obtain rfl := eq_nil_of_length_eq_zero (Nat.le_zero.mp hturns)
    rw [initGroups,cutAtGreater]
  | succ turns ih =>
    cases sorted with
    | nil => rw [initGroups,cutAtGreater]
    | cons value rest =>
      rw [cons_subset] at hsorted
      have hdrop := dropWhile_sublist (l := rest) fun element => !decide (Precedes toInt32 value element)
      rw [initGroups,upperBound_eq h hsorted.1 hsorted.2,cutAtGreater]
      have hgroups := ih (fun element helement => hsorted.2 (hdrop.subset helement))
        (hdrop.length_le.trans (Nat.le_of_succ_le_succ hturns))
      simp only [bind,Except.bind,hgroups]
      rfl

theorem initOrdered_of_strictWeakOn (h : WellDescribed (elements.filter fun elem => !isStandalone elem.name))
    (hweak : StrictWeakOn (fun a b => ElementInstance.compare toInt32 a b = .ok true)
      (elements.filter fun elem => !isStandalone elem.name)) : InitOrdered isStandalone toInt32 elements := by
  refine ⟨hweak,fun sort hsort => ?_⟩
  set serial := elements.filter fun elem => !isStandalone elem.name with hserial
  obtain ⟨sorted,hsorts,hperm,hsorted⟩ := hsort (ElementInstance.compare toInt32) serial
    (fun a ha b hb => by rw [h.compare_eq ha hb]; rfl) hweak
  have hgroups := initGroups_eq toInt32 h hperm.subset le_rfl
  have hiff : ∀ a ∈ sorted, ∀ b ∈ sorted, Precedes toInt32 a b ↔ ElementInstance.compare toInt32 a b = .ok true := by
    intro a ha b hb
    exact (h.less_iff (hperm.subset ha) (hperm.subset hb)).symm
  have hprecedes : StrictWeakOn (Precedes toInt32) sorted := hweak.congr (fun a ha => hperm.subset ha) hiff
  have hordered : sorted.Pairwise fun a b => ¬Precedes toInt32 b a := by
    apply hsorted.imp_of_mem
    intro a b ha hb hnot
    rwa [hiff b hb a ha]
  have hearlier {a b : ElementInstance} (ha : a ∈ serial) (hb : b ∈ serial) (hless : Precedes toInt32 a b) :
      Earlier (cutAtGreater (Precedes toInt32) sorted) a b :=
    earlier_of_less hprecedes hordered (hperm.symm.subset ha) (hperm.symm.subset hb) hless
  refine ⟨cutAtGreater (Precedes toInt32) sorted,?_,?_,?_,?_⟩
  · rw [calculateInitOrder,← hserial]
    simp only [hsorts,hgroups]
    rfl
  · rwa [flatten_cutAtGreater]
  · exact fun group hgroup => ne_nil_of_mem_cutAtGreater hgroup
  · intro a ha b hb
    exact ⟨fun hreq => hearlier ha hb (.inl hreq),fun _ hba hprio => hearlier ha hb (.inr ⟨hba,hprio⟩)⟩

/-- The elements are ordered as promised exactly when, for any required pair, every other one not standalone comes
behind the first or in front of the second, as required or by priority. -/
theorem init_ordered_iff (isStandalone : String → Bool) (toInt32 : String → Option Int) (h : WellDescribed elements) :
    InitOrdered isStandalone toInt32 elements ↔ ∀ a ∈ elements.filter fun elem => !isStandalone elem.name,
        ∀ b ∈ elements.filter fun elem => !isStandalone elem.name, a.Required b →
          ∀ c ∈ elements.filter fun elem => !isStandalone elem.name, Precedes toInt32 a c ∨ Precedes toInt32 c b := by
  have hserial := h.of_subset (filter_sublist (p := fun elem => !isStandalone elem.name)).subset
  rw [← hserial.strictWeakOn_iff]
  exact ⟨fun hordered => hordered.1,initOrdered_of_strictWeakOn hserial⟩

def plainElement (name : String) (interfaces : List String) (resolutions : List (String × String)) :
    ElementInstance where
  name := name
  interfaceInstances := fun interface => if interface ∈ interfaces then some fun _ => none else none
  requirementResolutions := fun requirement => resolutions.lookup requirement

/-- A sorting that never throws itself. -/
def insertionSorted (compare : ElementInstance → ElementInstance → Except String Bool)
    (elements : List ElementInstance) : Except String (List ElementInstance) :=
  .ok (elements.insertionSort fun a b => ¬compare b a = .ok true)

theorem sorts_insertionSorted : Sorts insertionSorted := fun _ elements _ hweak =>
  ⟨_,rfl,perm_insertionSort _ elements,pairwise_insertionSort_of_strictWeakOn hweak⟩

/-- The element has a state machine with the priority. -/
def withPriority (value : String) (elem : ElementInstance) : ElementInstance :=
  { elem with
    interfaceInstances := fun interface =>
      if interface = "FEP_StateMachine" then some fun property => if property = "InitPriority" then some value else none
      else elem.interfaceInstances interface }

/-- The timing master, a client of it that needs a VU, its provider, and a recorder that is standalone. -/
def drivingSystem : List ElementInstance :=
  [withPriority "2" (plainElement "master" ["FEP_TimingMaster"] []),plainElement "recorder" [] [],
    withPriority "5" (plainElement "client" [] [("FEP_TimingMaster","master"),("FEP_VUProvider","provider")]),
    withPriority "1" (plainElement "provider" ["FEP_VUProvider"] [])]

def priorities : String → Option Int := fun text => [("1",1),("2",2),("5",5)].lookup text

/-- Every required pair goes on in the list of the names. -/
private theorem wellDescribed_drivingSystem : WellDescribed drivingSystem := by
  refine ⟨by simp [drivingSystem,withPriority,plainElement],?_,by decide,fun a hcycle => ?_⟩
  · simp [drivingSystem,withPriority,plainElement,isTimingMaster]
  have hstep : ∀ a ∈ drivingSystem, ∀ b ∈ drivingSystem, a.Required b →
      ["provider","client","master"].idxOf a.name < ["provider","client","master"].idxOf b.name := by decide
  have hpath (b : ElementInstance)
      (h : Relation.TransGen (fun a b => a ∈ drivingSystem ∧ b ∈ drivingSystem ∧ a.Required b) a b) :
      ["provider","client","master"].idxOf a.name < ["provider","client","master"].idxOf b.name := by
    induction h with
    | single h => exact hstep _ h.1 _ h.2.1 h.2.2
    | tail _ h ih => exact ih.trans (hstep _ h.1 _ h.2.1 h.2.2)
  exact absurd (hpath a hcycle) (lt_irrefl _)

theorem init_ordered_driving_system :
    Sorts insertionSorted ∧ InitOrdered (· == "recorder") priorities drivingSystem ∧
    (calculateInitOrder insertionSorted (· == "recorder") priorities drivingSystem).map
      (fun initOrder => initOrder.map (·.map (·.map name))) =
      .ok (some [["provider"],["client"],["master"]]) := by
  refine ⟨sorts_insertionSorted,(init_ordered_iff _ _ wellDescribed_drivingSystem).mpr (by decide),?_⟩
  decide

/-- With a third element of the same priority sorting is not defined. -/
theorem third_element_not_ordered : ¬InitOrdered (fun _ => false) (fun _ => none)
    [plainElement "client" [] [("FEP_TimingMaster","master")],plainElement "master" ["FEP_TimingMaster"] [],
      plainElement "other" [] []] := by
  intro hordered
  rcases hordered.1.between (a := plainElement "client" [] [("FEP_TimingMaster","master")])
    (b := plainElement "master" ["FEP_TimingMaster"] []) (c := plainElement "other" [] []) (by simp) (by simp)
    (by simp) rfl with hless | hless
  · cases hless
  · cases hless

end FepParticipant.Tooling
