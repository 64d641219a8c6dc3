import Mathlib.Data.List.AList
import Mathlib.Data.String.Basic
import FepParticipant.Library.CommonPeriod
import FepParticipant.Library.MachineWord

/-! What the timing master keeps of the tasks of its clients: the schedule configurations, keyed by the uuid of their
task, and the schedule table: one slot a tick of the common period, with the tasks due and the acknowledgements
received. A `timestamp_t` is a signed 64-bit count of microseconds, kept as an integer. -/
namespace FepParticipant.Timing
open Library

/-- The scheduling a task requests; the task is identified by its uuid. -/
structure ScheduleConfig where
  stepUuid : String
  cycleTimeUs : Int
  deriving DecidableEq

/-- `std::set<ScheduleConfig>`; its order compares uuids only, so a uuid occurs once. -/
structure ScheduleConfigs where
  items : List ScheduleConfig
  sorted : items.Pairwise fun lhs rhs => lhs.stepUuid < rhs.stepUuid

namespace ScheduleConfigs
variable (configs : ScheduleConfigs)

def empty : ScheduleConfigs := ⟨[],.nil⟩

def insertSorted (config : ScheduleConfig) : List ScheduleConfig → List ScheduleConfig
  | [] => [config]
  | c::cs =>
    if config.stepUuid < c.stepUuid then config::c::cs
    else if c.stepUuid < config.stepUuid then c::insertSorted config cs
    else c::cs

private theorem mem_of_mem_insertSorted {config c : ScheduleConfig} {cs : List ScheduleConfig}
    (h : c ∈ insertSorted config cs) : c = config ∨ c ∈ cs := by
  induction cs with
  | nil => simpa [insertSorted] using h
  | cons d ds ih =>
    unfold insertSorted at h
    split at h
    · simpa using h
    · split at h
      · rcases List.mem_cons.mp h with rfl | h
        · simp
        · rcases ih h with rfl | h <;> simp [*]
      · exact .inr h

theorem sorted_insertSorted (config : ScheduleConfig) {cs : List ScheduleConfig}
    (h : cs.Pairwise fun lhs rhs => lhs.stepUuid < rhs.stepUuid) :
    (insertSorted config cs).Pairwise fun lhs rhs => lhs.stepUuid < rhs.stepUuid := by
  induction cs with
  | nil => simp [insertSorted]
  | cons d ds ih =>
    obtain ⟨hd,hds⟩ := List.pairwise_cons.mp h
    unfold insertSorted
    split
    · rename_i hlt
      refine List.pairwise_cons.mpr ⟨?_,h⟩
      intro c hc
      rcases List.mem_cons.mp hc with rfl | hc
      · exact hlt
      · exact hlt.trans (hd c hc)
    · split
      · rename_i hlt
        refine List.pairwise_cons.mpr ⟨?_,ih hds⟩
        intro c hc
        rcases mem_of_mem_insertSorted hc with rfl | hc
        · exact hlt
        · exact hd c hc
      · exact h

/-- `std::set::insert`. -/
def insert (config : ScheduleConfig) : ScheduleConfigs :=
  ⟨insertSorted config configs.items,sorted_insertSorted config configs.sorted⟩

def insertAll (list : List ScheduleConfig) : ScheduleConfigs := list.foldl insert configs

def cycles : List Int := configs.items.map (·.cycleTimeUs)

end ScheduleConfigs

namespace CalcHelper

/-- `CalcHelper::GCD`: each turn reduces both arguments once. -/
def GCD (a b : Int) : Int :=
  if a = 0 then b
  else if b.tmod a = 0 then a
  else GCD (a.tmod (b.tmod a)) (b.tmod a)
termination_by a.natAbs
decreasing_by
  have hb : (b.tmod a).natAbs < a.natAbs := by
    rw [Int.natAbs_tmod]
    exact Nat.mod_lt _ (by omega)
  have ha : (a.tmod (b.tmod a)).natAbs < (b.tmod a).natAbs := by
    rw [Int.natAbs_tmod]
    exact Nat.mod_lt _ (by omega)
  omega

/-- `CalcHelper::LCM`: the product may leave the 64-bit range. -/
def LCM (a b : Int) : Int :=
  let temp := GCD a b
  if temp ≠ 0 then wrap64 (a.tdiv temp * b) else 0

def lcm (v : List Int) : Int := v.foldl LCM 1

/-- The head of `v` also starts the fold. -/
def gcd (v : List Int) : Int := v.foldl GCD (v.headD 0)

end CalcHelper

/-- `ScheduleReceivedMap`: the uuids that are due, and whether they have answered. -/
abbrev ScheduleReceivedMap := AList fun _ : String => Bool

/-- `calculate_lcm_and_gcd`; without a configuration there is nothing to compute. -/
def calculateLcmAndGcd (configs : ScheduleConfigs) : Option (Int × Int) :=
  let periods := configs.cycles
  if periods.length = 0 then none else some (CalcHelper.lcm periods,CalcHelper.gcd periods)

structure ScheduleItem where
  scheduleReceivedMap : ScheduleReceivedMap
  hasConfiguredStep : Bool

namespace ScheduleItem
variable (item : ScheduleItem)

def new : ScheduleItem := ⟨∅,false⟩

def markStepForCurrentSchedule (senderUuid : String) : ScheduleItem × Bool :=
  match item.scheduleReceivedMap.lookup senderUuid with
  | none => (item,false)
  | some true => (item,false)
  | some false => ({item with scheduleReceivedMap := item.scheduleReceivedMap.insert senderUuid true},true)

def isCurrentScheduleComplete : Bool := item.scheduleReceivedMap.entries.all fun e => e.1.isEmpty || e.2

def isStepInCurrentSchedule : Bool := 0 < item.scheduleReceivedMap.entries.length

def isConfiguredStepInCurrentSchedule : Bool := item.hasConfiguredStep

/-- Take every answer back. -/
def clearStepCompleteInternal : ScheduleItem :=
  { item with
    scheduleReceivedMap :=
      { entries := item.scheduleReceivedMap.entries.map fun e => ⟨e.1,false⟩
        nodupKeys := by
          simpa [List.NodupKeys,List.keys,Function.comp_def] using
            item.scheduleReceivedMap.nodupKeys } }

/-- `std::map::insert` leaves an entry that is already there alone. -/
def insertScheduleConfig (config : ScheduleConfig) : ScheduleItem :=
  let received := if config.stepUuid ∈ item.scheduleReceivedMap then item.scheduleReceivedMap
    else item.scheduleReceivedMap.insert config.stepUuid false
  ⟨received,received.entries.any fun e => !e.1.isEmpty⟩

end ScheduleItem

structure ScheduleMap where
  scheduleVector : List ScheduleItem
  cycleTimeUs : Int
  currentIndex : Nat

namespace ScheduleMap
variable (map : ScheduleMap)

def new : ScheduleMap := ⟨[],0,0⟩

/-- `std::vector::resize`: items that stay keep their content. -/
def resizeVector (vector : List ScheduleItem) (size : Nat) : List ScheduleItem :=
  vector.take size ++ List.replicate (size - vector.length) .new

/-- Simulation time of slot `i`; the product is computed in 64 bits. -/
def slotTime (cycleTimeUs : Int) (i : Nat) : Int := wrap64 (cycleTimeUs * i)

/-- Enter every configuration that is due at `currentTi` into a slot. -/
def fillSlot (configs : ScheduleConfigs) (currentTi : Int) (item : ScheduleItem) : ScheduleItem :=
  configs.items.foldl (fun item config =>
    if currentTi.tmod config.cycleTimeUs = 0 then item.insertScheduleConfig config else item) item

/-- `ScheduleMap::configure`; `none` is the division by a zero divisor. The size is
compared as an unsigned number, so a negative one is too big. -/
def configure (maxSize : Nat) (map : ScheduleMap) (configs : ScheduleConfigs) :
    Option (ScheduleMap × Bool) :=
  match calculateLcmAndGcd configs with
  | none => some ({map with scheduleVector := resizeVector map.scheduleVector 0, currentIndex := 0},true)
  | some (lcm,gcd) =>
    if gcd = 0 then none
    else
      let schedule := lcm.tdiv gcd
      if schedule < 0 ∨ (maxSize : Int) < schedule then
        some ({map with scheduleVector := resizeVector map.scheduleVector 0},false)
      else
        let vector := resizeVector map.scheduleVector schedule.toNat
        some ({ scheduleVector := vector.mapIdx fun i item => fillSlot configs (slotTime gcd i) item
                cycleTimeUs := gcd
                currentIndex := 0 },true)

/-- `ScheduleMap::reset` keeps the index. -/
def reset : ScheduleMap := {map with scheduleVector := [], cycleTimeUs := 0}

/-- The slot the index denotes; reading past the vector is undefined. -/
def currentItem : Option ScheduleItem := map.scheduleVector[map.currentIndex]?

/-- Change the slot the index denotes. -/
def modifyCurrent (f : ScheduleItem → ScheduleItem) : ScheduleMap :=
  {map with scheduleVector := map.scheduleVector.modify map.currentIndex f}

def markStepForCurrentSchedule (map : ScheduleMap) (senderUuid : String) : Option (ScheduleMap × Bool) :=
  if map.scheduleVector.length = 0 then some (map,false)
  else
    map.currentItem.map fun item =>
      let (marked,result) := item.markStepForCurrentSchedule senderUuid
      (map.modifyCurrent fun _ => marked,result)

def isCurrentScheduleComplete (map : ScheduleMap) : Option Bool :=
  if map.scheduleVector.length = 0 then some false
  else map.currentItem.map (·.isCurrentScheduleComplete)

def isStepInCurrentSchedule (map : ScheduleMap) : Option Bool := map.currentItem.map (·.isStepInCurrentSchedule)

def isConfiguredStepInCurrentSchedule (map : ScheduleMap) : Option Bool :=
  map.currentItem.map (·.isConfiguredStepInCurrentSchedule)

def clearStepCompleteInternal (map : ScheduleMap) : Option ScheduleMap :=
  if map.scheduleVector.length = 0 then some map
  else map.currentItem.map fun item => map.modifyCurrent fun _ => item.clearStepCompleteInternal

/-- Clear the slot that is left, then go on to the next one and wrap at the end. -/
def incrementCurrentSchedule : Option ScheduleMap :=
  map.clearStepCompleteInternal.map fun cleared =>
    let next := cleared.currentIndex + 1
    {cleared with currentIndex := if cleared.scheduleVector.length ≤ next then 0 else next}

def getCycleTime : Int := map.cycleTimeUs

end ScheduleMap

end FepParticipant.Timing
