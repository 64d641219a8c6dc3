import FepParticipant.Library.Reachability
import FepParticipant.Timing.ScheduleTable
import FepParticipant.Timing.TimingMaster

/-! The lock step of a timing master and its clients: the slots the master walks
through and the time progress every client sums up fire the same tasks. -/
namespace FepParticipant.Timing
open Library List Option Nat Int ScheduleMap TimingClient

/-- What one `DoNextSchedule` did: its tick, whether the master then waits, the slot it entered, and the tasks fired. -/
structure Execution where
  tick : Option TriggerTick
  waits : Bool
  slot : ScheduleItem
  fired : List String

structure LockedStep (S : Type) where
  master : TimingMaster S
  clients : List (TimingClient S)
  executions : List Execution

inductive LockedStepAction where
  | doNextSchedule
  | updateAck (ack : TriggerAck)

namespace LockedStep

variable {S : Type} [CountingSemaphore S]
variable {n : Nat} {master : TimingMaster S}

def deliver (clients : List (TimingClient S)) : Option TriggerTick → List (TimingClient S)
  | none => clients
  | some tick => clients.map fun client => (client.update tick).1

def firedBy (clients : List (TimingClient S)) : Option TriggerTick → List String
  | none => []
  | some _ => clients.flatMap TimingClient.firedTasks

/-- One execution of the schedule whose tick reaches every client, or one acknowledgement. -/
def step (s : LockedStep S) : LockedStepAction → Option (LockedStep S)
  | .doNextSchedule => do
    let (master,tick,waits) ← s.master.doNextSchedule
    let slot ← master.scheduleMap.currentItem
    let clients := deliver s.clients tick
    return ⟨master,clients,s.executions ++ [⟨tick,waits,slot,firedBy clients tick⟩]⟩
  | .updateAck ack => (s.master.updateAck ack).map fun master => {s with master := master}

/-- A run just started at simulation time `t0`: the table was configured, and the clients' tasks are those of the
configurations. -/
structure Started (maxSize : Nat) (configs : ScheduleConfigs) (t0 : Int) (s : LockedStep S) : Prop where
  configured : ∃ map, ScheduleMap.configure maxSize (ScheduleMap.reset map) configs =
    some (s.master.scheduleMap,true)
  initial : s.master.isInitialScheduleFlag = true
  duration : s.master.durationSinceLastTick = 0
  time : s.master.currentTime = t0
  clients : ∀ client ∈ s.clients, client.currentSimulationTime = 0 ∧ client.timeProgressSum = 0
  tasks (config : ScheduleConfig) : (∃ client ∈ s.clients, config ∈ client.fillScheduleList) ↔
    config.stepUuid ≠ "" ∧ config ∈ configs.items
  executions : s.executions = []

/-- The latest of the first `n` executions that was due, and 0 where there is none. -/
def lastDue (due : Nat → Bool) : Nat → Nat
  | 0 => 0
  | n + 1 => if due n then n else lastDue due n

theorem lastDue_le (due : Nat → Bool) : lastDue due n ≤ n := by
  induction n with
  | zero => rfl
  | succ n ih =>
    unfold lastDue
    split
    · exact le_succ n
    · exact ih.trans (le_succ n)

theorem lastDue_eq {due : Nat → Bool} {i j : Nat} (hij : i < j) (hi : due i = true)
    (hbetween : ∀ k, i < k → k < j → due k = false) : lastDue due j = i := by
  induction j, hij using le_induction with
  | base => simp [lastDue,hi]
  | succ j hij ih =>
    have hj : due j = false := hbetween j hij (lt_succ_self j)
    simp only [lastDue,hj]
    exact ih fun k hik hkj => hbetween k hik (hkj.trans (lt_succ_self j))

variable (configs : ScheduleConfigs) (t0 : Int)

def tickTime : Int := commonDivisor configs.cycles

/-- Some configuration is due at execution `n`. -/
def due (n : Nat) : Bool := configs.items.any fun config => (n * tickTime configs).tmod config.cycleTimeUs == 0

theorem due_iff (n : Nat) : due configs n = true ↔
    ∃ config ∈ configs.items, config.cycleTimeUs ∣ n * tickTime configs := by
  simp only [due,List.any_eq_true,beq_iff_eq]
  exact exists_congr fun config => and_congr_right fun _ => ⟨dvd_of_tmod_eq_zero,tmod_eq_zero_of_dvd⟩

/-- The tick of execution `n`. -/
def tickAt (n : Nat) : TriggerTick := ⟨t0 + n * tickTime configs,(n - lastDue (due configs) n) * tickTime configs⟩

/-- Slot `i` of the table has exactly the tasks that are due at `i` ticks. -/
structure TableInStep (map : ScheduleMap) : Prop where
  cycle : map.cycleTimeUs = tickTime configs
  span : (map.scheduleVector.length : Int) * tickTime configs = commonMultiple configs.cycles
  mem {i : Nat} {item : ScheduleItem} (uuid : String) : map.scheduleVector[i]? = some item →
    (uuid ∈ item.scheduleReceivedMap ↔
      ∃ config ∈ configs.items, config.stepUuid = uuid ∧ config.cycleTimeUs ∣ i * tickTime configs)
  flag {i : Nat} {item : ScheduleItem} : map.scheduleVector[i]? = some item → item.FlagAgrees

/-- The master after `n` executions. -/
structure MasterInStep (n : Nat) (master : TimingMaster S) : Prop where
  table : TableInStep configs master.scheduleMap
  valid : master.scheduleMap.IndexValid
  index : master.scheduleMap.currentIndex = (n - 1) % master.scheduleMap.scheduleVector.length
  initial : master.isInitialScheduleFlag = decide (n = 0)
  time : master.currentTime = t0 + n * tickTime configs
  duration : master.durationSinceLastTick = (n - lastDue (due configs) n) * tickTime configs

/-- A client after `n` executions. -/
structure ClientInStep (n : Nat) (client : TimingClient S) : Prop where
  sum : client.timeProgressSum = lastDue (due configs) n * tickTime configs
  current : client.currentSimulationTime = if n = 0 then 0 else t0 + lastDue (due configs) n * tickTime configs

variable {configs t0}

theorem TableInStep.of_sameTable {map other : ScheduleMap} (ht : TableInStep configs map)
    (h : ScheduleMap.SameTable map other) : TableInStep configs other where
  cycle := h.cycle.trans ht.cycle
  span := by rw [h.length,ht.span]
  mem uuid hitem' := by
    obtain ⟨item,hitem,hsame⟩ := h.slot hitem'
    rw [hsame.mem,ht.mem uuid hitem]
  flag hitem' := by
    obtain ⟨item,hitem,hsame⟩ := h.slot hitem'
    exact hsame.flagAgrees (ht.flag hitem)

/-- No clock of the run leaves the signed 64-bit range within `n` executions. -/
structure InRange (configs : ScheduleConfigs) (t0 : Int) (n : Nat) : Prop where
  start : -2 ^ 63 ≤ t0
  progress : n * tickTime configs < 2 ^ 63
  time : t0 + n * tickTime configs < 2 ^ 63

theorem InRange.mono {m n : Nat} (hg : 0 ≤ tickTime configs) (h : InRange configs t0 n)
    (hmn : m ≤ n) : InRange configs t0 m := by
  have hle : (m : Int) * tickTime configs ≤ n * tickTime configs :=
    Int.mul_le_mul_of_nonneg_right (by exact_mod_cast hmn) hg
  exact ⟨h.start,hle.trans_lt h.progress,by have := h.time; omega⟩

omit [CountingSemaphore S] in
theorem enter_slot {n : Nat} {master : TimingMaster S} (hm : MasterInStep configs t0 n master) :
    ∃ map, master.nextScheduleMap = some map ∧ ScheduleMap.SameTable master.scheduleMap map ∧ map.IndexValid ∧
      map.currentIndex = n % map.scheduleVector.length := by
  rw [TimingMaster.nextScheduleMap,hm.initial]
  by_cases hn : n = 0
  · subst hn
    exact ⟨master.scheduleMap,by simp,.refl _,hm.valid,by simpa using hm.index⟩
  · refine ⟨_,by simpa [hn] using increment_eq hm.valid,?_⟩
    obtain ⟨hsame,hvalid⟩ := sameTable_increment hm.valid (increment_eq hm.valid)
    refine ⟨hsame,hvalid,?_⟩
    have hsucc : n - 1 + 1 = n := by omega
    simp only [length_modify]
    rw [hm.index,mod_add_mod,hsucc]

theorem slot_tasks {n : Nat} {map : ScheduleMap} {item : ScheduleItem}
    (ht : TableInStep configs map) (hitem : map.scheduleVector[n % map.scheduleVector.length]? = some item)
    (uuid : String) : uuid ∈ item.scheduleReceivedMap ↔
      ∃ config ∈ configs.items, config.stepUuid = uuid ∧ config.cycleTimeUs ∣ n * tickTime configs := by
  rw [ht.mem uuid hitem]
  refine exists_congr fun config => and_congr_right fun hmem => and_congr_right fun _ => ?_
  have hspan : config.cycleTimeUs ∣ map.scheduleVector.length * tickTime configs := by
    rw [ht.span]
    exact dvd_commonMultiple (mem_map_of_mem hmem)
  have := dvd_slot_iff hspan n
  rwa [← natCast_emod] at this

theorem isStep_eq_due {n : Nat} {item : ScheduleItem} (htasks : ∀ uuid, uuid ∈ item.scheduleReceivedMap ↔
      ∃ config ∈ configs.items, config.stepUuid = uuid ∧ config.cycleTimeUs ∣ n * tickTime configs) :
    item.isStepInCurrentSchedule = due configs n := by
  rw [Bool.eq_iff_iff,ScheduleItem.isStep_iff,due_iff]
  simp only [htasks]
  constructor
  · rintro ⟨uuid,config,hmem,-,hdvd⟩
    exact ⟨config,hmem,hdvd⟩
  · rintro ⟨config,hmem,hdvd⟩
    exact ⟨config.stepUuid,config,hmem,rfl,hdvd⟩

section
omit [CountingSemaphore S]

theorem doNextSchedule_inStep {n : Nat} {master : TimingMaster S} (hg : 0 < tickTime configs)
    (hr : InRange configs t0 (n + 1)) (hm : MasterInStep configs t0 n master) :
    ∃ master' item, master.doNextSchedule = some (master',
        if due configs n then some (tickAt configs t0 n) else none,
        due configs n && item.hasConfiguredStep) ∧
      master'.scheduleMap.currentItem = some item ∧ MasterInStep configs t0 (n + 1) master' ∧
      item.FlagAgrees ∧ ∀ uuid, uuid ∈ item.scheduleReceivedMap ↔
        ∃ config ∈ configs.items, config.stepUuid = uuid ∧ config.cycleTimeUs ∣ n * tickTime configs := by
  obtain ⟨map,henter,hsame,hvalid,hindex⟩ := enter_slot hm
  obtain ⟨item,hitem⟩ := currentItem_of_valid hvalid
  have htable := hm.table.of_sameTable hsame
  have hslot : map.scheduleVector[n % map.scheduleVector.length]? = some item := by
    rw [← hindex]
    exact hitem
  have htasks := slot_tasks htable hslot
  have hstep := isStep_eq_due htasks
  have hcycle : map.getCycleTime = tickTime configs := htable.cycle
  have hlast : (lastDue (due configs) n : Int) * tickTime configs ≤ n * tickTime configs :=
    Int.mul_le_mul_of_nonneg_right (by exact_mod_cast lastDue_le _) hg.le
  have hlast0 : 0 ≤ (lastDue (due configs) n : Int) * tickTime configs := Int.mul_nonneg (Int.natCast_nonneg _) hg.le
  have hsucc : ((n + 1 : Nat) : Int) * tickTime configs = n * tickTime configs + tickTime configs := by
    push_cast
    ring
  have hprogress := hr.progress
  have htime := hr.time
  have hstart := hr.start
  have hsub : ((n : Int) - lastDue (due configs) n) * tickTime configs =
      n * tickTime configs - lastDue (due configs) n * tickTime configs := by ring
  refine ⟨master.entered map item,item,?_,hitem,⟨htable,hvalid,hindex,?_,?_,?_⟩,htable.flag hslot,htasks⟩
  · rw [TimingMaster.doNextSchedule_eq henter hitem,hstep,TimingMaster.tickToSend,hm.time,hm.duration,tickAt]
  · simp [TimingMaster.entered]
  · simp only [TimingMaster.entered,hm.time,hcycle]
    rw [hsucc,← add_assoc]
    exact wrap64_of_range (by omega) (by omega)
  · simp only [TimingMaster.entered,hm.duration,hcycle,hstep,lastDue]
    by_cases hdue : due configs n
    · simp only [hdue,if_true]
      rw [wrap64_of_nonneg (by omega) (by omega)]
      push_cast
      ring
    · simp only [hdue]
      rw [if_neg (by simp),if_neg (by simp),hsub,wrap64_of_nonneg (by omega) (by omega)]
      push_cast
      ring

private theorem progress_split (configs : ScheduleConfigs) (t0 : Int) (n : Nat) (t : Int)
    (hlo : -2 ^ 63 ≤ t + n * tickTime configs) (hhi : t + n * tickTime configs < 2 ^ 63) :
    wrap64 (t + lastDue (due configs) n * tickTime configs + (tickAt configs t0 n).simTimeStep) =
      t + n * tickTime configs := by
  have hstep : t + lastDue (due configs) n * tickTime configs + (tickAt configs t0 n).simTimeStep =
      t + n * tickTime configs := by
    simp only [tickAt]
    ring
  rw [hstep]
  exact wrap64_of_range hlo hhi

end

theorem update_inStep {n : Nat} {client : TimingClient S} (hg : 0 < tickTime configs)
    (hr : InRange configs t0 (n + 1)) (hdue : due configs n = true) (hc : ClientInStep configs t0 n client) :
    ClientInStep configs t0 (n + 1) (client.update (tickAt configs t0 n)).1 ∧
      (client.update (tickAt configs t0 n)).1.timeProgressSum = n * tickTime configs := by
  have hn : InRange configs t0 n := hr.mono hg.le n.le_succ
  have hnonneg : 0 ≤ n * tickTime configs := Int.mul_nonneg (Int.natCast_nonneg _) hg.le
  have hprogress := hn.progress
  have horder : client.outOfOrder (tickAt configs t0 n) = false := by
    by_cases h0 : n = 0
    · simp [TimingClient.outOfOrder,hc.current,h0]
    · have hsplit := progress_split configs t0 n t0 (by have := hn.start; omega) hn.time
      simp only [TimingClient.outOfOrder,hc.current,h0,if_false,hsplit]
      simp [tickAt]
  have hsum := progress_split configs t0 n 0 (by omega) (by omega)
  simp only [zero_add] at hsum
  obtain ⟨hcurrent,hsum'⟩ := update_of_inOrder horder
  rw [hc.sum,hsum] at hsum'
  refine ⟨⟨?_,?_⟩,hsum'⟩
  · rw [hsum']
    simp [lastDue,hdue]
  · rw [hcurrent]
    simp [lastDue,hdue,tickAt]

/-- What the schedule prescribes for execution `n`. -/
structure ExecutionInStep (configs : ScheduleConfigs) (t0 : Int) (n : Nat) (e : Execution) : Prop where
  tick : e.tick = if due configs n then some (tickAt configs t0 n) else none
  slot (uuid : String) : uuid ∈ e.slot.scheduleReceivedMap ↔
    ∃ config ∈ configs.items, config.stepUuid = uuid ∧ config.cycleTimeUs ∣ n * tickTime configs
  waits : e.waits = true ↔ ∃ uuid, e.slot.Awaits uuid
  fired (uuid : String) : uuid ∈ e.fired ↔ e.slot.Awaits uuid

/-- Master, clients and everything executed so far are in step. -/
structure InStep (configs : ScheduleConfigs) (t0 : Int) (s : LockedStep S) : Prop where
  master : MasterInStep configs t0 s.executions.length s.master
  clients : ∀ client ∈ s.clients, ClientInStep configs t0 s.executions.length client
  tasks (config : ScheduleConfig) : (∃ client ∈ s.clients, config ∈ client.fillScheduleList) ↔
    config.stepUuid ≠ "" ∧ config ∈ configs.items
  executions {n : Nat} {e : Execution} : s.executions[n]? = some e → ExecutionInStep configs t0 n e

variable {maxSize : Nat} {s s' : LockedStep S}

/-- There is a configuration, every cycle is positive, and their least common multiple fits a signed 64-bit word. -/
structure Schedulable (configs : ScheduleConfigs) : Prop where
  nonempty : configs.items ≠ []
  positive : ∀ cycle ∈ configs.cycles, 0 < cycle
  inRange : commonMultiple configs.cycles < 2 ^ 63

theorem Schedulable.tickTime_pos (hs : Schedulable configs) : 0 < tickTime configs :=
  commonDivisor_pos (by simpa [ScheduleConfigs.cycles] using hs.nonempty) hs.positive

section
omit [CountingSemaphore S]

private theorem Started.tableInStep (hs : Schedulable configs) (h : Started maxSize configs t0 s) :
    TableInStep configs s.master.scheduleMap := by
  obtain ⟨map,hconfigure⟩ := h.configured
  obtain ⟨hcycle,hspan⟩ := configure_period hs.nonempty hs.positive hs.inRange hconfigure
  obtain ⟨-,hslots⟩ := configure_slots rfl hconfigure
  refine ⟨hcycle,hspan,fun {i item} uuid hitem => ?_,fun {i item} hitem => (hslots i item hitem).flag⟩
  have hlt : (i : Int) < s.master.scheduleMap.scheduleVector.length := by
    exact_mod_cast (List.getElem?_eq_some_iff.mp hitem).1
  have htime : ScheduleMap.slotTime s.master.scheduleMap.cycleTimeUs i = i * tickTime configs := by
    have hle := Int.mul_le_mul_of_nonneg_right hlt.le hs.tickTime_pos.le
    have hnonneg : 0 ≤ (i : Int) * tickTime configs := Int.mul_nonneg (Int.natCast_nonneg _) hs.tickTime_pos.le
    have hrange := hs.inRange
    rw [← hspan] at hrange
    rw [ScheduleMap.slotTime,hcycle,mul_comm]
    exact wrap64_of_nonneg hnonneg (hle.trans_lt hrange)
  rw [(hslots i item hitem).mem uuid,htime]

theorem Started.inStep (hs : Schedulable configs) (h : Started maxSize configs t0 s) : InStep configs t0 s := by
  have htable := h.tableInStep hs
  obtain ⟨map,hconfigure⟩ := h.configured
  obtain ⟨hindex,-⟩ := configure_slots rfl hconfigure
  have hlength : 0 < s.master.scheduleMap.scheduleVector.length := by
    have hpos := commonMultiple_pos hs.positive
    rw [← htable.span] at hpos
    rcases Nat.eq_zero_or_pos s.master.scheduleMap.scheduleVector.length with h0 | h0
    · simp [h0] at hpos
    · exact h0
  refine ⟨⟨htable,?_,?_,?_,?_,?_⟩,fun client hc => ⟨?_,?_⟩,h.tasks,fun he => ?_⟩
  · rw [ScheduleMap.IndexValid,hindex]
    exact hlength
  · simp [hindex,h.executions]
  · simp [h.initial,h.executions]
  · simp [h.time,h.executions]
  · simp [h.duration,h.executions,lastDue]
  · simp [(h.clients client hc).2,h.executions,lastDue]
  · simp [(h.clients client hc).1,h.executions]
  · simp [h.executions] at he

end

private theorem due_zero (hs : Schedulable configs) : due configs 0 = true := by
  obtain ⟨config,cs,hitems⟩ := exists_cons_of_ne_nil hs.nonempty
  exact (due_iff configs 0).mpr ⟨config,by simp [hitems],by simp⟩

omit [CountingSemaphore S] in
private theorem skip_inStep {n : Nat} {client : TimingClient S} (hs : Schedulable configs)
    (hdue : due configs n = false) (hc : ClientInStep configs t0 n client) :
    ClientInStep configs t0 (n + 1) client := by
  have hn : n ≠ 0 := by
    rintro rfl
    simp [due_zero hs] at hdue
  exact ⟨by simp [hc.sum,lastDue,hdue],by simp [hc.current,lastDue,hdue,hn]⟩

variable {clients : List (TimingClient S)}

theorem clients_inStep {n : Nat} (hs : Schedulable configs)
    (hr : InRange configs t0 (n + 1)) (hc : ∀ client ∈ clients, ClientInStep configs t0 n client) :
    ∀ client ∈ deliver clients (if due configs n then some (tickAt configs t0 n) else none),
      ClientInStep configs t0 (n + 1) client := by
  intro client' hmem
  cases hdue : due configs n with
  | true =>
    simp only [hdue,if_true,deliver,List.mem_map] at hmem
    obtain ⟨client,hclient,rfl⟩ := hmem
    exact (update_inStep hs.tickTime_pos hr hdue (hc client hclient)).1
  | false =>
    rw [hdue,if_neg (by simp)] at hmem
    exact skip_inStep hs hdue (hc client' hmem)

theorem tasks_deliver (tick : Option TriggerTick)
    (config : ScheduleConfig) : (∃ client ∈ deliver clients tick, config ∈ client.fillScheduleList) ↔
      ∃ client ∈ clients, config ∈ client.fillScheduleList := by
  cases tick with
  | none => exact Iff.rfl
  | some tick => simp only [deliver,List.mem_map,exists_exists_and_eq_and,fillScheduleList_update]

private theorem mem_firedBy {n : Nat} (hs : Schedulable configs)
    (hr : InRange configs t0 (n + 1)) (hc : ∀ client ∈ clients, ClientInStep configs t0 n client)
    (htasks : ∀ config, (∃ client ∈ clients, config ∈ client.fillScheduleList) ↔
      config.stepUuid ≠ "" ∧ config ∈ configs.items) (hdue : due configs n = true) (uuid : String) :
    uuid ∈ firedBy (deliver clients (some (tickAt configs t0 n))) (some (tickAt configs t0 n)) ↔
      uuid ≠ "" ∧ ∃ config ∈ configs.items, config.stepUuid = uuid ∧ config.cycleTimeUs ∣ n * tickTime configs := by
  simp only [firedBy,deliver,mem_flatMap,List.mem_map,exists_exists_and_eq_and,
    mem_firedTasks,fillScheduleList_update]
  constructor
  · rintro ⟨client,hclient,config,hconfig,rfl,hdvd⟩
    rw [(update_inStep hs.tickTime_pos hr hdue (hc client hclient)).2] at hdvd
    obtain ⟨hne,hmem⟩ := (htasks config).mp ⟨client,hclient,hconfig⟩
    exact ⟨hne,config,hmem,rfl,hdvd⟩
  · rintro ⟨hne,config,hmem,rfl,hdvd⟩
    obtain ⟨client,hclient,hconfig⟩ := (htasks config).mpr ⟨hne,hmem⟩
    refine ⟨client,hclient,config,hconfig,rfl,?_⟩
    rwa [(update_inStep hs.tickTime_pos hr hdue (hc client hclient)).2]

theorem inStep_doNextSchedule (hs : Schedulable configs)
    (hr : InRange configs t0 (s.executions.length + 1)) (h : InStep configs t0 s) :
    ∃ s', step s .doNextSchedule = some s' ∧ s'.executions.length = s.executions.length + 1 ∧ InStep configs t0 s' := by
  obtain ⟨master',item,hnext,hitem,hmaster,hflag,htasks⟩ := doNextSchedule_inStep hs.tickTime_pos hr h.master
  let tick := if due configs s.executions.length then some (tickAt configs t0 s.executions.length) else none
  let clients' := deliver s.clients tick
  let e : Execution := ⟨tick,due configs s.executions.length && item.hasConfiguredStep,item,firedBy clients' tick⟩
  have hawaits (uuid : String) : item.Awaits uuid → due configs s.executions.length = true := by
    rintro ⟨-,hmem⟩
    obtain ⟨config,hconfig,-,hdvd⟩ := (htasks uuid).mp hmem
    exact (due_iff configs _).mpr ⟨config,hconfig,hdvd⟩
  have hexecution : ExecutionInStep configs t0 s.executions.length e := by
    refine ⟨rfl,htasks,?_,fun uuid => ?_⟩
    · have hflag' : item.hasConfiguredStep = true ↔ ∃ uuid, item.Awaits uuid := hflag
      simp only [e,Bool.and_eq_true,hflag']
      exact ⟨And.right,fun ⟨uuid,hu⟩ => ⟨hawaits uuid hu,uuid,hu⟩⟩
    · cases hdue : due configs s.executions.length with
      | true =>
        simp only [e,clients',tick,hdue,if_true]
        rw [mem_firedBy hs hr h.clients h.tasks hdue uuid,← htasks uuid]
        exact Iff.rfl
      | false =>
        have hnone : tick = none := by simp [tick,hdue]
        simp only [e,hnone,firedBy,not_mem_nil,false_iff]
        intro hu
        rw [hawaits uuid hu] at hdue
        cases hdue
  refine ⟨⟨master',clients',s.executions ++ [e]⟩,?_,by simp,⟨?_,?_,?_,?_⟩⟩
  · simp only [step,hnext,hitem,Option.bind_eq_bind,Option.bind_some,Option.pure_def,e,clients',tick]
  · simpa using hmaster
  · simpa using clients_inStep hs hr h.clients
  · exact fun config => (tasks_deliver tick config).trans (h.tasks config)
  · intro n e' he
    rcases lt_trichotomy n s.executions.length with hlt | rfl | hgt
    · exact h.executions (by simpa [getElem?_append_left hlt] using he)
    · obtain rfl : e = e' := by simpa using he
      exact hexecution
    · have := (List.getElem?_eq_some_iff.mp he).1
      simp at this
      omega

private theorem inStep_updateAck {ack : TriggerAck} (h : InStep configs t0 s)
    (hstep : step s (.updateAck ack) = some s') :
    s'.executions = s.executions ∧ InStep configs t0 s' := by
  obtain ⟨master',hupdate,rfl⟩ := map_eq_some_iff.mp hstep
  obtain ⟨⟨map,marked⟩,hmark,rfl⟩ := map_eq_some_iff.mp hupdate
  obtain ⟨hsame,hindex⟩ := sameTable_mark hmark
  refine ⟨rfl,⟨⟨h.master.table.of_sameTable hsame,hsame.indexValid hindex h.master.valid,?_,h.master.initial,
    h.master.time,h.master.duration⟩,h.clients,h.tasks,h.executions⟩⟩
  rw [hindex,hsame.length]
  exact h.master.index

private theorem length_doNextSchedule (hstep : step s .doNextSchedule = some s') :
    s'.executions.length = s.executions.length + 1 := by
  simp only [step,bind_eq_bind,bind_eq_some_iff] at hstep
  obtain ⟨_,_,_,_,hs'⟩ := hstep
  cases hs'
  simp

theorem inStep_of_reaches {s0 : LockedStep S} (hs : Schedulable configs)
    (h0 : Started maxSize configs t0 s0) (hreach : Reaches step anyAction s0 s)
    (hr : InRange configs t0 s.executions.length) : InStep configs t0 s := by
  induction hreach with
  | refl => exact h0.inStep hs
  | @tail t u action _ _ hstep ih =>
    cases action with
    | doNextSchedule =>
      have hlength := length_doNextSchedule hstep
      rw [hlength] at hr
      have hin := ih (hr.mono hs.tickTime_pos.le (le_succ _))
      obtain ⟨u',hu',-,hin'⟩ := inStep_doNextSchedule hs hr hin
      obtain rfl := some_inj.mp (hu'.symm.trans hstep)
      exact hin'
    | updateAck ack =>
      obtain ⟨master',_,rfl⟩ := map_eq_some_iff.mp hstep
      exact (inStep_updateAck (ih hr) hstep).2

omit [CountingSemaphore S] in
theorem InStep.consecutive (hin : InStep configs t0 s) {i j : Nat} {ei ej : Execution}
    {ti tj : TriggerTick} (hij : i < j) (hei : s.executions[i]? = some ei) (hej : s.executions[j]? = some ej)
    (hti : ei.tick = some ti) (htj : ej.tick = some tj)
    (hbetween : ∀ k e, i < k → k < j → s.executions[k]? = some e → e.tick = none) :
    tj.currentTime - ti.currentTime = tj.simTimeStep ∧ tj.simTimeStep = (j - i) * tickTime configs := by
  have hdue {n : Nat} {e : Execution} (he : s.executions[n]? = some e) :
      e.tick = if due configs n then some (tickAt configs t0 n) else none := (hin.executions he).tick
  have hi : due configs i = true ∧ tickAt configs t0 i = ti := by
    rw [hdue hei] at hti
    simpa using hti
  have hj : due configs j = true ∧ tickAt configs t0 j = tj := by
    rw [hdue hej] at htj
    simpa using htj
  have hlast : lastDue (due configs) j = i := by
    refine lastDue_eq hij hi.1 fun k hik hkj => ?_
    have hlt : k < s.executions.length := hkj.trans (List.getElem?_eq_some_iff.mp hej).1
    have hnone := hbetween k _ hik hkj (getElem?_eq_getElem hlt)
    rw [hdue (getElem?_eq_getElem hlt)] at hnone
    simpa using hnone
  rw [← hi.2,← hj.2]
  simp only [tickAt,hlast]
  exact ⟨by ring,trivial⟩

/-- Start master and clients; the first trigger sets the simulation time. -/
def startRun (master : TimingMaster S) (clients : List (TimingClient S)) (context : StartContext)
    (triggerTime : Int) : Option (LockedStep S) :=
  match master.start context with
  | some (started,.errNoError,_) => some ⟨started.internalTrigger triggerTime,clients.map (·.start),[]⟩
  | _ => none

theorem started_of_startRun {master : TimingMaster S}
    {context : StartContext} {triggerTime : Int} (hflag : master.isTimingMasterFlag = true)
    (hconfigs : master.startConfigs context = some configs)
    (htasks : ∀ config, (∃ client ∈ clients, config ∈ client.fillScheduleList) ↔
      config.stepUuid ≠ "" ∧ config ∈ configs.items) (h : startRun master clients context triggerTime = some s) :
    Started context.maxScheduleSize configs s.master.currentTime s := by
  unfold startRun at h
  split at h
  · rename_i started effects hstart
    cases h
    cases TimingMaster.start_cases hstart with
    | notMaster hnot => simp [hflag] at hnot
    | notRegistered _ _ hne => exact absurd rfl hne
    | started _ hconfigs' hconfigure _ _ _ =>
      obtain rfl := some_inj.mp (hconfigs.symm.trans hconfigs')
      refine ⟨⟨master.scheduleMap,hconfigure⟩,rfl,rfl,rfl,?_,?_,rfl⟩
      · intro client hclient
        obtain ⟨client,-,rfl⟩ := mem_map.mp hclient
        exact ⟨rfl,rfl⟩
      · intro config
        rw [← htasks config]
        simp [TimingClient.start,TimingClient.fillScheduleList,Task.create]
  · cases h

/-- The amended lock step: the tasks a tick fires are those the master waits for, and between two ticks the clocks
advance by one cycle for each slot walked through. -/
theorem ticks_fire_awaited_tasks {s0 : LockedStep S} (hs : Schedulable configs)
    (h0 : Started maxSize configs t0 s0) (hreach : Reaches step anyAction s0 s)
    (hr : InRange configs t0 (s.executions.length + 1)) : (∃ s', step s .doNextSchedule = some s') ∧
    (∀ e ∈ s.executions, (∀ uuid, uuid ∈ e.fired ↔ e.slot.Awaits uuid) ∧ (e.waits = true ↔ ∃ uuid, e.slot.Awaits uuid) ∧
      (e.tick = none ↔ e.slot.isStepInCurrentSchedule = false)) ∧
    ∀ (i j : Nat) (ei ej : Execution) (ti tj : TriggerTick), i < j →
      s.executions[i]? = some ei → s.executions[j]? = some ej →
      ei.tick = some ti → ej.tick = some tj →
      (∀ k e, i < k → k < j → s.executions[k]? = some e → e.tick = none) →
      tj.currentTime - ti.currentTime = tj.simTimeStep ∧ tj.simTimeStep = (j - i) * commonDivisor configs.cycles := by
  have hin := inStep_of_reaches hs h0 hreach (hr.mono hs.tickTime_pos.le (le_succ _))
  refine ⟨?_,fun e he => ?_,fun i j ei ej ti tj hij hei hej hti htj hbetween =>
    hin.consecutive hij hei hej hti htj hbetween⟩
  · obtain ⟨s',hs',-⟩ := inStep_doNextSchedule hs hr hin
    exact ⟨s',hs'⟩
  · obtain ⟨n,hn⟩ := getElem?_of_mem he
    obtain ⟨htick,hslot,hwaits,hfired⟩ := hin.executions hn
    refine ⟨hfired,hwaits,?_⟩
    rw [htick,isStep_eq_due hslot]
    cases due configs n <;> simp

def clientOf (configs : List ScheduleConfig) : TimingClient Nat where
  taskMap := configs.map fun config =>
    ⟨config.stepUuid,config.stepUuid,config.cycleTimeUs,.ignoreRuntimeViolation,0,0,0,false⟩
  currentSimulationTime := 0
  timeProgressSum := 0
  lastTriggerReceived := 0
  triggerWaitTimerPeriod := 0
  triggerWaitTimerRunning := false
  timingClientRunningFlag := false

/-- A master in system time mode that has been told the given schedule. -/
def masterOf (configs : List ScheduleConfig) : TimingMaster Nat :=
  TimingMaster.updateSchedule { TimingMaster.new with
    isTimingMasterFlag := true
    stepTriggerStrategy := some (.new .systemTime) } configs

def runOf (configs : List ScheduleConfig) (n : Nat) : Option (LockedStep Nat) :=
  (startRun (masterOf configs) [clientOf configs] ⟨1000,[],none,.errNoError⟩ 0).bind fun s =>
    runActions step s (List.replicate n .doNextSchedule)

/-- The ticks of a run, each with the tasks it fired. -/
def observed (s : LockedStep Nat) : List (TriggerTick × List String) :=
  s.executions.filterMap fun e => e.tick.map fun tick => (tick,e.fired)

example : (runOf [⟨"A",2⟩,⟨"B",3⟩] 6).map observed = some [(⟨0,0⟩,["A","B"]),(⟨2,2⟩,["A"]),
    (⟨3,1⟩,["B"]),(⟨4,1⟩,["A"])] := by decide +kernel

theorem ticks_fire_awaited_tasks_two_and_three : ∃ s, runOf [⟨"A",2⟩,⟨"B",3⟩] 7 = some s ∧ s.executions.length = 7 ∧
      ∀ e ∈ s.executions, ∀ uuid, uuid ∈ e.fired ↔ e.slot.Awaits uuid := by
  let list : List ScheduleConfig := [⟨"A",2⟩,⟨"B",3⟩]
  let configs : ScheduleConfigs := .insertAll .empty list
  have hstart : (startRun (masterOf list) [clientOf list] ⟨1000,[],none,.errNoError⟩ 0).isSome := by
    decide +kernel
  obtain ⟨s0,hs0⟩ := isSome_iff_exists.mp hstart
  have hrun : (runOf list 7).isSome := by decide +kernel
  obtain ⟨s,hs⟩ := isSome_iff_exists.mp hrun
  have hlength : (runOf list 7).map (·.executions.length) = some 7 := by decide +kernel
  rw [hs,map_some,some_inj] at hlength
  have hreach : Reaches step anyAction s0 s := by
    rw [runOf,hs0,bind_some] at hs
    exact reaches_of_runActions hs
  have htime : (startRun (masterOf list) [clientOf list] ⟨1000,[],none,.errNoError⟩ 0).map
      (·.master.currentTime) = some 0 := by decide +kernel
  rw [hs0,map_some,some_inj] at htime
  have hstarted : Started 1000 configs 0 s0 := by
    rw [← htime]
    refine started_of_startRun rfl (show (masterOf list).startConfigs _ = some configs from rfl) (fun config => ?_) hs0
    have hitems : configs.items = list := by decide +kernel
    simp only [hitems,mem_singleton,exists_eq_left]
    have hlist : (clientOf list).fillScheduleList = list := rfl
    rw [hlist]
    refine ⟨fun h => ⟨?_,h⟩,And.right⟩
    rcases mem_cons.mp h with rfl | h
    · decide
    · rw [mem_singleton.mp h]
      decide
  have hsched : Schedulable configs := ⟨by decide +kernel,by decide +kernel,by decide +kernel⟩
  have hrange : InRange configs 0 (s.executions.length + 1) := by
    rw [hlength]
    exact ⟨by decide,by decide +kernel,by decide +kernel⟩
  refine ⟨s,hs,hlength,fun e he => ?_⟩
  exact ((ticks_fire_awaited_tasks hsched hstarted hreach hrange).2.1 e he).1

/-- Two consecutive ticks need not be one common divisor apart, and beyond the 64-bit range the master waits for a
task that did not fire. -/
theorem not_every_slot_ticks :
    (∃ s ti tj, runOf [⟨"A",2⟩,⟨"B",3⟩] 3 = some s ∧ (observed s).map Prod.fst = [ti,tj] ∧
      tj.currentTime - ti.currentTime ≠ commonDivisor [2,3]) ∧
    (∃ s, runOf [⟨"A",5⟩,⟨"B",3689348814741910324⟩] 5 = some s ∧
      ∃ e ∈ s.executions, e.waits = true ∧ e.slot.Awaits "A" ∧ "A" ∉ e.fired) ∧
    ∃ s, runOf [⟨"A",4611686018427387905⟩] 3 = some s ∧
      ∃ e ∈ s.executions, e.waits = true ∧ e.slot.Awaits "A" ∧ "A" ∉ e.fired := by
  refine ⟨⟨(runOf [⟨"A",2⟩,⟨"B",3⟩] 3).get (by decide +kernel),⟨0,0⟩,⟨2,2⟩,
      (some_get _).symm,by decide +kernel,by decide +kernel⟩,?_,?_⟩
  · exact ⟨(runOf [⟨"A",5⟩,⟨"B",3689348814741910324⟩] 5).get (by decide +kernel),(some_get _).symm,by decide +kernel⟩
  · exact ⟨(runOf [⟨"A",4611686018427387905⟩] 3).get (by decide +kernel),(some_get _).symm,by decide +kernel⟩

end LockedStep
end FepParticipant.Timing
