import FepParticipant.Timing.TimingSystem
import Mathlib.Data.List.Chain
import Mathlib.Data.List.Range

/-! The ticks of a run of the timing master, and which losses of them a timing client detects: it compares each tick
with the one before, unless the time of the one before is not positive. -/
namespace FepParticipant.Timing
open Library Nat List TimingMaster

/-- Behind a tick with a positive time the next one is later by its own step. -/
def TriggerTick.Precedes (tick next : TriggerTick) : Prop :=
  0 < tick.currentTime → tick.currentTime < next.currentTime ∧
    wrap64 (tick.currentTime + next.simTimeStep) = next.currentTime

namespace TimingMaster
variable {S : Type} [CountingSemaphore S] {master other : TimingMaster S}

/-- The next step of the worker thread runs `DoNextSchedule`. -/
def executes (master : TimingMaster S) : Bool := master.threadFunc.any fun r => r.2 != .idle

/-- The clock of a run is left alone. -/
structure SameClock (master other : TimingMaster S) : Prop where
  time : other.currentTime = master.currentTime
  duration : other.durationSinceLastTick = master.durationSinceLastTick
  cycle : other.scheduleMap.cycleTimeUs = master.scheduleMap.cycleTimeUs
  worker : other.workerThread = none ∨ other.workerThread = master.workerThread

section
omit [CountingSemaphore S]

theorem SameClock.of_sameRun (h : TimingSystem.SameRun master other)
    (hduration : other.durationSinceLastTick = master.durationSinceLastTick) : SameClock master other :=
  ⟨h.time,hduration,congrArg ScheduleMap.cycleTimeUs h.map,h.worker⟩

private theorem configureAckTimeout_duration (clientTimeout : Option Int) :
    (master.configureAckTimeout clientTimeout).1.durationSinceLastTick = master.durationSinceLastTick := by
  unfold configureAckTimeout
  repeat' split
  all_goals rfl

private theorem configureTriggerMode_duration (props : MasterProperties) (user : Bool) :
    (master.configureTriggerMode props user).1.durationSinceLastTick = master.durationSinceLastTick := by
  unfold configureTriggerMode
  dsimp only
  repeat' split
  all_goals first | rfl | exact configureAckTimeout_duration _

theorem configure_duration {props : MasterProperties} {user : Bool} {transmission : Result}
    {r : TimingMaster S × Result × String} (h : master.configure props user transmission = some r) :
    r.1.durationSinceLastTick = master.durationSinceLastTick := by
  simp only [configure] at h
  split at h
  · cases h
    rfl
  · cases h
    rfl
  · cases h
  · rename_i participant element _ _
    split at h
    · generalize hflagged : ({ master with
          scheduleConfigs := .empty
          isTimingMasterFlag := decide (participant ≠ "" ∧ participant = element) } :
            TimingMaster S) = flagged at h
      have hsame : flagged.durationSinceLastTick = master.durationSinceLastTick := hflagged ▸ rfl
      have hmode := (configureTriggerMode_duration props user).trans hsame
      split at h
      · rename_i heq
        cases h
        rwa [heq] at hmode
      · cases h
        exact hmode
    · cases h
      rfl

theorem reset_duration : master.reset.durationSinceLastTick = master.durationSinceLastTick := by
  unfold reset
  split <;> rfl

end

theorem stop_duration : master.stop.durationSinceLastTick = master.durationSinceLastTick := by
  unfold stop
  split <;> rfl

theorem sameClock_joinWorker (h : master.joinWorker = some other) : SameClock master other := by
  refine .of_sameRun (.joinWorker h) ?_
  unfold joinWorker at h
  split at h
  · cases h
    rfl
  · cases h

theorem sameClock_updateAck {ack : TriggerAck} (h : master.updateAck ack = some other) : SameClock master other := by
  obtain ⟨⟨map,marked⟩,hmark,rfl⟩ := Option.map_eq_some_iff.mp h
  exact ⟨rfl,rfl,(ScheduleMap.sameTable_mark hmark).1.cycle,.inr rfl⟩

theorem precedes_later {tick : TriggerTick} {time duration cycle : Int} (hcycle : 0 < cycle)
    (hlow : -2 ^ 63 ≤ time) (hhigh : time + cycle < 2 ^ 63) (h : tick.Precedes ⟨time,duration⟩) :
    tick.Precedes ⟨wrap64 (time + cycle),wrap64 (duration + cycle)⟩ := by
  intro hpos
  obtain ⟨hlt,hstep⟩ := h hpos
  rw [wrap64_of_range (by omega) hhigh]
  refine ⟨by dsimp only at hlt ⊢; omega,?_⟩
  rw [wrap64_add_wrap64,← Int.add_assoc,← wrap64_wrap64_add,hstep]
  exact wrap64_of_range (by omega) hhigh

theorem precedes_sent {time duration cycle : Int} (hcycle : 0 < cycle)
    (hlow : -2 ^ 63 ≤ time) (hhigh : time + cycle < 2 ^ 63) :
    (⟨time,duration⟩ : TriggerTick).Precedes ⟨wrap64 (time + cycle),wrap64 (0 + cycle)⟩ := by
  intro _
  rw [Int.zero_add,wrap64_of_range (by omega) hhigh]
  refine ⟨by dsimp only; omega,?_⟩
  rw [wrap64_add_wrap64]
  exact wrap64_of_range (by omega) hhigh

end TimingMaster

namespace TimingSystem
variable {S : Type} [CountingSemaphore S] {s s' : TimingSystem S} {action : TimingAction}
variable {sent : Option TriggerTick}

def runTicks (s : TimingSystem S) : List TriggerTick := (s.ticks.filter (·.run == s.run)).map (·.tick)

/-- The times of triggers are 64-bit numbers, and no execution takes the simulation time out of their range. -/
def ClockInRange (s : TimingSystem S) : TimingAction → Prop
  | .internalTrigger triggerTime => -2 ^ 63 ≤ triggerTime ∧ triggerTime < 2 ^ 63
  | .threadFunc => s.master.executes = true → s.master.currentTime + s.master.scheduleMap.cycleTimeUs < 2 ^ 63
  | _ => True

/-- Each tick of the run precedes the next one, and the last one the tick that would be sent now. -/
structure TickInv (s : TimingSystem S) : Prop where
  run : ∀ sent ∈ s.ticks, sent.run ≤ s.run
  cycle : s.master.workerThread ≠ none → 0 < s.master.scheduleMap.cycleTimeUs
  low : -2 ^ 63 ≤ s.master.currentTime
  high : s.master.currentTime < 2 ^ 63
  range : ∀ tick ∈ s.runTicks, tick.currentTime < 2 ^ 63
  chain : (s.runTicks ++ [s.master.tickToSend]).IsChain TriggerTick.Precedes

variable {master : TimingMaster S} {item : ScheduleItem}

section
omit [CountingSemaphore S]

theorem TickInv.sameClock (h : TickInv s) (hsame : s.master.SameClock master) :
    TickInv {s with master := master} where
  run := h.run
  cycle hworker := by
    rw [hsame.cycle]
    apply h.cycle
    rcases hsame.worker with hnone | hworkerSame
    · exact absurd hnone hworker
    · rw [← hworkerSame]
      exact hworker
  low := hsame.time ▸ h.low
  high := hsame.time ▸ h.high
  range := h.range
  chain := by
    have htick : master.tickToSend = s.master.tickToSend := by
      rw [TimingMaster.tickToSend,hsame.time,hsame.duration,TimingMaster.tickToSend]
    rw [htick]
    exact h.chain

private theorem cycle_pos_of_registered {strategy registered : StepTriggerStrategy} {cycle : Int} {user : Result}
    (h : strategy.registerStrategyTrigger cycle user = (registered,.errNoError)) : 0 < cycle := by
  by_contra hcycle
  have hbase : strategy.registerBase cycle = (strategy,.errInvalidArg) := if_pos (not_lt.mp hcycle)
  unfold StepTriggerStrategy.registerStrategyTrigger at h
  rw [hbase] at h
  dsimp only at h
  split at h <;> cases h

private theorem runTicks_of_newRun (h : ∀ sent ∈ s.ticks, sent.run ≤ s.run) :
    s.ticks.filter (fun sent => sent.run == s.run + 1) = [] := by
  refine filter_eq_nil_iff.mpr fun sent hsent hrun => ?_
  have hle := h sent hsent
  have heq : sent.run = s.run + 1 := eq_of_beq hrun
  omega

theorem tickInv_start {context : StartContext} {result : Result}
    {effects : List Effect} (h : TickInv s) (hworker : s.master.workerThread = none)
    (hstart : s.master.start context = some (master,result,effects)) :
    TickInv {s with master := master, run := s.run + 1, executions := 0, triggers := [], firstTick := none} := by
  have hclock : (master.workerThread ≠ none → 0 < master.scheduleMap.cycleTimeUs) ∧
      -2 ^ 63 ≤ master.currentTime ∧ master.currentTime < 2 ^ 63 := by
    cases start_cases hstart with
    | notMaster => exact ⟨fun hsome => absurd hworker hsome,h.low,h.high⟩
    | refused => exact ⟨fun hsome => absurd hworker hsome,h.low,h.high⟩
    | notRegistered =>
      refine ⟨fun hsome => absurd hworker hsome,?_⟩
      unfold TimingMaster.prepareRun
      dsimp only
      split <;> omega
    | started _ _ _ _ hregistered _ =>
      refine ⟨fun _ => cycle_pos_of_registered hregistered,?_⟩
      unfold TimingMaster.startWorker TimingMaster.prepareRun
      dsimp only
      split <;> omega
  have hnil := runTicks_of_newRun h.run
  refine ⟨fun sent hsent => (h.run sent hsent).trans (le_succ _),hclock.1,hclock.2.1,hclock.2.2,?_,?_⟩
  · unfold runTicks
    rw [hnil]
    nofun
  · unfold runTicks
    rw [hnil]
    exact .singleton _

theorem chain_replace {ticks : List TriggerTick} {tick tick' : TriggerTick}
    (h : (ticks ++ [tick]).IsChain TriggerTick.Precedes)
    (hreplace : ∀ last : TriggerTick, last.Precedes tick → last.Precedes tick') :
    (ticks ++ [tick']).IsChain TriggerTick.Precedes := by
  rw [isChain_append] at h ⊢
  refine ⟨h.1,.singleton _,fun last hlast next hnext => ?_⟩
  cases hnext
  exact hreplace last (h.2.2 last hlast tick rfl)

end

theorem tickInv_trigger {triggerTime : Int} (h : TickInv s)
    (hrange : -2 ^ 63 ≤ triggerTime ∧ triggerTime < 2 ^ 63) : TickInv { s with
      master := s.master.internalTrigger triggerTime
      triggers := s.triggers ++ [triggerTime] } := by
  have hhigh := h.high
  refine ⟨h.run,h.cycle,?_,?_,h.range,chain_replace h.chain fun last hlast hpos => ?_⟩
  · show -2 ^ 63 ≤ ite _ _ _
    split <;> omega
  · show ite _ _ _ < (2 : Int) ^ 63
    split <;> omega
  · -- behind a positive time the clock is not negative, and the trigger does not touch it
    have hlt : last.currentTime < s.master.currentTime := (hlast hpos).1
    have hsame : (s.master.internalTrigger triggerTime).tickToSend = s.master.tickToSend := by
      have htime : ¬s.master.currentTime < 0 := by omega
      simp only [TimingMaster.tickToSend,TimingMaster.internalTrigger,htime,if_false]
    rw [hsame]
    exact hlast hpos

section
omit [CountingSemaphore S]

theorem cycle_nextScheduleMap {map : ScheduleMap}
    (hmap : master.nextScheduleMap = some map) (hitem : map.currentItem = some item) :
    map.cycleTimeUs = master.scheduleMap.cycleTimeUs := by
  unfold TimingMaster.nextScheduleMap at hmap
  split at hmap
  · cases hmap
    rfl
  · exact (ScheduleMap.sameTable_increment (ScheduleMap.indexValid_of_increment hmap hitem) hmap).1.cycle

theorem runTicks_book (hitem : master.scheduleMap.currentItem = some item) :
    (s.book master (.executed sent)).runTicks = s.runTicks ++ sent.toList := by
  unfold runTicks book
  rw [hitem,filter_append,map_append]
  cases sent with
  | none => rfl
  | some sent => simp

private theorem chain_book (h : TickInv s) (hcycle : 0 < s.master.scheduleMap.cycleTimeUs)
    (hclock : s.master.currentTime + s.master.scheduleMap.cycleTimeUs < 2 ^ 63)
    (hsent : sent = if item.isStepInCurrentSchedule then some s.master.tickToSend else none) :
    (s.runTicks ++ sent.toList ++ [(⟨wrap64 (s.master.currentTime + s.master.scheduleMap.cycleTimeUs),
      wrap64 ((if item.isStepInCurrentSchedule then 0 else s.master.durationSinceLastTick) +
        s.master.scheduleMap.cycleTimeUs)⟩ : TriggerTick)]).IsChain TriggerTick.Precedes := by
  cases hstep : item.isStepInCurrentSchedule with
  | true =>
    rw [hstep,if_pos rfl] at hsent
    rw [hsent,if_pos rfl,Option.toList_some,isChain_append]
    refine ⟨h.chain,.singleton _,?_⟩
    intro last hlast next hnext
    rw [getLast?_append_cons,getLast?_singleton] at hlast
    cases hlast
    cases hnext
    exact precedes_sent hcycle h.low hclock
  | false =>
    rw [hstep,if_neg nofun] at hsent
    rw [hsent,if_neg nofun,Option.toList_none,append_nil]
    apply chain_replace h.chain
    intro last hlast
    exact precedes_later hcycle h.low hclock hlast

theorem tickInv_book (h : TickInv s) (hcycle : 0 < s.master.scheduleMap.cycleTimeUs)
    (hclock : s.master.currentTime + s.master.scheduleMap.cycleTimeUs < 2 ^ 63)
    (hitem : master.scheduleMap.currentItem = some item)
    (hsame : master.scheduleMap.cycleTimeUs = s.master.scheduleMap.cycleTimeUs)
    (htime : master.currentTime = wrap64 (s.master.currentTime + s.master.scheduleMap.cycleTimeUs))
    (hduration : master.durationSinceLastTick = wrap64 ((if item.isStepInCurrentSchedule then 0 else
      s.master.durationSinceLastTick) + s.master.scheduleMap.cycleTimeUs))
    (hsent : sent = if item.isStepInCurrentSchedule then some s.master.tickToSend else none) :
    TickInv (s.book master (.executed sent)) := by
  have hlow := h.low
  have hhigh := h.high
  have hticks : (s.book master (.executed sent)).runTicks = s.runTicks ++ sent.toList := runTicks_book hitem
  rw [wrap64_of_range (by omega) hclock] at htime
  refine ⟨fun t ht => ?_,fun _ => hsame ▸ hcycle,?_,?_,?_,?_⟩
  · rcases mem_append.mp ht with ht | ht
    · exact h.run t ht
    · cases sent with
      | none => cases ht
      | some sent =>
        rw [hitem] at ht
        cases mem_singleton.mp ht
        exact le_refl _
  · show -2 ^ 63 ≤ master.currentTime
    omega
  · show master.currentTime < 2 ^ 63
    omega
  · rw [hticks]
    intro t ht
    rcases mem_append.mp ht with ht | ht
    · exact h.range t ht
    · rw [hsent] at ht
      split at ht
      · cases mem_singleton.mp ht
        exact hhigh
      · cases ht
  · rw [hticks]
    have htick : master.tickToSend = ⟨wrap64 (s.master.currentTime + s.master.scheduleMap.cycleTimeUs),
        wrap64 ((if item.isStepInCurrentSchedule then 0 else s.master.durationSinceLastTick) +
          s.master.scheduleMap.cycleTimeUs)⟩ := by
      rw [TimingMaster.tickToSend,htime,hduration,wrap64_of_range (by omega) hclock]
    show (s.runTicks ++ sent.toList ++ [master.tickToSend]).IsChain _
    rw [htick]
    exact chain_book h hcycle hclock hsent

end

private theorem tickInv_worker {event : WorkerEvent} (h : TickInv s) (hcase : s.master.WorkerCase master event)
    (hclock : event ≠ .idle → s.master.currentTime + s.master.scheduleMap.cycleTimeUs < 2 ^ 63) :
    TickInv (s.book master event) := by
  cases hcase with
  | @moved mode position position' completition hworker _ =>
    have hcycle : 0 < s.master.scheduleMap.cycleTimeUs := h.cycle (by rw [hworker]; nofun)
    exact ⟨h.run,fun _ => hcycle,h.low,h.high,h.range,h.chain⟩
  | executed hworker _ _ hnext =>
    have hcycle : 0 < s.master.scheduleMap.cycleTimeUs := h.cycle (by rw [hworker]; nofun)
    obtain ⟨map,item,hmap,hitem,rfl,hsent,-⟩ := doNextSchedule_cases hnext
    have hsame : map.cycleTimeUs = s.master.scheduleMap.cycleTimeUs := cycle_nextScheduleMap hmap hitem
    refine tickInv_book h hcycle (hclock nofun) hitem hsame ?_ ?_ hsent
    · rw [← hsame]
      rfl
    · rw [← hsame]
      rfl

theorem tickInv_step (h : TickInv s) (hclock : s.ClockInRange action) (hstep : s.step action = some s') :
    TickInv s' := by
  cases action with
  | configure props user transmission =>
    obtain ⟨r,hr,rfl⟩ := Option.map_eq_some_iff.mp hstep
    exact h.sameClock (.of_sameRun (.configure hr) (configure_duration hr))
  | start context =>
    simp only [step] at hstep
    split at hstep
    · cases hstep
    · rename_i hworker
      obtain ⟨⟨master,result,effects⟩,hstart,rfl⟩ := Option.map_eq_some_iff.mp hstep
      exact tickInv_start h (by simpa using hworker) hstart
  | stop =>
    cases hstep
    exact h.sameClock (.of_sameRun (.stop s.master) stop_duration)
  | joinWorker =>
    obtain ⟨master,hjoin,rfl⟩ := Option.map_eq_some_iff.mp hstep
    exact h.sameClock (sameClock_joinWorker hjoin)
  | reset =>
    cases hstep
    exact h.sameClock (.of_sameRun (.reset s.master) reset_duration)
  | updateSchedule scheduleList =>
    cases hstep
    exact h.sameClock ⟨rfl,rfl,rfl,.inr rfl⟩
  | internalTrigger triggerTime =>
    cases hstep
    exact tickInv_trigger h hclock
  | threadFunc =>
    obtain ⟨⟨master,event⟩,hthread,rfl⟩ := Option.map_eq_some_iff.mp hstep
    refine tickInv_worker h (threadFunc_cases hthread) fun hevent => hclock ?_
    simp [TimingMaster.executes,hthread,hevent]
  | checkAckTimeout =>
    cases hstep
    exact h.sameClock ⟨rfl,rfl,rfl,.inr rfl⟩
  | sendAck tick uuid operationalTime =>
    obtain ⟨tick,-,hacknowledge⟩ := Option.bind_eq_some_iff.mp hstep
    unfold acknowledge at hacknowledge
    split at hacknowledge
    · cases hacknowledge
      exact ⟨h.run,h.cycle,h.low,h.high,h.range,h.chain⟩
    · cases hacknowledge
  | updateAck n =>
    obtain ⟨message,-,hdeliver⟩ := Option.bind_eq_some_iff.mp hstep
    obtain ⟨master,hupdate,rfl⟩ := Option.map_eq_some_iff.mp hdeliver
    have hkept := h.sameClock (sameClock_updateAck hupdate)
    exact ⟨hkept.run,hkept.cycle,hkept.low,hkept.high,hkept.range,hkept.chain⟩

private theorem tickInv_new : TickInv (new : TimingSystem S) where
  run := nofun
  cycle hworker := absurd rfl hworker
  low := by
    show -2 ^ 63 ≤ (-1 : Int)
    decide
  high := by
    show (-1 : Int) < 2 ^ 63
    decide
  range := nofun
  chain := .singleton _

theorem runTicks_chain (h : Reaches step ClockInRange (new : TimingSystem S) s) :
    s.runTicks.IsChain TriggerTick.Precedes ∧ ∀ tick ∈ s.runTicks, tick.currentTime < 2 ^ 63 := by
  have hinv : TickInv s := h.invariant tickInv_new fun _ _ _ hinv hclock hstep => tickInv_step hinv hclock hstep
  exact ⟨hinv.chain.left_of_append,hinv.range⟩

end TimingSystem

/-- The comparison of a client with tasks. -/
def TriggerTick.Passes (tick next : TriggerTick) : Prop :=
  0 < tick.currentTime → wrap64 (tick.currentTime + next.simTimeStep) = next.currentTime

theorem TriggerTick.Precedes.passes {tick next : TriggerTick} (h : tick.Precedes next) : tick.Passes next :=
  fun hpos => (h hpos).2

namespace TimingClient
variable {S : Type} [CountingSemaphore S]

/-- The client after some ticks, and all that it asked for meanwhile. -/
def updateAll (client : TimingClient S) : List TriggerTick → TimingClient S × List Effect
  | [] => (client,[])
  | tick::ticks =>
    let updated := client.update tick
    let rest := updated.1.updateAll ticks
    (rest.1,updated.2 ++ rest.2)

/-- No tick raises the error of a trigger out of order. -/
def Accepts (client : TimingClient S) (ticks : List TriggerTick) : Prop :=
  .invokeIncident triggerSkip ∉ (client.updateAll ticks).2

/-- Some ticks of a run reach a client just started, in order and from the first on: it accepts them exactly when
none is missing between. -/
def DetectsTickLoss (client : TimingClient S) (ticks : List TriggerTick) : Prop :=
  ∀ positions : List (Fin ticks.length), positions.Pairwise (· < ·) → (positions.map Fin.val).head? = some 0 →
    (client.start.Accepts (positions.map ticks.get) ↔ positions.map Fin.val = List.range positions.length)

variable {client : TimingClient S} {tick : TriggerTick} {ticks : List TriggerTick}

private theorem triggerSkip_notMem_simTimeProgress (task : Task S) (sum time : Int) :
    .invokeIncident triggerSkip ∉ (task.simTimeProgress sum time).2 := by
  unfold Task.simTimeProgress
  dsimp only
  split
  · split
    · unfold Task.applyTriggerViolation
      split <;> simp [Task.runtimeViolation,triggerSkip]
    · nofun
  · nofun

theorem triggerSkip_mem_update : .invokeIncident triggerSkip ∈ (client.update tick).2 ↔
    client.outOfOrder tick = true := by
  have horder : outOfOrder {client with lastTriggerReceived := 0} tick = client.outOfOrder tick := rfl
  simp only [update,horder]
  split
  · rename_i hout
    exact iff_of_true mem_cons_self hout
  · rename_i hout
    refine iff_of_false ?_ hout
    simp only [mem_flatMap,mem_map]
    rintro ⟨_,⟨task,_,rfl⟩,hskip⟩
    exact triggerSkip_notMem_simTimeProgress task _ _ hskip

theorem accepts_cons : client.Accepts (tick::ticks) ↔
    client.outOfOrder tick = false ∧ (client.update tick).1.Accepts ticks := by
  rw [Accepts,updateAll]
  simp only [mem_append,not_or,triggerSkip_mem_update,Bool.not_eq_true]
  rfl

omit [CountingSemaphore S] in
private theorem outOfOrder_eq_false_iff : client.outOfOrder tick = false ↔
    client.taskMap = [] ∨ TriggerTick.Passes ⟨client.currentSimulationTime,0⟩ tick := by
  simp only [outOfOrder,TriggerTick.Passes,Bool.and_eq_false_iff,decide_eq_false_iff_not,Bool.not_eq_false',
    List.isEmpty_iff,bne_eq_false_iff_eq]
  tauto

private theorem taskMap_update_eq_nil : (client.update tick).1.taskMap = [] ↔ client.taskMap = [] := by
  unfold update
  dsimp only
  split
  · rfl
  · simp

private theorem isChain_passes_cons (step : Int) :
    (⟨tick.currentTime,step⟩::ticks).IsChain TriggerTick.Passes ↔ (tick::ticks).IsChain TriggerTick.Passes := by
  rw [isChain_cons,isChain_cons]
  rfl

private theorem accepts_iff (client : TimingClient S) (ticks : List TriggerTick) : client.Accepts ticks ↔
    client.taskMap = [] ∨ (⟨client.currentSimulationTime,0⟩::ticks).IsChain TriggerTick.Passes := by
  induction ticks generalizing client with
  | nil => exact iff_of_true nofun (.inr (.singleton _))
  | cons tick ticks ih =>
    rw [accepts_cons,isChain_cons_cons]
    constructor
    · rintro ⟨horder,hrest⟩
      rcases outOfOrder_eq_false_iff.mp horder with hnil | hpasses
      · exact .inl hnil
      · rcases (ih _).mp hrest with hnil | hchain
        · exact .inl (taskMap_update_eq_nil.mp hnil)
        · rw [(update_of_inOrder horder).1,isChain_passes_cons] at hchain
          exact .inr ⟨hpasses,hchain⟩
    · intro h
      have horder : client.outOfOrder tick = false := outOfOrder_eq_false_iff.mpr (h.imp_right fun hchain => hchain.1)
      refine ⟨horder,(ih _).mpr ?_⟩
      rcases h with hnil | hchain
      · exact .inl (taskMap_update_eq_nil.mpr hnil)
      · refine .inr ?_
        rw [(update_of_inOrder horder).1,isChain_passes_cons]
        exact hchain.2

theorem accepts_start (client : TimingClient S) (ticks : List TriggerTick) : client.start.Accepts ticks ↔
    client.taskMap = [] ∨ ticks.IsChain TriggerTick.Passes := by
  have hfirst : (⟨0,0⟩::ticks).IsChain TriggerTick.Passes ↔ ticks.IsChain TriggerTick.Passes := by
    rw [isChain_cons]
    exact and_iff_right fun _ _ hpos => absurd hpos (by decide)
  have hmap : client.start.taskMap = [] ↔ client.taskMap = [] := map_eq_nil_iff
  rw [accepts_iff,hmap]
  exact or_congr_right hfirst

end TimingClient

private theorem positions_eq_range' (first : Nat) (positions : List Nat)
    (h : (first::positions).IsChain fun p q => q = p + 1) :
    first::positions = List.range' first (positions.length + 1) := by
  induction positions generalizing first with
  | nil => rfl
  | cons next positions ih =>
    rw [isChain_cons_cons] at h
    obtain ⟨rfl,hrest⟩ := h
    exact congrArg (List.cons first) (ih _ hrest)

theorem eq_range_iff {positions : List Nat} (hfirst : positions.head? = some 0) :
    positions = List.range positions.length ↔ positions.IsChain fun p q => q = p + 1 := by
  constructor
  · intro h
    rw [h,range_eq_range']
    exact isChain_range' 0 _ 1
  · intro h
    cases positions with
    | nil => cases hfirst
    | cons first positions =>
      cases hfirst
      rw [positions_eq_range' 0 positions h,range_eq_range',length_range']

section
variable {ticks : List TriggerTick} (hchain : ticks.IsChain TriggerTick.Precedes)
include hchain

section
variable (hfirst : ∀ tick ∈ ticks.head?, 0 < tick.currentTime)
include hfirst

theorem time_pos (p : Nat) (hp : p < ticks.length) : 0 < ticks[p].currentTime := by
  induction p with
  | zero => exact hfirst _ (head?_eq_getElem? ▸ getElem?_eq_getElem hp)
  | succ p ih =>
    have hpos := ih (lt_of_succ_lt hp)
    exact hpos.trans (hchain.getElem p hp hpos).1

private theorem time_lt {p q : Nat} (hpq : p < q)
    (hp : p < ticks.length) (hq : q < ticks.length) : ticks[p].currentTime < ticks[q].currentTime := by
  induction q, hpq using le_induction with
  | base => exact (hchain.getElem p hq (time_pos hchain hfirst p hp)).1
  | succ q hpq ih =>
    have hlt := ih (lt_of_succ_lt hq)
    exact hlt.trans (hchain.getElem q hq (time_pos hchain hfirst q (lt_of_succ_lt hq))).1

theorem next_of_passes (hrange : ∀ tick ∈ ticks, tick.currentTime < 2 ^ 63) {p q : Fin ticks.length} (hpq : p < q)
    (hpasses : (ticks.get p).Passes (ticks.get q)) : q.val = p.val + 1 := by
  obtain ⟨p,hp⟩ := p
  obtain ⟨q,hq⟩ := q
  by_contra hnext
  have hlt : p < q := hpq
  dsimp only at hnext
  obtain ⟨before,rfl⟩ : ∃ before, q = before + 1 := ⟨q - 1,by omega⟩
  have hbefore : before < ticks.length := lt_of_succ_lt hq
  have hpos := time_pos hchain hfirst p hp
  have hposBefore := time_pos hchain hfirst before hbefore
  have hlater := time_lt hchain hfirst (show p < before by omega) hp hbefore
  have hcompared : wrap64 (ticks[p].currentTime + ticks[before + 1].simTimeStep) = ticks[before + 1].currentTime :=
    hpasses hpos
  have hstep := hcompared.trans (hchain.getElem before hq hposBefore).2.symm
  have hboth := (wrap64_add_cancel_right _).mp hstep
  rw [wrap64_of_nonneg hpos.le (hrange _ (getElem_mem hp)),
    wrap64_of_nonneg hposBefore.le (hrange _ (getElem_mem hbefore))] at hboth
  omega

end

end

namespace TimingClient
variable {S : Type} [CountingSemaphore S]

/-- Losses are detected in a run of at most two ticks, and by a client with tasks if the first tick has a positive
time. -/
theorem detectsTickLoss_iff (client : TimingClient S) {ticks : List TriggerTick}
    (hchain : ticks.IsChain TriggerTick.Precedes) (hrange : ∀ tick ∈ ticks, tick.currentTime < 2 ^ 63) :
    client.DetectsTickLoss ticks ↔
      ticks.length ≤ 2 ∨ (client.taskMap ≠ [] ∧ ∀ tick ∈ ticks.head?, 0 < tick.currentTime) := by
  constructor
  · intro hdetects
    by_contra hnot
    rw [not_or,not_and_or] at hnot
    obtain ⟨hlength,hunchecked⟩ := hnot
    have htwo : 2 < ticks.length := not_le.mp hlength
    have hfirst : 0 < ticks.length := by omega
    have haccepted : client.start.Accepts ([⟨0,hfirst⟩,⟨2,htwo⟩].map ticks.get) := by
      refine (client.accepts_start _).mpr ?_
      rcases hunchecked with htasks | htime
      · exact .inl (Classical.not_not.mp htasks)
      · refine .inr (.cons_cons (fun hpos => absurd ?_ htime) (.singleton _))
        intro tick htick
        rw [head?_eq_getElem?,getElem?_eq_getElem hfirst] at htick
        cases htick
        exact hpos
    have hrange := (hdetects [⟨0,hfirst⟩,⟨2,htwo⟩] (by simp) rfl).mp haccepted
    cases hrange
  · intro hcondition positions hsorted hfirst
    have hcontiguous : positions.map Fin.val = List.range positions.length ↔
        positions.IsChain fun p q => q.val = p.val + 1 := by
      rw [← length_map Fin.val,eq_range_iff hfirst,isChain_map]
    rw [accepts_start,hcontiguous,isChain_map]
    constructor
    · intro haccepted
      rcases hcondition with hfew | ⟨htasks,htime⟩
      · refine hsorted.isChain.imp fun p q hpq => ?_
        have hp : p.val < q.val := hpq
        omega
      · have hpassed := haccepted.resolve_left htasks
        rw [isChain_iff_getElem] at hpassed ⊢
        intro i hi
        exact next_of_passes hchain htime hrange (hsorted.isChain.getElem i hi) (hpassed i hi)
    · intro hnext
      refine .inr (hnext.imp fun p q hpq => ?_)
      obtain ⟨p,hp⟩ := p
      obtain ⟨q,hq⟩ := q
      cases hpq
      exact (hchain.getElem p hq).passes

end TimingClient

namespace TimingSystem
variable {S : Type} [CountingSemaphore S]

/-- In every run the client detects the losses exactly when it has tasks and the run started at a positive time, or
at most two ticks have been sent. -/
theorem detects_tick_loss (s : TimingSystem S) (client : TimingClient S)
    (h : Reaches step ClockInRange (new : TimingSystem S) s) : client.DetectsTickLoss s.runTicks ↔
      s.runTicks.length ≤ 2 ∨ (client.taskMap ≠ [] ∧ ∀ tick ∈ s.runTicks.head?, 0 < tick.currentTime) :=
  client.detectsTickLoss_iff (runTicks_chain h).1 (runTicks_chain h).2

instance (s : TimingSystem S) (action : TimingAction) : Decidable (s.ClockInRange action) :=
  match action with
  | .internalTrigger _ => inferInstanceAs (Decidable (_ ∧ _))
  | .threadFunc => inferInstanceAs (Decidable (_ → _))
  | .configure .. | .start _ | .stop | .joinWorker | .reset | .updateSchedule _ | .checkAckTimeout | .sendAck ..
  | .updateAck _ => inferInstanceAs (Decidable True)

private def threeTicks (time : Int) : List TimingAction :=
  [.configure ⟨some "Master",some "Master",some "EXTERNAL_CLOCK",none⟩ false .errNoError,
    .start ⟨1000,[⟨taskUuid,10⟩],none,.errNoError⟩,
    .internalTrigger time,.threadFunc,.threadFunc,
    .internalTrigger (time + 10),.threadFunc,.threadFunc,
    .internalTrigger (time + 20),.threadFunc,.threadFunc]

private def clientWithTask : TimingClient Nat where
  taskMap := [⟨"Step",taskUuid,10,.ignoreRuntimeViolation,0,0,0,false⟩]
  currentSimulationTime := 0
  timeProgressSum := 0
  lastTriggerReceived := 0
  triggerWaitTimerPeriod := 0
  triggerWaitTimerRunning := false
  timingClientRunningFlag := false

theorem detects_tick_loss_from_five : ∃ s : TimingSystem Nat,
    Reaches step ClockInRange new s ∧ s.runTicks.length = 3 ∧ clientWithTask.DetectsTickLoss s.runTicks := by
  obtain ⟨s,hreach,hticks⟩ : ∃ s, Reaches step ClockInRange (new : TimingSystem Nat) s ∧
      s.runTicks = [⟨5,0⟩,⟨15,10⟩,⟨25,10⟩] :=
    exists_of_runAllowed (threeTicks 5) (by decide +kernel)
  refine ⟨s,hreach,by rw [hticks]; rfl,(detects_tick_loss s clientWithTask hreach).mpr (.inr ⟨nofun,?_⟩)⟩
  rw [hticks]
  intro tick htick
  cases htick
  decide

/-- The second tick of a run that starts at the time zero is lost unnoticed. -/
theorem second_tick_lost : ∃ s : TimingSystem Nat, Reaches step ClockInRange new s ∧
    s.runTicks = [⟨0,0⟩,⟨10,10⟩,⟨20,10⟩] ∧ clientWithTask.start.Accepts [⟨0,0⟩,⟨20,10⟩] := by
  obtain ⟨s,hreach,hticks⟩ : ∃ s, Reaches step ClockInRange (new : TimingSystem Nat) s ∧
      s.runTicks = [⟨0,0⟩,⟨10,10⟩,⟨20,10⟩] :=
    exists_of_runAllowed (threeTicks 0) (by decide +kernel)
  refine ⟨s,hreach,hticks,?_⟩
  unfold TimingClient.Accepts
  decide +kernel

/-- The ticks of a run from a positive time on increase, and the steps of those behind a tick lead from its time to
theirs. -/
theorem ticks_add_up (s : TimingSystem S) (h : Reaches step ClockInRange (new : TimingSystem S) s)
    {front behind : List TriggerTick} {tick : TriggerTick} (hticks : s.runTicks = front ++ tick::behind)
    (hpos : 0 < tick.currentTime) (between : List TriggerTick) (next : TriggerTick)
    (hnext : between ++ [next] <+: behind) : tick.currentTime < next.currentTime ∧
      wrap64 (tick.currentTime + ((between ++ [next]).map (·.simTimeStep)).sum) = next.currentTime := by
  have hchain : (tick::between ++ [next]).IsChain TriggerTick.Precedes := by
    obtain ⟨rest,rfl⟩ := hnext
    have hall := (runTicks_chain h).1
    rw [hticks,← cons_append] at hall
    exact hall.right_of_append.left_of_append
  clear hticks hnext
  induction between generalizing tick with
  | nil =>
    have hlast := (isChain_cons_cons.mp hchain).1 hpos
    simpa using hlast
  | cons middle between ih =>
    obtain ⟨hfirst,hrest⟩ := isChain_cons_cons.mp hchain
    obtain ⟨hlt,hstep⟩ := hfirst hpos
    obtain ⟨hlt',hsteps⟩ := ih (hpos.trans hlt) hrest
    refine ⟨hlt.trans hlt',?_⟩
    rw [← hsteps,← hstep,cons_append,map_cons,sum_cons]
    rw [wrap64_wrap64_add,Int.add_assoc]

theorem ticks_add_up_from_five : ∃ s : TimingSystem Nat, s.runTicks = [⟨5,0⟩,⟨15,10⟩,⟨25,10⟩] ∧
    (5 : Int) < 25 ∧ wrap64 (5 + (([⟨15,10⟩] ++ [⟨25,10⟩] : List TriggerTick).map (·.simTimeStep)).sum) = 25 := by
  obtain ⟨s,hreach,hticks⟩ : ∃ s, Reaches step ClockInRange (new : TimingSystem Nat) s ∧
      s.runTicks = [] ++ ⟨5,0⟩::[⟨15,10⟩,⟨25,10⟩] := exists_of_runAllowed (threeTicks 5) (by decide +kernel)
  exact ⟨s,hticks,ticks_add_up s hreach hticks (by decide) [⟨15,10⟩] ⟨25,10⟩ (prefix_refl _)⟩

end TimingSystem

end FepParticipant.Timing
