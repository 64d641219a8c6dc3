import FepParticipant.Timing.TimingSystem

/-! Trigger accounting: every execution of the schedule takes a trigger of its own run, and
the first tick carries the time of one, if no token of an earlier run is left over. -/
namespace FepParticipant.Timing
open Library CountingSemaphore List Nat

namespace ScheduleMap

variable {map other : ScheduleMap} {configs : ScheduleConfigs} {maxSize : Nat} {item : ScheduleItem}

private theorem configs_nonempty_of_slot (h : configure maxSize map configs = some (other,true))
    (hitem : item ∈ other.scheduleVector) : configs.items ≠ [] := by
  intro hnil
  have hcalc : calculateLcmAndGcd configs = none := by
    simp [calculateLcmAndGcd,ScheduleConfigs.cycles,hnil]
  simp only [configure,hcalc,Option.some.injEq,Prod.mk.injEq,and_true] at h
  subst h
  simp [resizeVector] at hitem

theorem isStep_first_slot (hempty : map.scheduleVector = [])
    (h : configure maxSize map configs = some (other,true)) (hitem : other.currentItem = some item) :
    item.isStepInCurrentSchedule = true := by
  obtain ⟨hindex,hslots⟩ := configure_slots hempty h
  rw [currentItem,hindex] at hitem
  obtain ⟨config,cs,hitems⟩ := exists_cons_of_ne_nil (configs_nonempty_of_slot h (mem_of_getElem? hitem))
  refine ScheduleItem.isStep_iff.mpr ⟨config.stepUuid,?_⟩
  rw [(hslots 0 item hitem).mem]
  exact ⟨config,by simp [hitems],rfl,by simp [slotTime]⟩

end ScheduleMap

namespace TimingSystem

variable {S : Type} [CountingSemaphore S] {s s' : TimingSystem S} {action : TimingAction}

/-- A call of `start` that creates a worker thread finds a mode that waits for triggers and a
tick barrier without tokens. -/
def NoLeftoverToken (s : TimingSystem S) : TimingAction → Prop
  | .start context => (s.master.start context).any (fun r => r.1.workerThread.isSome) = true →
      s.master.stepTriggerStrategy.any (·.mode.needToWaitForTrigger) = true ∧ count s.master.tickBarrier = 0
  | _ => True

/-- Before the first execution: the simulation time is unset or that of a trigger, and the slot
that will be entered has a step. -/
structure AtStart (s : TimingSystem S) : Prop where
  time : (s.triggers = [] ∧ s.master.currentTime = -1) ∨ s.master.currentTime ∈ s.triggers
  initial : s.master.isInitialScheduleFlag = true
  slot {item : ScheduleItem} : s.master.scheduleMap.currentItem = some item → item.isStepInCurrentSchedule = true

/-- What holds of a master whose worker thread runs. -/
structure TokenInv (s : TimingSystem S) (mode : TriggerMode) : Prop where
  mode : mode.needToWaitForTrigger = true
  tokens : count s.master.tickBarrier + s.executions ≤ s.triggers.length
  atStart : s.executions = 0 → AtStart s

/-- The accounting of the current run. -/
structure Accounted (s : TimingSystem S) : Prop where
  executions : s.executions ≤ s.triggers.length
  firstTick {tick : TriggerTick} : s.firstTick = some tick → tick.currentTime ∈ s.triggers
  ticked : 0 < s.executions → s.firstTick ≠ none
  running {worker : WorkerThread} : s.master.workerThread = some worker → TokenInv s worker.mode

theorem Accounted.of_frame (h : Accounted s) (hexecutions : s'.executions = s.executions)
    (htriggers : s'.triggers = s.triggers) (hfirst : s'.firstTick = s.firstTick)
    (hworker : ∀ worker', s'.master.workerThread = some worker' →
      ∃ worker, s.master.workerThread = some worker ∧ worker.mode = worker'.mode)
    (htick : s'.master.tickBarrier = s.master.tickBarrier) (htime : s'.master.currentTime = s.master.currentTime)
    (hinitial : s'.master.isInitialScheduleFlag = s.master.isInitialScheduleFlag)
    (hslot : ∀ item', s'.master.scheduleMap.currentItem = some item' →
      ∃ item, s.master.scheduleMap.currentItem = some item ∧
        item'.isStepInCurrentSchedule = item.isStepInCurrentSchedule) : Accounted s' := by
  refine ⟨by rw [hexecutions,htriggers]; exact h.executions,fun ht => ?_,fun hpos => ?_,fun {worker'} hw => ?_⟩
  · rw [htriggers]
    exact h.firstTick (by rwa [← hfirst])
  · rw [hfirst]
    exact h.ticked (by rwa [← hexecutions])
  · obtain ⟨worker,hthread,hmode⟩ := hworker worker' hw
    obtain ⟨hwaits,htokens,hstart⟩ := h.running hthread
    rw [← hmode]
    refine ⟨hwaits,by rwa [htick,hexecutions,htriggers],fun hzero => ?_⟩
    obtain ⟨htimes,hflag,hsteps⟩ := hstart (by rwa [← hexecutions])
    refine ⟨by rwa [htriggers,htime],by rwa [hinitial],fun {item'} hc => ?_⟩
    obtain ⟨item,hitem,hsame⟩ := hslot item' hc
    rw [hsame]
    exact hsteps hitem

omit [CountingSemaphore S] in
theorem worker_of_sameRun {master : TimingMaster S} (hsame : SameRun s.master master)
    (worker' : WorkerThread) (hw : master.workerThread = some worker') :
    ∃ worker, s.master.workerThread = some worker ∧ worker.mode = worker'.mode := by
  rcases hsame.worker with h' | h'
  · simp [h'] at hw
  · exact ⟨worker',h' ▸ hw,rfl⟩

theorem accounted_start {context : StartContext} {master : TimingMaster S} {result : Result}
    {effects : List Effect} (hnone : s.master.workerThread = none)
    (hstart : s.master.start context = some (master,result,effects)) (hallowed : NoLeftoverToken s (.start context)) :
    Accounted { s with
      master := master, run := s.run + 1, executions := 0, triggers := [], firstTick := none } := by
  refine ⟨le_refl 0,fun h => by simp at h,fun h => absurd h (lt_irrefl 0),fun {worker} hworker => ?_⟩
  obtain ⟨hmode,hcount⟩ := hallowed (by rw [hstart]; simpa using hworker ▸ rfl)
  cases TimingMaster.start_cases hstart with
  | notMaster _ => simp [hnone] at hworker
  | refused _ _ => simp [hnone] at hworker
  | notRegistered _ _ _ => simp [TimingMaster.prepareRun,hnone] at hworker
  | @started configs map strategy registered _ _ hconfigure hstrategy _ _ =>
    have hmode' : strategy.mode.needToWaitForTrigger = true := by simpa [hstrategy] using hmode
    cases hworker
    refine ⟨hmode',?_,fun _ => ⟨.inl ⟨rfl,?_⟩,rfl,fun hc => ?_⟩⟩
    · exact le_of_eq hcount
    · simp [TimingMaster.startWorker,TimingMaster.prepareRun,hmode']
    · exact ScheduleMap.isStep_first_slot rfl hconfigure hc

theorem accounted_trigger (h : Accounted s) (triggerTime : Int) : Accounted { s with
      master := s.master.internalTrigger triggerTime, triggers := s.triggers ++ [triggerTime] } := by
  refine ⟨?_,fun ht => mem_append_left _ (h.firstTick ht),h.ticked,fun hworker => ?_⟩
  · have := h.executions
    simp only [length_append]
    omega
  · obtain ⟨hmode,htokens,hstart⟩ := h.running hworker
    refine ⟨hmode,?_,fun hzero => ?_⟩
    · simp only [TimingMaster.internalTrigger,count_notify,length_append,length_singleton]
      omega
    · obtain ⟨htime,hinitial,hslot⟩ := hstart hzero
      refine ⟨.inr ?_,hinitial,hslot⟩
      simp only [TimingMaster.internalTrigger]
      split
      · simp
      · rename_i hnonneg
        rcases htime with ⟨_,htime⟩ | htime
        · omega
        · exact mem_append_left _ htime

theorem accounted_executed {mode : TriggerMode} {position : WorkerPosition}
    {tick completition : S} {next : TimingMaster S} {sent : Option TriggerTick} {need : Bool}
    (h : Accounted s) (hworker : s.master.workerThread = some ⟨mode,position⟩)
    (htick : mode.needToWaitForTrigger = true → count s.master.tickBarrier = count tick + 1)
    (hnext : TimingMaster.doNextSchedule
      {s.master with tickBarrier := tick, completitionBarrier := completition} = some (next,sent,need)) :
    Accounted (s.book (next.setPosition mode (.loopHead (mode.needToWaitForCompletition && need)))
    (.executed sent)) := by
  obtain ⟨hmode,htokens,hstart⟩ := h.running hworker
  have htake := htick hmode
  obtain ⟨map,item,hmap,hitem,rfl,hsent,-⟩ := TimingMaster.doNextSchedule_cases hnext
  have hfirst (hzero : s.executions = 0) :
      ∃ t, sent = some t ∧ t.currentTime ∈ s.triggers := by
    obtain ⟨htime,hinitial,hslot⟩ := hstart hzero
    simp only [TimingMaster.nextScheduleMap,hinitial,if_true,Option.some.injEq] at hmap
    subst hmap
    refine ⟨_,by rw [hsent,if_pos (hslot hitem)],?_⟩
    rcases htime with ⟨hnil,_⟩ | htime
    · simp only [hnil,length_nil] at htokens
      omega
    · exact htime
  refine ⟨?_,fun {t} ht => ?_,fun _ => ?_,fun hw => ?_⟩
  · simp only [book]
    omega
  · simp only [book,Option.or_eq_some_iff] at ht
    rcases ht with ht | ⟨hnone,ht⟩
    · exact h.firstTick ht
    · obtain ⟨t',hsent',hmem⟩ := hfirst (by
        by_contra hne
        exact h.ticked (pos_of_ne_zero hne) hnone)
      rw [hsent'] at ht
      cases ht
      exact hmem
  · by_cases hzero : s.executions = 0
    · obtain ⟨t,hsent',-⟩ := hfirst hzero
      simp [book,hsent']
    · have := h.ticked (pos_of_ne_zero hzero)
      simp [book,this]
  · cases hw
    refine ⟨hmode,?_,fun hzero => ?_⟩
    · change count tick + (s.executions + 1) ≤ s.triggers.length
      omega
    · cases hzero

theorem accounted_step (h : Accounted s) (hallowed : NoLeftoverToken s action)
    (hstep : step s action = some s') : Accounted s' := by
  cases step_cases hstep with
  | lifecycle hsame =>
    refine h.of_frame rfl rfl rfl (worker_of_sameRun hsame) hsame.tick hsame.time hsame.initial ?_
    exact fun item' hc => ⟨item',by rwa [← hsame.map],rfl⟩
  | start hnone hstart => exact accounted_start hnone hstart hallowed
  | trigger => exact accounted_trigger h _
  | worker hcase =>
    cases hcase with
    | moved hworker _ =>
      refine h.of_frame rfl rfl rfl (fun worker' hw => ⟨_,hworker,?_⟩) rfl rfl rfl
        fun item' hc => ⟨item',hc,rfl⟩
      cases hw
      rfl
    | executed hworker htick _ hnext => exact accounted_executed h hworker htick hnext
  | sent =>
    exact h.of_frame rfl rfl rfl (fun worker' hw => ⟨worker',hw,rfl⟩) rfl rfl rfl
      fun item' hc => ⟨item',hc,rfl⟩
  | @delivered n message map marked master _ hmark hsame =>
    refine h.of_frame rfl rfl rfl (fun worker' hw => ?_) hsame.tick hsame.time hsame.initial fun item' hc => ?_
    · rcases hsame.worker with h' | h'
      · simp [h'] at hw
      · exact ⟨worker',h' ▸ hw,rfl⟩
    · have hmap : master.scheduleMap = map := hsame.map
      obtain ⟨item,hitem,htasks⟩ := ScheduleMap.currentItem_mark (hmap ▸ hc) hmark
      exact ⟨item,hitem,htasks.isStep⟩

private theorem accounted_new : Accounted (new : TimingSystem S) where
  executions := le_refl 0
  firstTick h := by simp [new] at h
  ticked h := absurd h (lt_irrefl 0)
  running h := by simp [new,TimingMaster.new] at h

/-- In every run in which no start inherits a token, there are at most as many executions as triggers since the
start, and the first tick carries the time of one of them. -/
theorem executions_are_triggered (hreach : Reaches step NoLeftoverToken (new : TimingSystem S) s) :
    s.executions ≤ s.triggers.length ∧ ∀ tick, s.firstTick = some tick → tick.currentTime ∈ s.triggers := by
  have h := hreach.invariant accounted_new fun _ _ _ hinv hallowed hstep => accounted_step hinv hallowed hstep
  exact ⟨h.executions,fun _ ht => h.firstTick ht⟩

instance (s : TimingSystem S) (action : TimingAction) : Decidable (NoLeftoverToken s action) :=
  match action with
  | .start _ => inferInstanceAs (Decidable (_ → _ ∧ _))
  | .configure .. | .stop | .joinWorker | .reset | .updateSchedule _ | .internalTrigger _ | .threadFunc
  | .checkAckTimeout | .sendAck .. | .updateAck _ => inferInstanceAs (Decidable True)

theorem executions_are_triggered_twice : ∃ s : TimingSystem Nat,
    Reaches step NoLeftoverToken new s ∧ s.executions = 2 ∧ s.executions ≤ s.triggers.length := by
  let run := runAllowed step NoLeftoverToken (new : TimingSystem Nat) (configureAndStart taskUuid ++
    [.internalTrigger 0,.threadFunc,.threadFunc,.sendAck 0 taskUuid 0,.updateAck 0,
      .internalTrigger 10,.threadFunc,.threadFunc,.threadFunc,.threadFunc])
  have htwo : run.any (·.executions == 2) = true := by decide +kernel
  obtain ⟨s,hs,htwo⟩ := (Option.any_eq_true _ _).mp htwo
  have hreach := reaches_of_runAllowed hs
  exact ⟨s,hreach,by simpa using htwo,(executions_are_triggered hreach).1⟩

/-- A trigger one run has not used is executed by the next, which got none, and its first tick carries the initial
time. -/
theorem leftover_trigger_executed : ∃ (s : TimingSystem Nat) (tick : TriggerTick),
    Reaches step anyAction new s ∧ s.triggers.length < s.executions ∧ s.firstTick = some tick ∧
      tick.currentTime = -1 ∧ tick.currentTime ∉ s.triggers := by
  obtain ⟨s,hreach,hfacts⟩ : ∃ s, Reaches step anyAction (new : TimingSystem Nat) s ∧
      s.triggers.length < s.executions ∧ s.firstTick = some ⟨-1,0⟩ ∧ (-1 : Int) ∉ s.triggers :=
    exists_of_runActions (configureAndStart taskUuid ++
      [TimingAction.internalTrigger 0,.internalTrigger 10,.threadFunc,.threadFunc] ++ stopAndReset ++
      configureAndStart taskUuid ++ [TimingAction.threadFunc,.threadFunc]) (by decide +kernel)
  obtain ⟨hmore,htick,hmem⟩ := hfacts
  exact ⟨s,⟨-1,0⟩,hreach,hmore,htick,rfl,hmem⟩

end TimingSystem
end FepParticipant.Timing
