import FepParticipant.Timing.TimingSystem

/-! Lock-step safety: the master goes on only after every task of the current schedule has acknowledged it, unless an
acknowledgement of an older tick is counted. -/
namespace FepParticipant.Timing
open Library Option ScheduleMap

theorem WorkerPosition.Justified.mono {free free' complete complete' : Prop} {position : WorkerPosition}
    (h : position.Justified free complete) (hfree : free → free') (hcomplete : complete → complete') :
    position.Justified free' complete' := by
  cases position with
  | loopHead needToWait => cases needToWait with
    | false => exact hfree h
    | true => trivial
  | iteration needToWait => cases needToWait with
    | false => exact hfree h
    | true => trivial
  | innerHead => exact hcomplete h
  | innerIteration => exact hcomplete h
  | finished => trivial

namespace TimingSystem

variable {S : Type} [CountingSemaphore S] {s s' : TimingSystem S} {action : TimingAction}

/-- The message answers the latest execution of the current run. -/
def Answers (s : TimingSystem S) (message : AckMessage) : Prop :=
  message.run = s.run ∧ message.execution + 1 = s.executions

/-- No acknowledgement is delivered while the current schedule still waits for its task, unless
it answers this very schedule. -/
def NoStaleAck (s : TimingSystem S) : TimingAction → Prop
  | .updateAck n => ∀ message, s.acks[n]? = some message →
      s.master.countsAck message.ack.uuidStr = true → s.Answers message
  | _ => True

/-- The task has acknowledged the latest execution. -/
def Acknowledged (s : TimingSystem S) (uuid : String) : Prop :=
  ∃ message ∈ s.acks, s.Answers message ∧ message.ack.uuidStr = uuid

/-- There is nothing to wait for: no schedule was executed yet, or its slot has no task. -/
def Free (s : TimingSystem S) : Prop :=
  s.executions = 0 ∨ ∀ item, s.master.scheduleMap.currentItem = some item → ∀ uuid, ¬ item.Awaits uuid

/-- What holds of a master whose worker thread runs. -/
structure LockStepInv (s : TimingSystem S) : Prop where
  others : s.master.scheduleMap.OthersUnanswered
  flags {i : Nat} {item : ScheduleItem} : s.master.scheduleMap.scheduleVector[i]? = some item → item.FlagAgrees
  answered {item : ScheduleItem} {uuid : String} : s.master.scheduleMap.currentItem = some item →
    item.Answered uuid → s.Acknowledged uuid
  initial : s.master.isInitialScheduleFlag = true → s.executions = 0
  justified {mode : TriggerMode} {position : WorkerPosition} :
    s.master.workerThread = some ⟨mode,position⟩ → mode.needToWaitForCompletition = true →
    position.Justified s.Free s.master.Complete

/-- Every acknowledgement counted so far answered the schedule it was counted for. -/
def CountedAnswers (s : TimingSystem S) : Prop := ∀ c ∈ s.counted, c.1.run = c.2.1 ∧ c.1.execution + 1 = c.2.2

/-- The invariant of the runs without stale acknowledgements. -/
structure Safe (s : TimingSystem S) : Prop where
  running : s.master.workerThread.isSome → LockStepInv s
  counted : CountedAnswers s

variable {master : TimingMaster S}

section
omit [CountingSemaphore S]

theorem LockStepInv.of_sameRun (h : LockStepInv s)
    (hsame : SameRun s.master master) (hworker : master.workerThread.isSome) :
    LockStepInv {s with master := master} := by
  have hthread : master.workerThread = s.master.workerThread := by
    rcases hsame.worker with h' | h'
    · simp [h'] at hworker
    · exact h'
  refine ⟨?_,fun hi => ?_,fun hc ha => ?_,fun hi => ?_,fun hw hm => ?_⟩
  · rw [hsame.map]
    exact h.others
  · exact h.flags (by rwa [← hsame.map])
  · exact h.answered (by rwa [← hsame.map]) ha
  · exact h.initial (by rwa [← hsame.initial])
  · have hj := h.justified (by rwa [← hthread]) hm
    simpa only [Free,TimingMaster.Complete,hsame.map] using hj

theorem lockStepInv_start {context : StartContext} {result : Result}
    {effects : List Effect} (hnone : s.master.workerThread = none)
    (hstart : s.master.start context = some (master,result,effects)) (hworker : master.workerThread.isSome) :
    LockStepInv { s with
      master := master, run := s.run + 1, executions := 0, triggers := [], firstTick := none } := by
  cases TimingMaster.start_cases hstart with
  | notMaster _ => simp [hnone] at hworker
  | refused _ _ => simp [hnone] at hworker
  | notRegistered _ _ _ => simp [TimingMaster.prepareRun,hnone] at hworker
  | @started configs map strategy registered _ _ hconfigure _ _ _ =>
    obtain ⟨-,hslots⟩ := configure_slots rfl hconfigure
    have hunanswered := unanswered_configure rfl hconfigure
    refine ⟨hunanswered.others,fun {i item} hi => (hslots i item hi).flag,fun hc ha => ?_,fun _ => rfl,
      fun hw _ => ?_⟩
    · exact absurd ha (hunanswered _ _ hc _)
    · cases hw
      exact .inl rfl

theorem lockStepInv_executed {mode : TriggerMode} {tick completition : S} {next : TimingMaster S}
    {sent : Option TriggerTick} {need : Bool} (h : LockStepInv s) (hnext : TimingMaster.doNextSchedule
      {s.master with tickBarrier := tick, completitionBarrier := completition} = some (next,sent,need)) :
    LockStepInv (s.book
      (next.setPosition mode (.loopHead (mode.needToWaitForCompletition && need))) (.executed sent)) := by
  obtain ⟨map,item,hmap,hitem,rfl,-,hneed⟩ := TimingMaster.doNextSchedule_cases hnext
  have hentered : map.Unanswered ∧ ∀ {i : Nat} {item : ScheduleItem},
      map.scheduleVector[i]? = some item → item.FlagAgrees := by
    simp only [TimingMaster.nextScheduleMap] at hmap
    split at hmap
    · rename_i hinitial
      obtain rfl := some_inj.mp hmap
      have hzero := h.initial hinitial
      refine ⟨fun i item' hi uuid ha => ?_,h.flags⟩
      by_cases hcurrent : i = s.master.scheduleMap.currentIndex
      · rw [hcurrent] at hi
        obtain ⟨_,_,⟨_,hexecution⟩,_⟩ := h.answered hi ha
        omega
      · exact h.others i item' hcurrent hi uuid ha
    · have hvalid := indexValid_of_increment hmap hitem
      refine ⟨unanswered_increment hvalid h.others hmap,fun hi => ?_⟩
      obtain ⟨hsame,-⟩ := sameTable_increment hvalid hmap
      obtain ⟨old,hold,htasks⟩ := hsame.slot hi
      exact htasks.flagAgrees (h.flags hold)
  obtain ⟨hunanswered,hflags⟩ := hentered
  refine ⟨hunanswered.others,hflags,fun hc ha => absurd ha (hunanswered _ _ hc _),fun hi => ?_,
    fun hw hm => ?_⟩
  · cases hi
  · cases hw
    rw [hm,Bool.true_and]
    cases need with
    | true => trivial
    | false =>
      refine .inr fun item' hitem' uuid hawaits => ?_
      obtain rfl : item = item' := some_inj.mp (hitem.symm.trans hitem')
      have hstep : item.isStepInCurrentSchedule = true := ScheduleItem.isStep_iff.mpr ⟨uuid,hawaits.2⟩
      have hconfigured : item.hasConfiguredStep = true := (hflags hitem).mpr ⟨uuid,hawaits⟩
      simp [hstep,hconfigured] at hneed

end

theorem lockStepInv_worker {event : WorkerEvent} (h : LockStepInv s)
    (hcase : s.master.WorkerCase master event) : LockStepInv (s.book master event) := by
  cases hcase with
  | moved hworker hjustified =>
    refine ⟨h.others,h.flags,h.answered,h.initial,fun hw hm => ?_⟩
    cases hw
    exact hjustified hm _ (h.justified hworker hm)
  | executed hworker htick hgo hnext => exact lockStepInv_executed h hnext

omit [CountingSemaphore S] in
theorem lockStepInv_delivered {message : AckMessage} {map : ScheduleMap} {marked : Bool}
    {counted : List (AckMessage × Nat × Nat)} (h : LockStepInv s) (hmem : message ∈ s.acks)
    (hmark : s.master.scheduleMap.markStepForCurrentSchedule message.ack.uuidStr = some (map,marked))
    (hsame : SameRun {s.master with scheduleMap := map} master)
    (hallowed : marked = true → s.Answers message) (hworker : master.workerThread.isSome) :
    LockStepInv {s with master := master, counted := counted} := by
  obtain ⟨htable,-⟩ := sameTable_mark hmark
  have hmap : master.scheduleMap = map := hsame.map
  have hthread : master.workerThread = s.master.workerThread := by
    rcases hsame.worker with h' | h'
    · simp [h'] at hworker
    · exact h'
  refine ⟨?_,fun hi => ?_,fun {item' uuid} hc ha => ?_,fun hi => ?_,fun hw hm => ?_⟩
  · rw [hmap]
    exact othersUnanswered_mark h.others hmark
  · rw [hmap] at hi
    obtain ⟨old,hold,htasks⟩ := htable.slot hi
    exact htasks.flagAgrees (h.flags hold)
  · rw [hmap] at hc
    obtain ⟨item,hitem,-⟩ := currentItem_mark hc hmark
    rcases (answered_current_mark hitem hmark hc).mp ha with ha | ⟨rfl,hwaiting⟩
    · exact h.answered hitem ha
    · exact ⟨message,hmem,hallowed ((marked_iff hitem hmark).mpr hwaiting),rfl⟩
  · exact h.initial (by rwa [hsame.initial] at hi)
  · refine (h.justified (by rwa [← hthread]) hm).mono (fun hfree => ?_) fun hcomplete => ?_
    · refine hfree.imp id fun hnone item' hitem' uuid hawaits => ?_
      rw [hmap] at hitem'
      obtain ⟨item,hitem,htasks⟩ := currentItem_mark hitem' hmark
      exact hnone item hitem uuid (htasks.awaits.mp hawaits)
    · rw [TimingMaster.Complete,hmap]
      exact isComplete_mark hcomplete hmark

theorem safe_step (h : Safe s) (hallowed : NoStaleAck s action) (hstep : step s action = some s') : Safe s' := by
  cases step_cases hstep with
  | lifecycle hsame =>
    refine ⟨fun hworker => ?_,h.counted⟩
    have hrunning : s.master.workerThread.isSome := by
      rcases hsame.worker with h' | h'
      · simp [h'] at hworker
      · rwa [h'] at hworker
    exact (h.running hrunning).of_sameRun hsame hworker
  | start hnone hstart => exact ⟨lockStepInv_start hnone hstart,h.counted⟩
  | trigger =>
    refine ⟨fun hworker => ?_,h.counted⟩
    obtain ⟨h1,h2,h3,h4,h5⟩ := h.running hworker
    exact ⟨h1,h2,h3,h4,h5⟩
  | @worker master event hcase =>
    have hrunning : s.master.workerThread.isSome := by
      cases hcase with
      | moved hworker _ => simp [hworker]
      | executed hworker _ _ _ => simp [hworker]
    refine ⟨fun _ => lockStepInv_worker (h.running hrunning) hcase,?_⟩
    cases event <;> exact h.counted
  | sent =>
    refine ⟨fun hworker => ?_,h.counted⟩
    obtain ⟨h1,h2,h3,h4,h5⟩ := h.running hworker
    refine ⟨h1,h2,fun hc ha => ?_,h4,h5⟩
    obtain ⟨message,hmem,hanswer⟩ := h3 hc ha
    exact ⟨message,List.mem_append_left _ hmem,hanswer⟩
  | @delivered n message map marked master hmessage hmark hsame =>
    have hmarked : marked = true → s.Answers message := fun hm =>
      hallowed message hmessage (by simp [TimingMaster.countsAck,hmark,hm])
    refine ⟨fun hworker => ?_,fun c hc => ?_⟩
    · have hrunning : s.master.workerThread.isSome := by
        rcases hsame.worker with h' | h'
        · simp [h'] at hworker
        · rwa [h'] at hworker
      exact lockStepInv_delivered (h.running hrunning) (List.mem_of_getElem? hmessage) hmark hsame hmarked hworker
    · cases marked with
      | false => exact h.counted c (by simpa using hc)
      | true =>
        simp only [if_true,List.mem_append,List.mem_singleton] at hc
        rcases hc with hc | rfl
        · exact h.counted c hc
        · exact hmarked rfl

theorem safe_of_reaches (hreach : Reaches step NoStaleAck (new : TimingSystem S) s) : Safe s :=
  hreach.invariant ⟨fun h => by simp [new,TimingMaster.new] at h,fun c hc => by simp [new] at hc⟩
    fun _ _ _ hsafe hallowed hstep => safe_step hsafe hallowed hstep

theorem acknowledged_of_safe {worker : WorkerThread} {item : ScheduleItem} {uuid : String} (h : Safe s)
    (hstep : step s .threadFunc = some s') (hnext : s'.executions = s.executions + 1)
    (hfirst : 0 < s.executions) (hworker : s.master.workerThread = some worker)
    (hmode : worker.mode.needToWaitForCompletition = true)
    (hitem : s.master.scheduleMap.currentItem = some item) (hawaits : item.Awaits uuid) : s.Acknowledged uuid := by
  have hinv := h.running (by simp [hworker])
  obtain ⟨⟨master,event⟩,hthread,rfl⟩ := map_eq_some_iff.mp hstep
  cases TimingMaster.threadFunc_cases hthread with
  | moved _ _ =>
    simp only [book] at hnext
    omega
  | executed hworker' _ hgo _ =>
    obtain rfl := some_inj.mp (hworker.symm.trans hworker')
    rcases hgo hmode _ (hinv.justified hworker hmode) with (hzero | hnone) | hcomplete
    · omega
    · exact absurd hawaits (hnone item hitem uuid)
    · rw [TimingMaster.Complete,isComplete_eq hitem,some_inj] at hcomplete
      exact hinv.answered hitem (ScheduleItem.isComplete_iff.mp hcomplete uuid hawaits)

private theorem counted_mono (hstep : step s action = some s') : ∀ c ∈ s.counted, c ∈ s'.counted := by
  intro c hc
  cases step_cases hstep with
  | lifecycle _ => exact hc
  | start _ _ => exact hc
  | trigger => exact hc
  | @worker _ event _ => cases event <;> exact hc
  | sent => exact hc
  | @delivered _ _ _ marked _ _ _ _ =>
    cases marked
    · exact hc
    · exact List.mem_append_left _ hc

private theorem noStaleAck_of_counted (hstep : step s action = some s') (hcounted : CountedAnswers s') :
    NoStaleAck s action := by
  cases action with
  | updateAck n =>
    intro message hmessage hcounts
    simp only [step,hmessage,bind_some] at hstep
    obtain ⟨master,-,rfl⟩ := map_eq_some_iff.mp hstep
    exact hcounted (message,s.run,s.executions) (by simp [hcounts])
  | _ => trivial

/-- A run counts no stale acknowledgement exactly if every one counted answers its schedule, and then the master
goes on only after every task of the slot has acknowledged that very execution. -/
theorem next_schedule_is_acknowledged (hreach : Reaches step anyAction (new : TimingSystem S) s) :
    (Reaches step NoStaleAck (new : TimingSystem S) s ↔ CountedAnswers s) ∧
    (Reaches step NoStaleAck (new : TimingSystem S) s →
      ∀ (s' : TimingSystem S) (worker : WorkerThread) (item : ScheduleItem),
        step s .threadFunc = some s' → s'.executions = s.executions + 1 → 0 < s.executions →
        s.master.workerThread = some worker → worker.mode.needToWaitForCompletition = true →
        s.master.scheduleMap.currentItem = some item →
        ∀ uuid, item.Awaits uuid → s.Acknowledged uuid) := by
  refine ⟨⟨fun h => (safe_of_reaches h).counted,fun hcounted => ?_⟩,?_⟩
  · induction hreach with
    | refl => exact .refl
    | tail _ _ hstep ih =>
      exact (ih fun c hc => hcounted c (counted_mono hstep c hc)).tail (noStaleAck_of_counted hstep hcounted) hstep
  · intro h s' worker item hstep hnext hfirst hworker hmode hitem uuid hawaits
    exact acknowledged_of_safe (safe_of_reaches h) hstep hnext hfirst hworker hmode hitem hawaits

def firstSchedule : List TimingAction := configureAndStart taskUuid ++ [.internalTrigger 0,.threadFunc,.threadFunc]

/-- The worker steps from a counted acknowledgement up to the tick barrier. -/
def completeActions : List TimingAction := [.internalTrigger 10,.threadFunc,.threadFunc,.threadFunc]

instance (s : TimingSystem S) (uuid : String) : Decidable (s.Acknowledged uuid) :=
  inferInstanceAs (Decidable (∃ message ∈ s.acks,
    (message.run = s.run ∧ message.execution + 1 = s.executions) ∧ message.ack.uuidStr = uuid))

instance (s : TimingSystem S) : Decidable (CountedAnswers s) :=
  inferInstanceAs (Decidable (∀ c ∈ s.counted, c.1.run = c.2.1 ∧ c.1.execution + 1 = c.2.2))

def leavesFirstSlot (s : TimingSystem Nat) (uuid : String) : Bool :=
  s.executions == 1 && s.master.workerThread == some ⟨.systemTime,.innerIteration⟩ &&
    (step s .threadFunc).any (·.executions == 2) &&
    s.master.scheduleMap.currentItem.any fun item => decide (item.Awaits uuid)

theorem leavesFirstSlot_spec {s : TimingSystem Nat} {uuid : String} (h : s.leavesFirstSlot uuid = true) :
    ∃ s' item, step s .threadFunc = some s' ∧ s'.executions = s.executions + 1 ∧ 0 < s.executions ∧
      s.master.workerThread = some ⟨.systemTime,.innerIteration⟩ ∧
      s.master.scheduleMap.currentItem = some item ∧ item.Awaits uuid := by
  simp only [leavesFirstSlot,Bool.and_eq_true,beq_iff_eq,any_eq_true,decide_eq_true_eq] at h
  obtain ⟨⟨⟨hexecutions,hworker⟩,s',hstep,hnext⟩,item,hitem,hawaits⟩ := h
  exact ⟨s',item,hstep,by omega,by omega,hworker,hitem,hawaits⟩

theorem next_schedule_is_acknowledged_in_time : ∃ s : TimingSystem Nat,
    runActions step new (firstSchedule ++ [.sendAck 0 taskUuid 0,.updateAck 0] ++ completeActions) =
      some s ∧ s.Acknowledged taskUuid := by
  let run := runActions step (new : TimingSystem Nat)
    (firstSchedule ++ [TimingAction.sendAck 0 taskUuid 0,.updateAck 0] ++ completeActions)
  have hfacts : run.any (fun s => decide (CountedAnswers s) && s.leavesFirstSlot taskUuid) = true := by
    decide +kernel
  obtain ⟨s,hs,hfacts⟩ := (any_eq_true _ _).mp hfacts
  simp only [Bool.and_eq_true,decide_eq_true_eq] at hfacts
  obtain ⟨s',item,hstep,hnext,hfirst,hworker,hitem,hawaits⟩ := leavesFirstSlot_spec hfacts.2
  obtain ⟨hiff,hsafe⟩ := next_schedule_is_acknowledged (reaches_of_runActions hs)
  exact ⟨s,hs,hsafe (hiff.mpr hfacts.1) s' _ item hstep hnext hfirst hworker rfl hitem taskUuid hawaits⟩

/-- The acknowledgement of one run's first tick, still in flight at the stop, is counted for the first tick of the
next. -/
theorem late_acknowledgement_counted : ∃ (s s' : TimingSystem Nat) (item : ScheduleItem),
    Reaches step anyAction (new : TimingSystem Nat) s ∧ step s .threadFunc = some s' ∧
      s'.executions = s.executions + 1 ∧ 0 < s.executions ∧
      s.master.workerThread = some ⟨.systemTime,.innerIteration⟩ ∧
      s.master.scheduleMap.currentItem = some item ∧ item.Awaits taskUuid ∧
      ¬ s.Acknowledged taskUuid ∧ ¬ CountedAnswers s := by
  obtain ⟨s,hreach,hfacts⟩ : ∃ s, Reaches step anyAction (new : TimingSystem Nat) s ∧
      (¬ s.Acknowledged taskUuid ∧ ¬ CountedAnswers s) ∧ s.leavesFirstSlot taskUuid = true :=
    exists_of_runActions (firstSchedule ++ [TimingAction.sendAck 0 taskUuid 0] ++ stopAndReset ++ firstSchedule ++
      [TimingAction.updateAck 0] ++ completeActions) (by decide +kernel)
  obtain ⟨s',item,hstep,hnext,hfirst,hworker,hitem,hawaits⟩ := leavesFirstSlot_spec hfacts.2
  exact ⟨s,s',item,hreach,hstep,hnext,hfirst,hworker,hitem,hawaits,hfacts.1⟩

end TimingSystem
end FepParticipant.Timing
