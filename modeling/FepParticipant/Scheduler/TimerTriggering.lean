import FepParticipant.Library.PeriodicInstants
import FepParticipant.Scheduler.TimerScheduler

/-! Timers are triggered at their delay and each cycle after it exactly when no reset moves the clock, neither at the
start of the run nor within it. -/
namespace FepParticipant.Scheduler
open Clock Library List TimerScheduler

variable {current now : Int} {info : TimerInfo} {timers others : List TimerInfo} {jobs : List Job}
  {processed : Processed}

def DueFirst (current : Int) (timers : List TimerInfo) : Prop :=
  timers.Pairwise fun info other => other.nextInstant ≤ current → info.nextInstant ≤ current

theorem mem_insertNext {other : TimerInfo} :
    other ∈ info.insertNext current others ↔ other = info ∨ other ∈ others := by
  rw [(info.insertNext_perm current others).mem_iff,mem_cons]

/-- An insertion keeps an order in which the timer stands in front of those behind its place, and behind the others. -/
theorem pairwise_insertNext {order : TimerInfo → TimerInfo → Prop} (h : others.Pairwise order)
    (hahead : ∀ other later, current < other.nextInstant ∧ info.nextInstant < other.nextInstant →
      later = other ∨ order other later → order info later)
    (hbehind : ∀ other, ¬(current < other.nextInstant ∧ info.nextInstant < other.nextInstant) → order other info) :
    (info.insertNext current others).Pairwise order := by
  induction others with
  | nil => exact pairwise_singleton ..
  | cons other others ih =>
    obtain ⟨hother,hothers⟩ := pairwise_cons.mp h
    rw [TimerInfo.insertNext]
    split
    · rename_i hplace
      refine pairwise_cons.mpr ⟨fun later hlater => hahead other later hplace ?_,h⟩
      exact (mem_cons.mp hlater).imp_right (hother later)
    · rename_i hplace
      refine pairwise_cons.mpr ⟨fun later hlater => ?_,ih hothers⟩
      rcases mem_insertNext.mp hlater with rfl | hmem
      · exact hbehind other hplace
      · exact hother later hmem

theorem dueFirst_insertNext (h : DueFirst current others) : DueFirst current (info.insertNext current others) := by
  refine pairwise_insertNext h ?_ ?_
  · rintro other later hplace (rfl | horder) hdue
    · omega
    · have hdue := horder hdue
      omega
  · intro other hplace hdue
    omega

theorem dueFirst_sort (current : Int) (timers : List TimerInfo) : DueFirst current (TimerScheduler.sort timers) := by
  apply (pairwise_insertionSort (fun info other : TimerInfo => info.nextInstant ≤ other.nextInstant) timers).imp
  intro info other hle hdue
  exact hle.trans hdue

/-- The timer once all its instants up to this time have passed. -/
def TimerInfo.advancedTo (current : Int) (info : TimerInfo) : TimerInfo :=
  {info with nextInstant := Library.nextInstant info.nextInstant info.period current}

theorem not_waits (hcurrent : 0 ≤ current) (h : ¬info.waits current) : info.nextInstant ≤ current := by
  unfold TimerInfo.waits at h
  omega

theorem triggersIn_wakeUp (timer : Nat) (woken : Nat) (wakeupTime : Int) (calls : List TimerCall) :
    triggersIn timer (.wakeUp woken wakeupTime::calls) =
      if woken = timer then wakeupTime::triggersIn timer calls else triggersIn timer calls := by
  by_cases hwoken : woken = timer
  · rw [if_pos hwoken]
    exact filterMap_cons_some (if_pos hwoken)
  · rw [if_neg hwoken]
    exact filterMap_cons_none (if_neg hwoken)

namespace TimerInfo

def dueInstants (current : Int) (info : TimerInfo) : List Int :=
  if info.period ≠ 0 then instants info.nextInstant info.period current
  else if info.nextInstant ≤ current then [info.nextInstant] else []

/-- The timer is still in the queue once its instants up to this time have passed. -/
def stays (current : Int) (info : TimerInfo) : Bool := decide (info.period ≠ 0 ∨ current < info.nextInstant)

theorem dueInstants_of_lt (h : current < info.nextInstant) : info.dueInstants current = [] := by
  unfold dueInstants
  split
  · rename_i hperiod
    exact instants_of_lt (Nat.pos_of_ne_zero hperiod) h
  · exact if_neg (by omega)

theorem dueInstants_of_le (h : info.nextInstant ≤ current) : info.dueInstants current =
    info.nextInstant::if info.period ≠ 0 then info.advanced.dueInstants current else [] := by
  unfold dueInstants
  by_cases hperiod : info.period ≠ 0
  · have hadvanced : info.advanced.period ≠ 0 := hperiod
    rw [if_pos hperiod,if_pos hperiod,if_pos hadvanced,instants_of_le (Nat.pos_of_ne_zero hperiod) h]
    rfl
  · rw [if_neg hperiod,if_neg hperiod,if_pos h]

theorem advancedTo_of_lt (h : current < info.nextInstant) : info.advancedTo current = info := by
  have hsame : Library.nextInstant info.nextInstant info.period current = info.nextInstant := by
    by_cases hperiod : info.period = 0
    · simp [Library.nextInstant,hperiod]
    · exact nextInstant_of_lt (Nat.pos_of_ne_zero hperiod) h
  rw [advancedTo,hsame]

theorem advancedTo_advanced (hperiod : info.period ≠ 0) (h : info.nextInstant ≤ current) :
    info.advanced.advancedTo current = info.advancedTo current := by
  simp only [advancedTo,advanced,nextInstant_of_le (Nat.pos_of_ne_zero hperiod) h]

theorem mem_requeue {other : TimerInfo} (h : other ∈ info.requeue current others) :
    other ∈ others ∨ (info.period ≠ 0 ∧ other = info.advanced) := by
  unfold requeue at h
  split at h
  · rename_i hperiod
    exact (mem_insertNext.mp h).symm.imp id fun heq => ⟨hperiod,heq⟩
  · exact .inl h

theorem dueFirst_requeue (h : DueFirst current (info::others)) : DueFirst current (info.requeue current others) := by
  have hothers : DueFirst current others := (pairwise_cons.mp h).2
  unfold requeue
  split
  · exact dueFirst_insertNext hothers
  · exact hothers

theorem nodup_requeue (h : ((info::others).map timer).Nodup) : ((info.requeue current others).map timer).Nodup := by
  unfold requeue
  split
  · rw [((info.advanced.insertNext_perm current others).map _).nodup_iff]
    exact h
  · exact (nodup_cons.mp h).2

end TimerInfo

theorem late_of_waits (hdue : DueFirst current (info::others)) (hwaits : info.waits current) :
    ∀ other ∈ info::others, current < other.nextInstant := by
  intro other hother
  rcases mem_cons.mp hother with rfl | hmem
  · exact hwaits.2
  · have hbehind := (pairwise_cons.mp hdue).1 other hmem
    have hlate := hwaits.2
    omega

/-- The timers that will be left, each at its first instant later than the current time. -/
def leftOver (current : Int) (timers : List TimerInfo) : List TimerInfo :=
  (timers.filter (TimerInfo.stays current)).map (TimerInfo.advancedTo current)

theorem leftOver_cons_of_lt (hlate : current < info.nextInstant) :
    leftOver current (info::others) = info::leftOver current others := by
  have hstays : TimerInfo.stays current info = true := decide_eq_true (.inr hlate)
  rw [leftOver,leftOver,filter_cons_of_pos hstays,map_cons,TimerInfo.advancedTo_of_lt hlate]

theorem leftOver_cons_of_single (hperiod : info.period = 0) (hdue : info.nextInstant ≤ current) :
    leftOver current (info::others) = leftOver current others := by
  have hleaves : ¬TimerInfo.stays current info = true := by
    simp only [TimerInfo.stays,decide_eq_true_eq]
    omega
  rw [leftOver,leftOver,filter_cons_of_neg hleaves]

theorem leftOver_cons_of_periodic (hperiod : info.period ≠ 0) (hdue : info.nextInstant ≤ current) :
    leftOver current (info.advanced::others) = leftOver current (info::others) := by
  have hstays : TimerInfo.stays current info = true := decide_eq_true (.inl hperiod)
  have hstays' : TimerInfo.stays current info.advanced = true := decide_eq_true (.inl hperiod)
  rw [leftOver,leftOver,filter_cons_of_pos hstays,filter_cons_of_pos hstays',map_cons,
    map_cons,TimerInfo.advancedTo_advanced hperiod hdue]

theorem leftOver_late (h : ∀ info ∈ timers, current < info.nextInstant) : leftOver current timers = timers := by
  induction timers with
  | nil => rfl
  | cons info others ih =>
    rw [leftOver_cons_of_lt (h info mem_cons_self),ih fun other hother => h other (mem_cons_of_mem _ hother)]

theorem leftOver_congr (h : leftOver current timers = leftOver current others) :
    leftOver current (info::timers) = leftOver current (info::others) := by
  unfold leftOver at h ⊢
  rw [filter_cons,filter_cons]
  split
  · rw [map_cons,map_cons,h]
  · exact h

theorem leftOver_perm (h : timers.Perm others) : (leftOver current timers).Perm (leftOver current others) :=
  (h.filter _).map _

/-- The turns of the loop that lead to its result. -/
inductive Drains (current : Int) : List TimerInfo → Processed → Prop
  | empty : Drains current [] ⟨[],[],-1⟩
  | waits (info : TimerInfo) (others : List TimerInfo) : info.waits current →
      Drains current (info::others) ⟨[],info::others,info.nextInstant - current⟩
  | wakes (info : TimerInfo) (others : List TimerInfo) (later : Processed) : ¬info.waits current →
      Drains current (info.requeue current others) later →
      Drains current (info::others) {later with calls := .wakeUp info.timer info.nextInstant::later.calls}

theorem drains_of_processLoop (h : processLoop current timers = some processed) : Drains current timers processed := by
  induction timers using processLoop.induct current generalizing processed with
  | case1 =>
    rw [processLoop] at h
    cases h
    exact .empty
  | case2 info others hwaits hfits =>
    rw [processLoop,if_pos hwaits,if_pos hfits] at h
    cases h
    exact .waits info others hwaits
  | case3 info others hwaits hfits =>
    rw [processLoop,if_pos hwaits,if_neg hfits] at h
    cases h
  | case4 info others hwaits hoverflows =>
    rw [processLoop,if_neg hwaits,if_pos hoverflows] at h
    cases h
  | case5 info others hwaits hoverflows ih =>
    rw [processLoop,if_neg hwaits,if_neg hoverflows] at h
    obtain ⟨later,hlater,hprocessed⟩ := Option.bind_eq_some_iff.mp h
    cases hprocessed
    exact .wakes info others later hwaits (ih hlater)

theorem Drains.remaining (hcurrent : 0 ≤ current) (hdue : DueFirst current timers)
    (h : Drains current timers processed) : processed.timers.Perm (leftOver current timers) := by
  induction h with
  | empty => rfl
  | waits info others hwaits => rw [leftOver_late (late_of_waits hdue hwaits)]
  | wakes info others later hwaits _ ih =>
    have hnow := not_waits hcurrent hwaits
    refine (ih (TimerInfo.dueFirst_requeue hdue)).trans ?_
    by_cases hperiod : info.period ≠ 0
    · rw [TimerInfo.requeue,if_pos hperiod,← leftOver_cons_of_periodic hperiod hnow]
      exact leftOver_perm (info.advanced.insertNext_perm current others)
    · rw [TimerInfo.requeue,if_neg hperiod,leftOver_cons_of_single (not_not.mp hperiod) hnow]

theorem Drains.strangers {timer : Nat} (h : Drains current timers processed)
    (hother : ∀ info ∈ timers, info.timer ≠ timer) : triggersIn timer processed.calls = [] := by
  induction h with
  | empty => rfl
  | waits info others hwaits => rfl
  | wakes info others later hwaits _ ih =>
    rw [triggersIn_wakeUp,if_neg (hother info mem_cons_self)]
    apply ih
    intro other hmem
    rcases TimerInfo.mem_requeue hmem with hold | ⟨-,rfl⟩
    · exact hother other (mem_cons_of_mem _ hold)
    · exact hother info mem_cons_self

theorem Drains.dueInstants (hcurrent : 0 ≤ current) (hdue : DueFirst current timers)
    (hnodup : (timers.map TimerInfo.timer).Nodup) (h : Drains current timers processed) (hmem : info ∈ timers) :
    triggersIn info.timer processed.calls = info.dueInstants current := by
  induction h generalizing info with
  | empty => cases hmem
  | waits first others hwaits =>
    rw [TimerInfo.dueInstants_of_lt (late_of_waits hdue hwaits info hmem)]
    rfl
  | wakes first others later hwaits hlater ih =>
    have hdue' := TimerInfo.dueFirst_requeue hdue
    have hnodup' : ((first.requeue current others).map TimerInfo.timer).Nodup := TimerInfo.nodup_requeue hnodup
    have hothers : ∀ other ∈ others, other.timer ≠ first.timer := by
      intro other hother hsame
      exact (nodup_cons.mp hnodup).1 (hsame ▸ mem_map_of_mem hother)
    rw [triggersIn_wakeUp]
    rcases mem_cons.mp hmem with rfl | hlate
    · rw [if_pos rfl,TimerInfo.dueInstants_of_le (not_waits hcurrent hwaits)]
      congr 1
      by_cases hperiod : info.period ≠ 0
      · have hagain : info.advanced ∈ info.requeue current others := by
          rw [TimerInfo.requeue,if_pos hperiod]
          exact mem_insertNext.mpr (.inl rfl)
        rw [if_pos hperiod]
        exact ih hdue' hnodup' hagain
      · rw [if_neg hperiod]
        rw [TimerInfo.requeue,if_neg hperiod] at hlater
        exact hlater.strangers hothers
    · rw [if_neg (hothers info hlate).symm]
      apply ih hdue' hnodup'
      unfold TimerInfo.requeue
      split
      · exact mem_insertNext.mpr (.inr hlate)
      · exact hlate

/-- The instants up to this time, and the first behind it, fit into 64 bits. -/
def InRange (current : Int) (timers : List TimerInfo) : Prop :=
  ∀ info ∈ timers, -2 ^ 63 ≤ info.nextInstant ∧ (info.advancedTo current).nextInstant < 2 ^ 63

theorem InRange.advanced (hrange : -2 ^ 63 ≤ info.nextInstant ∧ (info.advancedTo current).nextInstant < 2 ^ 63)
    (hperiod : info.period ≠ 0) (hdue : info.nextInstant ≤ current) : Fits64 info.advanced.nextInstant ∧
      -2 ^ 63 ≤ info.advanced.nextInstant ∧ (info.advanced.advancedTo current).nextInstant < 2 ^ 63 := by
  have hlow : -2 ^ 63 ≤ info.advanced.nextInstant := by
    show _ ≤ info.nextInstant + (info.period : Int)
    omega
  rw [← TimerInfo.advancedTo_advanced hperiod hdue] at hrange
  exact ⟨⟨hlow,(le_nextInstant ..).trans_lt hrange.2⟩,hlow,hrange.2⟩

/-- In this range the loop comes to its end. -/
theorem InRange.exists_processLoop (hcurrent : 0 ≤ current) (hrange : InRange current timers) :
    ∃ processed, processLoop current timers = some processed := by
  induction timers using processLoop.induct current with
  | case1 => exact ⟨_,processLoop.eq_1 current⟩
  | case2 info others hwaits hfits => exact ⟨_,by rw [processLoop,if_pos hwaits,if_pos hfits]⟩
  | case3 info others hwaits hfits =>
    have hlate := hwaits.2
    have hhigh := (le_nextInstant ..).trans_lt (hrange info mem_cons_self).2
    exact absurd ⟨by omega,by omega⟩ hfits
  | case4 info others hwaits hoverflows =>
    have hadvanced := InRange.advanced (hrange info mem_cons_self) hoverflows.1 (not_waits hcurrent hwaits)
    exact absurd hadvanced.1 hoverflows.2
  | case5 info others hwaits hoverflows ih =>
    obtain ⟨later,hlater⟩ := ih fun other hother => by
      rcases TimerInfo.mem_requeue hother with hold | ⟨hperiod,rfl⟩
      · exact hrange other (mem_cons_of_mem _ hold)
      · exact (InRange.advanced (hrange info mem_cons_self) hperiod (not_waits hcurrent hwaits)).2
    exact ⟨_,by rw [processLoop,if_neg hwaits,if_neg hoverflows,hlater]; rfl⟩

def queued (jobs : List Job) (instant : Job → Int) : List TimerInfo :=
  jobs.zipIdx.map fun job => ⟨job.2,instant job.1,job.1.cycle⟩

/-- Jobs as they can be configured: no negative delay, a positive cycle, and instants behind the start and each of
these times that fit into 64 bits. -/
def ValidJobs (times : List Int) (jobs : List Job) : Prop := ∀ job ∈ jobs, 0 ≤ job.delay ∧ 0 < job.cycle ∧
  ∀ time ∈ 0::times, nextInstant job.delay job.cycle time < 2 ^ 63

theorem validJobs_singleton {times : List Int} {delay : Int} (hdelay : 0 ≤ delay) (hfits : delay < 2 ^ 63 - 1)
    (htimes : ∀ time ∈ times, time < 2 ^ 63 - 1) : ValidJobs times [⟨delay,1⟩] := by
  intro job hjob
  obtain rfl := mem_singleton.mp hjob
  refine ⟨hdelay,one_pos,fun time htime => ?_⟩
  have hearly : time < 2 ^ 63 - 1 := by
    rcases mem_cons.mp htime with rfl | hmem
    · decide
    · exact htimes time hmem
  unfold nextInstant dueCount
  dsimp only
  omega

theorem ValidJobs.fits {times : List Int} (hjobs : ValidJobs times jobs) : ∀ job ∈ jobs, Fits64 job.delay := by
  intro job hjob
  obtain ⟨hdelay,-,hfits⟩ := hjobs job hjob
  exact ⟨by omega,(le_nextInstant ..).trans_lt (hfits 0 mem_cons_self)⟩

namespace TimerScheduler

structure Serves (jobs : List Job) (instant : Job → Int) (triggered : Job → List Int)
    (scheduler : TimerScheduler) : Prop where
  timers : scheduler.timers.Perm (queued jobs instant)
  triggers : ∀ timer job, jobs[timer]? = some job → scheduler.triggers timer = triggered job

variable {scheduler next : TimerScheduler} {instant : Job → Int} {triggered : Job → List Int} {times : List Int}

theorem triggers_append (calls : List TimerCall) (timer : Nat) :
    triggersIn timer (scheduler.calls ++ calls) = scheduler.triggers timer ++ triggersIn timer calls :=
  filterMap_append ..

theorem Serves.process (h : scheduler.Serves jobs instant triggered) (hjobs : ∀ job ∈ jobs, 0 < job.cycle)
    (hcurrent : 0 ≤ current) (hprocess : scheduler.processSchedulerQueueSynchron current = some next) :
    next.Serves jobs (fun job => nextInstant (instant job) job.cycle current)
      (fun job => triggered job ++ instants (instant job) job.cycle current) := by
  obtain ⟨processed,hloop,hnext⟩ := Option.bind_eq_some_iff.mp hprocess
  cases hnext
  have hdrains := drains_of_processLoop hloop
  have hperm : (sort scheduler.timers).Perm (queued jobs instant) := (perm_insertionSort _ _).trans h.timers
  have hperiod : ∀ info ∈ queued jobs instant, info.period ≠ 0 := by
    intro info hmem
    obtain ⟨job,hjob,rfl⟩ := mem_map.mp hmem
    exact (hjobs job.1 (fst_mem_of_mem_zipIdx hjob)).ne'
  have hdue := dueFirst_sort current scheduler.timers
  have hnodup : ((sort scheduler.timers).map TimerInfo.timer).Nodup := by
    rw [(hperm.map _).nodup_iff,queued,map_map]
    change (jobs.zipIdx.map Prod.snd).Nodup
    rw [zipIdx_map_snd]
    exact nodup_range'
  constructor
  · refine ((hdrains.remaining hcurrent hdue).trans (leftOver_perm hperm)).trans ?_
    have hstays : ∀ info ∈ queued jobs instant, info.stays current = true := fun info hinfo =>
      decide_eq_true (.inl (hperiod info hinfo))
    rw [leftOver,filter_eq_self.mpr hstays,queued,map_map]
    rfl
  · intro timer job hjob
    have hmem : (⟨timer,instant job,job.cycle⟩ : TimerInfo) ∈ sort scheduler.timers := by
      apply hperm.mem_iff.mpr
      exact mem_map.mpr ⟨(job,timer),mk_mem_zipIdx_iff_getElem?.mpr hjob,rfl⟩
    refine (triggers_append _ timer).trans ?_
    rw [h.triggers timer job hjob,hdrains.dueInstants hcurrent hdue hnodup hmem,TimerInfo.dueInstants,
      if_pos (hperiod _ (hperm.mem_iff.mp hmem))]

theorem Serves.exists_process (h : scheduler.Serves jobs instant triggered) (hcurrent : 0 ≤ current)
    (hrange : ∀ job ∈ jobs, 0 ≤ instant job ∧ nextInstant (instant job) job.cycle current < 2 ^ 63) :
    ∃ next, scheduler.processSchedulerQueueSynchron current = some next := by
  have hinRange : InRange current (sort scheduler.timers) := by
    intro info hinfo
    obtain ⟨job,hjob,rfl⟩ := mem_map.mp (((perm_insertionSort _ _).trans h.timers).mem_iff.mp hinfo)
    obtain ⟨hlow,hhigh⟩ := hrange job.1 (fst_mem_of_mem_zipIdx hjob)
    exact ⟨by dsimp only; omega,hhigh⟩
  obtain ⟨processed,hloop⟩ := hinRange.exists_processLoop hcurrent
  exact ⟨_,by rw [processSchedulerQueueSynchron,hloop]; rfl⟩

theorem process_frame (h : scheduler.processSchedulerQueueSynchron current = some next) :
    next.started = scheduler.started := by
  obtain ⟨processed,-,hnext⟩ := Option.bind_eq_some_iff.mp h
  cases hnext
  rfl

private theorem triggersIn_resets (timer : Nat) : triggersIn timer (timers.map fun info => .reset info.timer) = [] := by
  unfold triggersIn
  rw [filterMap_map,filterMap_eq_nil_iff]
  intro info _
  rfl

theorem Serves.timeResetBegin (h : scheduler.Serves jobs instant triggered) {oldTime newTime : Int}
    (hreset : scheduler.timeResetBegin oldTime newTime = some next) : next.started = scheduler.started ∧
      next.Serves jobs (fun job => instant job + (newTime - oldTime)) triggered := by
  obtain ⟨-,hnext⟩ := Option.ite_none_right_eq_some.mp hreset
  cases hnext
  refine ⟨rfl,?_,?_⟩
  · refine (h.timers.map _).trans ?_
    rw [queued,queued,map_map]
    apply List.Perm.of_eq
    apply map_congr_left
    intro job _
    simp only [Function.comp_apply]
    split_ifs
    · rfl
    · congr 1
      omega
  · intro timer job hjob
    refine (triggers_append _ timer).trans ?_
    rw [h.triggers timer job hjob]
    split_ifs
    · exact append_nil _
    · rw [triggersIn_resets,append_nil]

/-- A reset to the time that the clock shows is possible. -/
theorem Serves.exists_timeResetBegin (h : scheduler.Serves jobs instant triggered) (time : Int)
    (hrange : ∀ job ∈ jobs, 0 ≤ instant job ∧ instant job < 2 ^ 63) :
    ∃ next, scheduler.timeResetBegin time time = some next := by
  refine ⟨_,if_pos ⟨?_,fun info hinfo => ?_⟩⟩
  · rw [if_neg (lt_irrefl time),sub_self]
    decide
  · obtain ⟨job,hjob,rfl⟩ := mem_map.mp (h.timers.mem_iff.mp hinfo)
    obtain ⟨hlow,hhigh⟩ := hrange job.1 (fst_mem_of_mem_zipIdx hjob)
    rw [sub_self,add_zero]
    exact ⟨by dsimp only; omega,hhigh⟩

/-- The scheduler of a run before its start. -/
def configured (jobs : List Job) : TimerScheduler := {TimerScheduler.new with timers := queued jobs Job.delay}

theorem serves_configured (jobs : List Job) : (configured jobs).Serves jobs Job.delay (fun _ => []) :=
  ⟨.refl _,fun _ _ _ => rfl⟩

theorem addTimers_eq_some {added : List (Job × Nat)}
    (h : added.foldlM (fun scheduler job => scheduler.addTimer 0 job.2 job.1.cycle job.1.delay) scheduler = some next) :
    next = { scheduler with
      timers := scheduler.timers ++ added.map fun job => ⟨job.2,job.1.delay,job.1.cycle⟩ } := by
  induction added generalizing scheduler with
  | nil =>
    cases h
    rw [map_nil,append_nil]
  | cons job added ih =>
    obtain ⟨later,hlater,hrest⟩ := Option.bind_eq_some_iff.mp ((foldlM_cons ..).symm.trans h)
    obtain ⟨-,hlater⟩ := Option.ite_none_right_eq_some.mp hlater
    cases hlater
    rw [ih hrest,map_cons,append_assoc,zero_add]
    rfl

theorem exists_addTimers (scheduler : TimerScheduler) (added : List (Job × Nat))
    (hfits : ∀ job ∈ added, Fits64 job.1.delay) : ∃ next,
    added.foldlM (fun scheduler job => scheduler.addTimer 0 job.2 job.1.cycle job.1.delay) scheduler = some next := by
  induction added generalizing scheduler with
  | nil => exact ⟨_,rfl⟩
  | cons job added ih =>
    have hadd : scheduler.addTimer 0 job.2 job.1.cycle job.1.delay = some _ :=
      if_pos (by rw [zero_add]; exact hfits job mem_cons_self)
    rw [foldlM_cons,hadd]
    exact ih _ fun other hother => hfits other (mem_cons_of_mem _ hother)

end TimerScheduler

namespace SchedulerSystem
variable {clockCall : ClockCall} {times : List Int}

/-- Each timer has been triggered exactly at its instants not later than the clock. -/
def OnSchedule (jobs : List Job) (system : SchedulerSystem) : Prop :=
  ∀ timer job, jobs[timer]? = some job → system.scheduler.triggers timer =
    instants job.delay job.cycle system.clockService.currentClock.currentTime

/-- The clock runs and shows this time, and the scheduler listens to it. -/
structure Running (now : Int) (system : SchedulerSystem) : Prop where
  clock : system.clockService.currentClock = ⟨now,true,true,true⟩
  started : system.scheduler.started = true

structure OnTrack (jobs : List Job) (now : Int) (system : SchedulerSystem) : Prop where
  running : system.Running now
  time : 0 ≤ now
  serves : system.scheduler.Serves jobs (fun job => nextInstant job.delay job.cycle now)
    (fun job => instants job.delay job.cycle now)

variable {system after : SchedulerSystem}

theorem OnTrack.onSchedule (h : system.OnTrack jobs now) : system.OnSchedule jobs := by
  intro timer job hjob
  rw [h.running.clock]
  exact h.serves.triggers timer job hjob

theorem getTime_of_stopped (hstopped : system.clockService.isStarted = false) : system.clockService.getTime = 0 := by
  simp [LocalClockService.getTime,hstopped]

theorem initializeJobs_eq_some (hstopped : system.clockService.isStarted = false)
    (h : system.initializeJobs jobs = some after) :
    after = {system with scheduler := TimerScheduler.configured jobs} := by
  obtain ⟨scheduler,hadded,hafter⟩ := Option.bind_eq_some_iff.mp h
  rw [getTime_of_stopped hstopped] at hadded
  cases hafter
  rw [addTimers_eq_some hadded]
  rfl

theorem start_configured {clockService : LocalClockService} :
    start ⟨clockService,TimerScheduler.configured jobs⟩ =
      ((TimerScheduler.configured jobs).timeResetBegin clockService.currentClock.currentTime 0).bind fun reset =>
        (reset.processSchedulerQueueSynchron 0).bind fun processed =>
          some ⟨⟨⟨0,true,true,true⟩,true⟩,{processed with started := true}⟩ := by
  have hevents : start ⟨clockService,TimerScheduler.configured jobs⟩ =
      ((TimerScheduler.configured jobs).onEvents [.timeResetBegin clockService.currentClock.currentTime 0,
        .timeResetEnd 0]).bind fun scheduler => scheduler.start.bind fun started =>
          some ⟨⟨⟨0,true,true,true⟩,true⟩,started⟩ := rfl
  rw [hevents,TimerScheduler.onEvents,foldlM_cons]
  cases hreset : (TimerScheduler.configured jobs).timeResetBegin clockService.currentClock.currentTime 0 with
  | none => simp [TimerScheduler.onEvent,hreset]
  | some reset =>
    obtain ⟨-,hreset'⟩ := Option.ite_none_right_eq_some.mp hreset
    have hnotStarted : reset.started = false := by
      cases hreset'
      rfl
    have htime : reset.startUpResetTime = 0 := by
      cases hreset'
      rfl
    simp [TimerScheduler.onEvent,hreset,TimerScheduler.processIfStarted,hnotStarted,TimerScheduler.start,htime,
      Option.bind_assoc]

theorem start_serves (hjobs : ∀ job ∈ jobs, 0 < job.cycle) {clockService : LocalClockService}
    (h : start ⟨clockService,TimerScheduler.configured jobs⟩ = some after) :
    after.Running 0 ∧ after.scheduler.Serves jobs
        (fun job => nextInstant (job.delay + (0 - clockService.currentClock.currentTime)) job.cycle 0)
        (fun job => instants (job.delay + (0 - clockService.currentClock.currentTime)) job.cycle 0) := by
  rw [start_configured] at h
  obtain ⟨reset,hreset,h⟩ := Option.bind_eq_some_iff.mp h
  obtain ⟨processed,hprocessed,hafter⟩ := Option.bind_eq_some_iff.mp h
  cases hafter
  have hserves := ((serves_configured jobs).timeResetBegin hreset).2.process hjobs le_rfl hprocessed
  exact ⟨⟨rfl,rfl⟩,hserves.timers,hserves.triggers⟩

def Regular (now : Int) : ClockCall → Prop
  | .setNewTime newTime _ => now ≤ newTime
  | .setResetTime newTime => newTime = now

def timeOf : ClockCall → Int
  | .setNewTime newTime _ => newTime
  | .setResetTime newTime => newTime

def RegularFrom : Int → List ClockCall → Prop
  | _, [] => True
  | now, clockCall::rest => Regular now clockCall ∧ RegularFrom (timeOf clockCall) rest

section
variable (h : system.Running now)
include h

theorem call_update {newTime : Int} {sendUpdateBeforeAfter : Bool} (hle : now ≤ newTime) :
    system.call (.setNewTime newTime sendUpdateBeforeAfter) =
      (system.scheduler.processSchedulerQueueSynchron newTime).bind fun scheduler =>
        some ⟨⟨⟨newTime,true,true,true⟩,system.clockService.isStarted⟩,scheduler⟩ := by
  obtain ⟨⟨clock,isStarted⟩,scheduler⟩ := system
  obtain rfl : clock = _ := h.clock
  have hprocess : scheduler.processIfStarted newTime = scheduler.processSchedulerQueueSynchron newTime :=
    if_pos h.started
  cases sendUpdateBeforeAfter <;>
    simp [call,LocalClockService.call,ClockCall.apply,DiscreteClock.setNewTime,DiscreteClock.emit,
      TimerScheduler.onEvents,TimerScheduler.onEvent,hle.not_gt,hprocess]

theorem call_reset (hreset : ∀ newTime send, clockCall = .setNewTime newTime send → newTime < now) :
    system.call clockCall = (system.scheduler.timeResetBegin now (timeOf clockCall)).bind fun reset =>
      (reset.processSchedulerQueueSynchron (timeOf clockCall)).bind fun scheduler =>
        some ⟨⟨⟨timeOf clockCall,true,true,true⟩,system.clockService.isStarted⟩,scheduler⟩ := by
  obtain ⟨⟨clock,isStarted⟩,scheduler⟩ := system
  obtain rfl : clock = _ := h.clock
  have hevents (newTime : Int) : (scheduler.onEvents [.timeResetBegin now newTime,.timeResetEnd newTime]) =
      (scheduler.timeResetBegin now newTime).bind (·.processSchedulerQueueSynchron newTime) := by
    rw [TimerScheduler.onEvents,foldlM_cons]
    refine Option.bind_congr fun reset hresetBegin => ?_
    obtain ⟨-,hreset'⟩ := Option.ite_none_right_eq_some.mp hresetBegin
    have hstarted : reset.started = true := by
      cases hreset'
      exact h.started
    simp [TimerScheduler.onEvent,TimerScheduler.processIfStarted,hstarted]
  have hcall : call ⟨⟨⟨now,true,true,true⟩,isStarted⟩,scheduler⟩ clockCall =
      (scheduler.onEvents [.timeResetBegin now (timeOf clockCall),.timeResetEnd (timeOf clockCall)]).bind
        fun scheduler => some ⟨⟨⟨timeOf clockCall,true,true,true⟩,isStarted⟩,scheduler⟩ := by
    cases clockCall with
    | setNewTime newTime send =>
      simp [call,LocalClockService.call,ClockCall.apply,DiscreteClock.setNewTime,DiscreteClock.setResetTime,
        DiscreteClock.emit,hreset newTime send rfl,timeOf]
    | setResetTime newTime => rfl
  rw [hcall,hevents,Option.bind_assoc]

end

private theorem serves_later {later : Int} {scheduler : TimerScheduler} (hjobs : ∀ job ∈ jobs, 0 < job.cycle)
    (hle : now ≤ later) (h : scheduler.Serves jobs
      (fun job => nextInstant (nextInstant job.delay job.cycle now) job.cycle later)
      (fun job => instants job.delay job.cycle now ++ instants (nextInstant job.delay job.cycle now) job.cycle later)) :
    scheduler.Serves jobs (fun job => nextInstant job.delay job.cycle later)
      (fun job => instants job.delay job.cycle later) := by
  constructor
  · refine h.timers.trans (List.Perm.of_eq ?_)
    apply map_congr_left
    intro job hjob
    have hcycle := hjobs job.1 (fst_mem_of_mem_zipIdx hjob)
    exact congrArg (TimerInfo.mk job.2 · job.1.cycle) (nextInstant_nextInstant hcycle hle)
  · intro timer job hjob
    rw [h.triggers timer job hjob,← instants_append (hjobs job (mem_of_getElem? hjob)) hle]

private theorem OnTrack.process (h : system.OnTrack jobs now) (hjobs : ValidJobs times jobs) {later : Int}
    (hle : now ≤ later)
    (hlater : later ∈ 0::times) {scheduler : TimerScheduler} (hserves : scheduler.Serves jobs
      (fun job => nextInstant job.delay job.cycle now) (fun job => instants job.delay job.cycle now)) :
    ∃ next, scheduler.processSchedulerQueueSynchron later = some next ∧ next.started = scheduler.started ∧
      next.Serves jobs (fun job => nextInstant job.delay job.cycle later)
        (fun job => instants job.delay job.cycle later) := by
  have hcycles : ∀ job ∈ jobs, 0 < job.cycle := fun job hjob => (hjobs job hjob).2.1
  have hcurrent : 0 ≤ later := h.time.trans hle
  obtain ⟨next,hnext⟩ := hserves.exists_process hcurrent fun job hjob => by
    obtain ⟨hdelay,hcycle,hfits⟩ := hjobs job hjob
    rw [nextInstant_nextInstant hcycle hle]
    exact ⟨hdelay.trans (le_nextInstant ..),hfits later hlater⟩
  exact ⟨next,hnext,process_frame hnext,
    serves_later hcycles hle (hserves.process hcycles hcurrent hnext)⟩

theorem OnTrack.call (h : system.OnTrack jobs now) (hjobs : ValidJobs times jobs) (hnow : now ∈ 0::times)
    (htime : timeOf clockCall ∈ 0::times) (hregular : Regular now clockCall) :
    ∃ after, system.call clockCall = some after ∧ after.OnTrack jobs (timeOf clockCall) := by
  cases clockCall with
  | setNewTime newTime send =>
    have hle : now ≤ newTime := hregular
    obtain ⟨next,hnext,hstarted,hserves⟩ := h.process hjobs hle htime h.serves
    have hrunning :
        (⟨⟨⟨newTime,true,true,true⟩,system.clockService.isStarted⟩,next⟩ : SchedulerSystem).Running newTime :=
      ⟨rfl,hstarted.trans h.running.started⟩
    exact ⟨_,by rw [call_update h.running hle,hnext]; rfl,hrunning,h.time.trans hle,hserves⟩
  | setResetTime newTime =>
    obtain rfl : newTime = now := hregular
    obtain ⟨reset,hreset⟩ := h.serves.exists_timeResetBegin newTime fun job hjob => by
      obtain ⟨hdelay,-,hfits⟩ := hjobs job hjob
      exact ⟨hdelay.trans (le_nextInstant ..),hfits newTime hnow⟩
    obtain ⟨hframe,hserves⟩ := h.serves.timeResetBegin hreset
    simp only [sub_self,add_zero] at hserves
    obtain ⟨next,hnext,hstarted,hserves⟩ := h.process hjobs le_rfl htime hserves
    have hcall : system.call (.setResetTime newTime) = _ := call_reset h.running fun _ _ hcontra => nomatch hcontra
    rw [timeOf,hreset,Option.bind_some,hnext] at hcall
    exact ⟨_,hcall,⟨rfl,hstarted.trans (hframe.trans h.running.started)⟩,h.time,hserves⟩

theorem OnTrack.callAll (h : system.OnTrack jobs now) (hjobs : ValidJobs times jobs) (hnow : now ∈ 0::times)
    {clockCalls : List ClockCall} (htimes : ∀ clockCall ∈ clockCalls, timeOf clockCall ∈ 0::times)
    (hregular : RegularFrom now clockCalls) :
    ∃ after, system.callAll clockCalls = some after ∧ after.OnSchedule jobs := by
  induction clockCalls generalizing system now with
  | nil => exact ⟨system,rfl,h.onSchedule⟩
  | cons clockCall rest ih =>
    have htime := htimes clockCall mem_cons_self
    obtain ⟨next,hnext,htrack⟩ := h.call hjobs hnow htime hregular.1
    obtain ⟨after,hafter,hschedule⟩ := ih htrack htime (fun other hother => htimes other (mem_cons_of_mem _ hother))
      hregular.2
    exact ⟨after,by rw [SchedulerSystem.callAll,foldlM_cons,hnext]; exact hafter,hschedule⟩

theorem OnTrack.not_onSchedule (hirregular : ¬Regular now clockCall)
    (h : system.OnTrack [⟨max now (timeOf clockCall),1⟩] now) (hcall : system.call clockCall = some after) :
    ¬after.OnSchedule [⟨max now (timeOf clockCall),1⟩] := by
  have hreset : ∀ newTime send, clockCall = .setNewTime newTime send → newTime < now := by
    rintro newTime send rfl
    exact not_le.mp hirregular
  rw [call_reset h.running hreset] at hcall
  obtain ⟨reset,hresetBegin,hcall⟩ := Option.bind_eq_some_iff.mp hcall
  obtain ⟨scheduler,hprocess,hafter⟩ := Option.bind_eq_some_iff.mp hcall
  cases hafter
  intro hschedule
  have htriggers := hschedule 0 _ rfl
  dsimp only at htriggers
  have hserves := (h.serves.timeResetBegin hresetBegin).2
  rcases lt_trichotomy (timeOf clockCall) now with hlt | heq | hgt
  · -- the clock goes back, and what has been triggered is no longer due
    have hbefore := hserves.triggers 0 _ rfl
    obtain ⟨processed,-,hscheduler⟩ := Option.bind_eq_some_iff.mp hprocess
    cases hscheduler
    rw [max_eq_left hlt.le,instants_of_le one_pos le_rfl] at hbefore
    rw [TimerScheduler.triggers,triggers_append,max_eq_left hlt.le,hbefore,
      instants_of_lt one_pos hlt] at htriggers
    cases htriggers
  · cases clockCall with
    | setNewTime newTime send => exact absurd (hreset newTime send rfl) heq.ge.not_gt
    | setResetTime newTime => exact hirregular heq
  · -- the clock goes ahead, and takes the timer that would be due with it
    have hcycle : ∀ job ∈ [(⟨max now (timeOf clockCall),1⟩ : Job)], 0 < job.cycle := by
      intro job hjob
      obtain rfl := mem_singleton.mp hjob
      exact one_pos
    have hafter := (hserves.process hcycle (h.time.trans hgt.le) hprocess).triggers 0 _ rfl
    have hnone : instants (timeOf clockCall + (timeOf clockCall - now)) 1 (timeOf clockCall) = [] :=
      instants_of_lt one_pos (by omega)
    rw [max_eq_right hgt.le] at htriggers hafter
    rw [htriggers,instants_of_le one_pos le_rfl,instants_of_lt one_pos hgt,nextInstant_of_lt one_pos hgt,
      hnone] at hafter
    cases hafter

/-- If a call on the clock is not regular, then a timer misses its schedule there. -/
theorem exists_missed {clockCalls : List ClockCall} (htimes : ∀ clockCall ∈ clockCalls, timeOf clockCall < 2 ^ 63 - 1)
    (hnow : 0 ≤ now) (hlow : now < 2 ^ 63 - 1) (hirregular : ¬RegularFrom now clockCalls) :
    ∃ delay : Int, 0 ≤ delay ∧ delay < 2 ^ 63 - 1 ∧ ∃ done, done <+: clockCalls ∧ ∀ system after : SchedulerSystem,
      system.OnTrack [⟨delay,1⟩] now → system.callAll done = some after → ¬after.OnSchedule [⟨delay,1⟩] := by
  induction clockCalls generalizing now with
  | nil => exact absurd trivial hirregular
  | cons clockCall rest ih =>
    have htime := htimes clockCall mem_cons_self
    have hrest := fun other hother => htimes other (mem_cons_of_mem _ hother)
    by_cases hregular : Regular now clockCall
    · have hle : now ≤ timeOf clockCall := by
        cases clockCall with
        | setNewTime newTime send => exact hregular
        | setResetTime newTime => exact hregular.ge
      obtain ⟨delay,hdelay,hfits,done,hdone,hmissed⟩ := ih hrest (hnow.trans hle) htime
        fun hlater => hirregular ⟨hregular,hlater⟩
      refine ⟨delay,hdelay,hfits,clockCall::done,cons_prefix_cons.mpr ⟨rfl,hdone⟩,fun system after h hafter => ?_⟩
      rw [callAll,foldlM_cons] at hafter
      obtain ⟨next,hnext,hafter⟩ := Option.bind_eq_some_iff.mp hafter
      have hvalid : ValidJobs [now,timeOf clockCall] [⟨delay,1⟩] := by
        apply validJobs_singleton hdelay hfits
        simp only [mem_cons,not_mem_nil,or_false,forall_eq_or_imp,forall_eq]
        exact ⟨hlow,htime⟩
      obtain ⟨next',hnext',htrack⟩ := h.call hvalid (by simp) (by simp) hregular
      obtain rfl : next' = next := Option.some_inj.mp (hnext'.symm.trans hnext)
      exact hmissed next' after htrack hafter
    · refine ⟨max now (timeOf clockCall),hnow.trans (le_max_left _ _),max_lt hlow htime,[clockCall],⟨rest,rfl⟩,
        fun system after h hafter => ?_⟩
      exact h.not_onSchedule hregular ((bind_pure _).symm.trans hafter)

private theorem isStarted_call (h : system.call clockCall = some after) :
    after.clockService.isStarted = system.clockService.isStarted := by
  obtain ⟨scheduler,-,hafter⟩ := Option.bind_eq_some_iff.mp h
  cases hafter
  rfl

private theorem isStarted_callAll {clockCalls : List ClockCall} (h : system.callAll clockCalls = some after) :
    after.clockService.isStarted = system.clockService.isStarted := by
  induction clockCalls generalizing system with
  | nil =>
    cases h
    rfl
  | cons clockCall rest ih =>
    rw [callAll,foldlM_cons] at h
    obtain ⟨next,hnext,hrest⟩ := Option.bind_eq_some_iff.mp h
    exact (ih hrest).trans (isStarted_call hnext)

theorem stopped_afterRuns {runs : List EarlierRun} (h : afterRuns runs = some system) :
    system.clockService.isStarted = false := by
  have hrun : ∀ (runs : List EarlierRun) (first : SchedulerSystem), first.clockService.isStarted = false →
      runs.foldlM runToStop first = some system → system.clockService.isStarted = false := by
    intro runs
    induction runs with
    | nil =>
      rintro first hfirst ⟨⟩
      exact hfirst
    | cons run rest ih =>
      intro first hfirst hrest
      rw [foldlM_cons] at hrest
      obtain ⟨next,hnext,hrest⟩ := Option.bind_eq_some_iff.mp hrest
      obtain ⟨running,-,hstopped⟩ := Option.bind_eq_some_iff.mp hnext
      exact ih next (isStarted_callAll hstopped) hrest
  exact hrun runs new rfl h

/-- What a run does from the configured scheduler on. -/
theorem runTo_eq_bind (hstopped : system.clockService.isStarted = false) {clockCalls : List ClockCall}
    (hfits : ∀ job ∈ jobs, Fits64 job.delay) : system.runTo jobs clockCalls =
      (start ⟨system.clockService,TimerScheduler.configured jobs⟩).bind fun started => started.callAll clockCalls := by
  obtain ⟨next,hnext⟩ := exists_addTimers TimerScheduler.new jobs.zipIdx
    fun job hjob => hfits job.1 (fst_mem_of_mem_zipIdx hjob)
  have hinitialize : system.initializeJobs jobs = some {system with scheduler := next} := by
    rw [initializeJobs,getTime_of_stopped hstopped,hnext]
    rfl
  have hconfigured := initializeJobs_eq_some hstopped hinitialize
  rw [runTo, hinitialize,hconfigured]
  rfl

/-- From a clock at zero a start is possible, and triggers the timers without delay. -/
private theorem exists_start (hjobs : ValidJobs times jobs) {clockService : LocalClockService}
    (hzero : clockService.currentClock.currentTime = 0) : ∃ started,
      start ⟨clockService,TimerScheduler.configured jobs⟩ = some started ∧ started.OnTrack jobs 0 := by
  have hserves := serves_configured jobs
  obtain ⟨reset,hreset⟩ := hserves.exists_timeResetBegin 0 fun job hjob =>
    ⟨(hjobs job hjob).1,(hjobs.fits job hjob).2⟩
  have hreset' := (hserves.timeResetBegin hreset).2
  simp only [sub_self,add_zero] at hreset'
  obtain ⟨next,hnext⟩ := hreset'.exists_process le_rfl fun job hjob =>
    ⟨(hjobs job hjob).1,(hjobs job hjob).2.2 0 mem_cons_self⟩
  have hstart : start ⟨clockService,TimerScheduler.configured jobs⟩ = _ := start_configured
  rw [hzero,hreset,Option.bind_some,hnext] at hstart
  obtain ⟨hrunning,hafter⟩ := start_serves (fun job hjob => (hjobs job hjob).2.1) hstart
  simp only [hzero,sub_self,add_zero] at hafter
  exact ⟨_,hstart,hrunning,le_rfl,hafter⟩

private theorem RegularFrom.of_prefix {done clockCalls : List ClockCall} (h : RegularFrom now clockCalls)
    (hdone : done <+: clockCalls) : RegularFrom now done := by
  induction done generalizing now clockCalls with
  | nil => trivial
  | cons clockCall done ih =>
    obtain ⟨rest,rfl⟩ := hdone
    exact ⟨h.1,ih h.2 ⟨rest,rfl⟩⟩

/-- After any runs and for all calls on the clock every timer is triggered at its delay and each cycle after it,
once each and never late, exactly when the run starts with the clock at zero and no reset moves the clock. -/
theorem triggered_on_schedule_iff (runs : List EarlierRun) (system : SchedulerSystem)
    (hruns : afterRuns runs = some system) (clockCalls : List ClockCall)
    (htimes : ∀ clockCall ∈ clockCalls, timeOf clockCall < 2 ^ 63 - 1) :
    (∀ jobs, ValidJobs (clockCalls.map timeOf) jobs → ∀ done, done <+: clockCalls →
      ∃ after, system.runTo jobs done = some after ∧ after.OnSchedule jobs) ↔
    system.clockService.currentClock.currentTime = 0 ∧ RegularFrom 0 clockCalls := by
  have hstopped := stopped_afterRuns hruns
  have hvalid {delay : Int} (hdelay : 0 ≤ delay) (hfits : delay < 2 ^ 63 - 1) :
      ValidJobs (clockCalls.map timeOf) [⟨delay,1⟩] :=
    validJobs_singleton hdelay hfits (forall_mem_map.mpr htimes)
  constructor
  · intro hall
    have hzero : system.clockService.currentClock.currentTime = 0 := by
      by_contra hshifted
      -- a timer without delay, at the start of the run
      have hjobs := hvalid le_rfl (by decide)
      obtain ⟨after,hafter,hschedule⟩ := hall _ hjobs [] ( nil_prefix ..)
      rw [runTo_eq_bind hstopped hjobs.fits] at hafter
      obtain ⟨started,hstart,hsame⟩ := Option.bind_eq_some_iff.mp hafter
      cases hsame
      obtain ⟨hrunning,hserves⟩ := start_serves (fun job hjob => (hjobs job hjob).2.1) hstart
      have hexpected := hschedule 0 _ rfl
      rw [hrunning.clock,hserves.triggers 0 _ rfl,instants_of_le one_pos le_rfl] at hexpected
      rcases lt_or_gt_of_ne hshifted with hlt | hgt
      · rw [instants_of_lt one_pos (by dsimp only; omega)] at hexpected
        cases hexpected
      · rw [instants_of_le one_pos (by dsimp only; omega)] at hexpected
        have hfirst := head_eq_of_cons_eq hexpected
        dsimp only at hfirst
        omega
    refine ⟨hzero,?_⟩
    by_contra hirregular
    obtain ⟨delay,hdelay,hfits,done,hdone,hmissed⟩ := exists_missed htimes le_rfl (by decide) hirregular
    have hjobs := hvalid hdelay hfits
    obtain ⟨after,hafter,hschedule⟩ := hall _ hjobs done hdone
    rw [runTo_eq_bind hstopped hjobs.fits] at hafter
    obtain ⟨started,hstart,hafter⟩ := Option.bind_eq_some_iff.mp hafter
    obtain ⟨started',hstart',htrack⟩ := exists_start hjobs hzero
    obtain rfl : started' = started := Option.some_inj.mp (hstart'.symm.trans hstart)
    exact hmissed started' after htrack hafter hschedule
  · rintro ⟨hzero,hregular⟩ jobs hjobs done hdone
    obtain ⟨started,hstart,htrack⟩ := exists_start hjobs hzero
    rw [runTo_eq_bind hstopped hjobs.fits,hstart]
    refine htrack.callAll hjobs mem_cons_self (fun clockCall hcall => mem_cons_of_mem _ ?_) (hregular.of_prefix hdone)
    exact mem_map_of_mem (hdone.subset hcall)

/-- Two timers, after a run whose clock was set back to zero once it was stopped. -/
theorem triggered_on_schedule_updates : ∃ system,
    afterRuns [⟨[⟨5,3⟩],[.setNewTime 10 true],[.setResetTime 0]⟩] = some system ∧
      ∃ after, system.runTo [⟨4,3⟩,⟨0,5⟩] [.setNewTime 4 true,.setNewTime 11 false] = some after ∧
        after.OnSchedule [⟨4,3⟩,⟨0,5⟩] := by
  have hruns : afterRuns [⟨[⟨5,3⟩],[.setNewTime 10 true],[.setResetTime 0]⟩] = some
      ⟨⟨⟨0,false,false,false⟩,false⟩,⟨[⟨0,11,3⟩],-1,false,[.reset 0,.wakeUp 0 5,.wakeUp 0 8]⟩⟩ := by
    decide +kernel
  refine ⟨_,hruns,?_⟩
  exact (triggered_on_schedule_iff _ _ hruns [.setNewTime 4 true,.setNewTime 11 false] (by decide)).mpr
    ⟨rfl,by simp [RegularFrom,Regular,timeOf]⟩ _ (by unfold ValidJobs; decide) _ prefix_rfl

/-- The first run ends with its clock at 10. In the second a timer without delay is triggered at -10. -/
theorem schedule_shifted_by_earlier_run : ∃ system, afterRuns [⟨[],[.setNewTime 10 true],[]⟩] = some system ∧
    ∃ jobs, ValidJobs [] jobs ∧ ∃ started, system.runTo jobs [] = some started ∧ ¬started.OnSchedule jobs := by
  have hruns : afterRuns [⟨[],[.setNewTime 10 true],[]⟩] =
      some ⟨⟨⟨10,false,false,false⟩,false⟩,⟨[],-1,false,[]⟩⟩ := by
    decide +kernel
  refine ⟨_,hruns,[⟨0,100⟩],by unfold ValidJobs; decide,?_⟩
  refine ⟨⟨⟨⟨0,true,true,true⟩,true⟩,⟨[⟨0,90,100⟩],0,true,[.reset 0,.wakeUp 0 (-10)]⟩⟩,
    by decide +kernel,fun hschedule => ?_⟩
  have htriggers := hschedule 0 _ rfl
  revert htriggers
  decide +kernel

end SchedulerSystem

end FepParticipant.Scheduler
