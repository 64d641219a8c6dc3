import FepParticipant.Scheduler.SynchronousQueue

/-! The asynchronous processing of a queue in full passes, up to a limit of passes for each call. -/
namespace FepParticipant.Scheduler
open Library List Nat Option
variable {timer : Nat}

structure QueuePass where
  calls : List TimerCall
  timers : List TimerInfo
  minWaitTime : Int
  loopAgain : Bool

def shorterWait (minWaitTime diffTime : Int) : Int :=
  if minWaitTime < 0 ∨ diffTime < minWaitTime then diffTime else minWaitTime

def processPass (current : Int) : List TimerInfo → Int → QueuePass
  | [], minWaitTime => ⟨[],[],minWaitTime,false⟩
  | info::others, minWaitTime =>
    if info.waits current then
      let pass := processPass current others (shorterWait minWaitTime (info.nextInstant - current))
      {pass with timers := info::pass.timers}
    else
      let pass := processPass current others minWaitTime
      if info.nextInstant ≤ current then
        if info.period = 0 then {pass with calls := .wakeUp info.timer current::pass.calls}
        else
          { pass with
            calls := .wakeUp info.timer current::pass.calls
            timers := info.advanced::pass.timers
            loopAgain := true }
      else {pass with timers := info::pass.timers}

def maxLoopCount : Nat := 1000

/-- No time that a pass computes overflows. -/
def PassFits (current : Int) (timers : List TimerInfo) : Prop := ∀ info ∈ timers,
  if info.waits current then Fits64 (info.nextInstant - current) else info.nextInstant ≤ current → ¬info.Overflows

instance (current : Int) (timers : List TimerInfo) : Decidable (PassFits current timers) :=
  inferInstanceAs (Decidable (∀ info ∈ timers, if info.waits current then Fits64 (info.nextInstant - current)
    else info.nextInstant ≤ current → ¬info.Overflows))

/-- The passes of one call; at the limit of passes the time to wait is 0. -/
def processPasses (current : Int) : Nat → List TimerInfo → Int → Option Processed
  | 0, timers, _ => some ⟨[],timers,0⟩
  | remaining + 1, timers, minWaitTime =>
    if PassFits current timers then
      let pass := processPass current timers minWaitTime
      if pass.loopAgain then do
        let later ← processPasses current remaining pass.timers pass.minWaitTime
        return {later with calls := pass.calls ++ later.calls}
      else some ⟨pass.calls,pass.timers,if remaining = 0 then 0 else pass.minWaitTime⟩
    else none

/-- `ProcessSchedulerQueueAsynchron`. -/
def processAsynchron (current : Int) (timers : List TimerInfo) : Option Processed :=
  processPasses current maxLoopCount timers (-1)

def totalWork (current : Int) (timers : List TimerInfo) : Nat := (timers.map (TimerInfo.work current)).sum

variable {current minWaitTime : Int} {info : TimerInfo} {timers others : List TimerInfo} {remaining : Nat}
  {processed : Processed}

private theorem work_advanced_lt (hperiod : info.period ≠ 0) (hdue : info.nextInstant ≤ current) :
    info.advanced.work current < info.work current := by
  unfold TimerInfo.work TimerInfo.advanced
  dsimp only
  split_ifs <;> omega

theorem totalWork_processPass (current : Int) (timers : List TimerInfo) (minWaitTime : Int) :
    totalWork current (processPass current timers minWaitTime).timers ≤ totalWork current timers ∧
    ((processPass current timers minWaitTime).loopAgain = true →
      totalWork current (processPass current timers minWaitTime).timers < totalWork current timers) := by
  induction timers generalizing minWaitTime with
  | nil => exact ⟨le_refl _,nofun⟩
  | cons info others ih =>
    unfold totalWork at ih ⊢
    rw [processPass,map_cons,sum_cons]
    split
    · obtain ⟨hle,hlt⟩ := ih (shorterWait minWaitTime (info.nextInstant - current))
      exact ⟨Nat.add_le_add_left hle _,fun hagain => Nat.add_lt_add_left (hlt hagain) _⟩
    · obtain ⟨hle,hlt⟩ := ih minWaitTime
      split
      · rename_i hdue
        split
        · exact ⟨hle.trans (le_add_left _ _),fun hagain => (hlt hagain).trans_le (le_add_left _ _)⟩
        · rename_i hperiod
          have hless := work_advanced_lt hperiod hdue
          rw [map_cons,sum_cons]
          exact ⟨by omega,fun _ => by omega⟩
      · dsimp only
        exact ⟨Nat.add_le_add_left hle _,fun hagain => Nat.add_lt_add_left (hlt hagain) _⟩

/-- How often the timers of an entry are still to be woken. -/
def totalDue (current : Int) (timer : Nat) (timers : List TimerInfo) : Nat :=
  ((timers.filter (·.timer == timer)).map fun info => (info.dueInstants current).length).sum

def wakeCount (timer : Nat) (calls : List TimerCall) : Nat := (triggersIn timer calls).length

theorem totalDue_cons : totalDue current timer (info::others) =
      (if info.timer = timer then (info.dueInstants current).length else 0) + totalDue current timer others := by
  unfold totalDue
  by_cases hsame : info.timer = timer
  · rw [filter_cons_of_pos (by simpa using hsame),map_cons,sum_cons,if_pos hsame]
  · rw [filter_cons_of_neg (by simpa using hsame),if_neg hsame,zero_add]

theorem totalDue_perm (h : timers.Perm others) : totalDue current timer timers = totalDue current timer others :=
  ((h.filter _).map _).sum_nat

theorem totalDue_late (h : ∀ info ∈ timers, current < info.nextInstant) : totalDue current timer timers = 0 := by
  induction timers with
  | nil => rfl
  | cons info others ih =>
    rw [totalDue_cons,ih fun other hother => h other (mem_cons_of_mem _ hother),
      TimerInfo.dueInstants_of_lt (h info mem_cons_self)]
    simp

theorem wakeCount_wakeUp (timer woken : Nat) (wakeupTime : Int) (calls : List TimerCall) :
    wakeCount timer (.wakeUp woken wakeupTime::calls) = (if woken = timer then 1 else 0) + wakeCount timer calls := by
  unfold wakeCount
  rw [triggersIn_wakeUp]
  split
  · rw [length_cons,add_comm]
  · rw [zero_add]

theorem wakeCount_append (calls later : List TimerCall) :
    wakeCount timer (calls ++ later) = wakeCount timer calls + wakeCount timer later := by
  unfold wakeCount triggersIn
  rw [filterMap_append,length_append]

theorem length_dueInstants (hdue : info.nextInstant ≤ current) : (info.dueInstants current).length =
    1 + if info.period ≠ 0 then (info.advanced.dueInstants current).length else 0 := by
  rw [TimerInfo.dueInstants_of_le hdue,length_cons,add_comm]
  split
  · rfl
  · rfl

theorem Drains.wakeCount (hcurrent : 0 ≤ current) (hdue : DueFirst current timers)
    (h : Drains current timers processed) : wakeCount timer processed.calls = totalDue current timer timers := by
  induction h with
  | empty => rfl
  | waits info others hwaits =>
    rw [totalDue_late (late_of_waits hdue hwaits)]
    rfl
  | wakes info others later hwaits _ ih =>
    have hnow := not_waits hcurrent hwaits
    rw [wakeCount_wakeUp,ih (TimerInfo.dueFirst_requeue hdue),totalDue_cons,length_dueInstants hnow]
    unfold TimerInfo.requeue
    by_cases hperiod : info.period ≠ 0
    · have hsame : info.advanced.timer = info.timer := rfl
      rw [if_pos hperiod,if_pos hperiod,totalDue_perm (info.advanced.insertNext_perm current others),totalDue_cons,
        hsame]
      split_ifs <;> omega
    · rw [if_neg hperiod,if_neg hperiod]

structure PassSpec (current : Int) (timers : List TimerInfo) (pass : QueuePass) : Prop where
  wakes : ∀ timer, wakeCount timer pass.calls + totalDue current timer pass.timers = totalDue current timer timers
  leftOver : leftOver current pass.timers = leftOver current timers
  keepsLate : ∀ info ∈ timers, current < info.nextInstant → info ∈ pass.timers
  lastPass : pass.loopAgain = false → ∀ info ∈ pass.timers, info ∈ timers ∧ current < info.nextInstant

variable {pass : QueuePass}

section
variable (h : PassSpec current others pass)
include h

theorem PassSpec.passedOver (hlate : current < info.nextInstant) :
    PassSpec current (info::others) {pass with timers := info::pass.timers} where
  wakes timer := by
    have hwakes := h.wakes timer
    show wakeCount timer pass.calls + totalDue current timer (info::pass.timers) = _
    rw [totalDue_cons,totalDue_cons]
    omega
  leftOver := leftOver_congr h.leftOver
  keepsLate := by
    intro other hother hlater
    rcases mem_cons.mp hother with rfl | hmem
    · exact mem_cons_self
    · exact mem_cons_of_mem _ (h.keepsLate other hmem hlater)
  lastPass := by
    intro hagain other hother
    rcases mem_cons.mp hother with rfl | hmem
    · exact ⟨mem_cons_self,hlate⟩
    · obtain ⟨hold,hlater⟩ := h.lastPass hagain other hmem
      exact ⟨mem_cons_of_mem _ hold,hlater⟩

theorem PassSpec.keeps_behind (hdue : info.nextInstant ≤ current) :
    ∀ other ∈ info::others, current < other.nextInstant → other ∈ pass.timers := by
  intro other hother hlate
  rcases mem_cons.mp hother with rfl | hmem
  · omega
  · exact h.keepsLate other hmem hlate

theorem PassSpec.removed (hperiod : info.period = 0) (hdue : info.nextInstant ≤ current) :
    PassSpec current (info::others) {pass with calls := .wakeUp info.timer current::pass.calls} where
  wakes timer := by
    have hwakes := h.wakes timer
    show wakeCount timer (.wakeUp info.timer current::pass.calls) + totalDue current timer pass.timers = _
    rw [wakeCount_wakeUp,totalDue_cons,length_dueInstants hdue,if_neg (not_not_intro hperiod)]
    split_ifs <;> omega
  leftOver := h.leftOver.trans (leftOver_cons_of_single hperiod hdue).symm
  keepsLate := h.keeps_behind hdue
  lastPass := by
    intro hagain other hother
    obtain ⟨hold,hlater⟩ := h.lastPass hagain other hother
    exact ⟨mem_cons_of_mem _ hold,hlater⟩

private theorem PassSpec.advanced (hperiod : info.period ≠ 0) (hdue : info.nextInstant ≤ current) :
    PassSpec current (info::others) { pass with
        calls := .wakeUp info.timer current::pass.calls
        timers := info.advanced::pass.timers
        loopAgain := true } where
  wakes timer := by
    have hwakes := h.wakes timer
    have hsame : info.advanced.timer = info.timer := rfl
    rw [wakeCount_wakeUp,totalDue_cons,totalDue_cons,length_dueInstants hdue,if_pos hperiod,hsame]
    split_ifs <;> omega
  leftOver := (leftOver_congr h.leftOver).trans (leftOver_cons_of_periodic hperiod hdue)
  keepsLate := fun other hother hlate => mem_cons_of_mem _ (h.keeps_behind hdue other hother hlate)
  lastPass := nofun

end

theorem passSpec_processPass (hcurrent : 0 ≤ current) (timers : List TimerInfo) (minWaitTime : Int) :
    PassSpec current timers (processPass current timers minWaitTime) := by
  induction timers generalizing minWaitTime with
  | nil => exact ⟨fun _ => rfl,rfl,nofun,nofun⟩
  | cons info others ih =>
    rw [processPass]
    by_cases hwaits : info.waits current
    · rw [if_pos hwaits]
      exact (ih _).passedOver hwaits.2
    · have hnow := not_waits hcurrent hwaits
      rw [if_neg hwaits]
      rw [if_pos hnow]
      by_cases hperiod : info.period = 0
      · rw [if_pos hperiod]
        exact (ih minWaitTime).removed hperiod hnow
      · rw [if_neg hperiod]
        exact (ih minWaitTime).advanced hperiod hnow

/-- A pass leaves the shortest time to wait or makes it that of a timer not due, and no longer than any of these. -/
structure MinSpec (current minWaitTime : Int) (timers : List TimerInfo) (shortest : Int) : Prop where
  reached : shortest = minWaitTime ∨
    ∃ info ∈ timers, current < info.nextInstant ∧ shortest = info.nextInstant - current
  least : ∀ info ∈ timers, current < info.nextInstant → 0 < shortest ∧ shortest ≤ info.nextInstant - current
  kept : 0 < minWaitTime → 0 < shortest ∧ shortest ≤ minWaitTime

variable {shortest : Int}

theorem shorterWait_cases (minWaitTime diffTime : Int) :
    (shorterWait minWaitTime diffTime = minWaitTime ∧ 0 ≤ minWaitTime ∧ minWaitTime ≤ diffTime) ∨
    (shorterWait minWaitTime diffTime = diffTime ∧ (0 ≤ minWaitTime → diffTime ≤ minWaitTime)) := by
  unfold shorterWait
  split
  · right
    omega
  · left
    omega

theorem MinSpec.passedOver (h : MinSpec current (shorterWait minWaitTime (info.nextInstant - current)) others shortest)
    (hmin : minWaitTime = -1 ∨ 0 < minWaitTime) (hlate : current < info.nextInstant) :
    MinSpec current minWaitTime (info::others) shortest := by
  have hshorter := shorterWait_cases minWaitTime (info.nextInstant - current)
  have hbound := h.kept (by omega)
  refine ⟨?_,?_,fun hpos => by omega⟩
  · rcases h.reached with hsame | ⟨other,hother,hwait⟩
    · rcases hshorter with ⟨hold,-⟩ | ⟨hnew,-⟩
      · exact .inl (hsame.trans hold)
      · exact .inr ⟨info,mem_cons_self,hlate,hsame.trans hnew⟩
    · exact .inr ⟨other,mem_cons_of_mem _ hother,hwait⟩
  · intro other hother hotherLate
    rcases mem_cons.mp hother with rfl | hmem
    · omega
    · exact h.least other hmem hotherLate

private theorem MinSpec.woken (h : MinSpec current minWaitTime others shortest) (hdue : info.nextInstant ≤ current) :
    MinSpec current minWaitTime (info::others) shortest := by
  refine ⟨?_,?_,h.kept⟩
  · rcases h.reached with hsame | ⟨other,hother,hwait⟩
    · exact .inl hsame
    · exact .inr ⟨other,mem_cons_of_mem _ hother,hwait⟩
  · intro other hother hotherLate
    rcases mem_cons.mp hother with rfl | hmem
    · omega
    · exact h.least other hmem hotherLate

theorem minSpec_processPass (hcurrent : 0 ≤ current) (timers : List TimerInfo) (minWaitTime : Int)
    (hmin : minWaitTime = -1 ∨ 0 < minWaitTime) :
    MinSpec current minWaitTime timers (processPass current timers minWaitTime).minWaitTime := by
  induction timers generalizing minWaitTime with
  | nil => exact ⟨.inl rfl,nofun,fun hpos => ⟨hpos,le_rfl⟩⟩
  | cons info others ih =>
    rw [processPass]
    by_cases hwaits : info.waits current
    · have hlate := hwaits.2
      have hshorter := shorterWait_cases minWaitTime (info.nextInstant - current)
      rw [if_pos hwaits]
      exact (ih _ (by omega)).passedOver hmin hlate
    · have hnow := not_waits hcurrent hwaits
      have hwoken := (ih minWaitTime hmin).woken hnow
      rw [if_neg hwaits]
      rw [if_pos hnow]
      by_cases hperiod : info.period = 0
      · rw [if_pos hperiod]
        exact hwoken
      · rw [if_neg hperiod]
        exact hwoken

def WaitsFor (current timeToWait : Int) (timers : List TimerInfo) : Prop :=
  (timers = [] ∧ timeToWait = -1) ∨
    ((∃ info ∈ timers, timeToWait = info.nextInstant - current) ∧
      ∀ info ∈ timers, timeToWait ≤ info.nextInstant - current)

theorem WaitsFor.unique {timeToWait timeToWait' : Int} (h : WaitsFor current timeToWait timers)
    (h' : WaitsFor current timeToWait' others) (hperm : timers.Perm others) : timeToWait = timeToWait' := by
  rcases h with ⟨rfl,rfl⟩ | ⟨⟨info,hinfo,rfl⟩,hle⟩
  · obtain rfl := hperm.nil_eq
    rcases h' with ⟨-,rfl⟩ | ⟨⟨info,hinfo,-⟩,-⟩
    · rfl
    · cases hinfo
  · rcases h' with ⟨rfl,-⟩ | ⟨⟨other,hother,rfl⟩,hle'⟩
    · rw [hperm.eq_nil] at hinfo
      cases hinfo
    · exact le_antisymm (hle other (hperm.mem_iff.mpr hother)) (hle' info (hperm.mem_iff.mp hinfo))

def SeenWait (current minWaitTime : Int) (timers : List TimerInfo) : Prop :=
  minWaitTime = -1 ∨ ∃ info ∈ timers, current < info.nextInstant ∧ minWaitTime = info.nextInstant - current

/-- What one call leaves: it comes to its end, or there is less work for the next one. -/
structure CallSpec (current : Int) (timers : List TimerInfo) (processed : Processed) : Prop where
  wakes : ∀ timer, wakeCount timer processed.calls + totalDue current timer processed.timers =
    totalDue current timer timers
  leftOver : leftOver current processed.timers = leftOver current timers
  ends : processed.timeToWait ≠ 0 → (∀ info ∈ processed.timers, current < info.nextInstant) ∧
    WaitsFor current processed.timeToWait processed.timers

theorem SeenWait.pos (h : SeenWait current minWaitTime timers) : minWaitTime = -1 ∨ 0 < minWaitTime := by
  rcases h with hnone | ⟨info,-,hlate,rfl⟩
  · exact .inl hnone
  · exact .inr (by omega)

theorem SeenWait.processPass (hcurrent : 0 ≤ current) (h : SeenWait current minWaitTime timers) :
    SeenWait current (processPass current timers minWaitTime).minWaitTime
      (processPass current timers minWaitTime).timers := by
  have hpass := passSpec_processPass hcurrent timers minWaitTime
  rcases (minSpec_processPass hcurrent timers minWaitTime h.pos).reached with hsame | ⟨info,hinfo,hlate,hwait⟩
  · rw [hsame]
    rcases h with hnone | ⟨info,hinfo,hlate,hwait⟩
    · exact .inl hnone
    · exact .inr ⟨info,hpass.keepsLate info hinfo hlate,hlate,hwait⟩
  · exact .inr ⟨info,hpass.keepsLate info hinfo hlate,hlate,hwait⟩

private theorem waitsFor_lastPass (hcurrent : 0 ≤ current) (h : SeenWait current minWaitTime timers)
    (hlast : (Scheduler.processPass current timers minWaitTime).loopAgain = false) :
    WaitsFor current (Scheduler.processPass current timers minWaitTime).minWaitTime
      (Scheduler.processPass current timers minWaitTime).timers := by
  have hpass := passSpec_processPass hcurrent timers minWaitTime
  have hmin := minSpec_processPass hcurrent timers minWaitTime h.pos
  have hseen := h.processPass hcurrent
  generalize Scheduler.processPass current timers minWaitTime = pass at hpass hmin hseen hlast
  have hleast : ∀ info ∈ pass.timers, pass.minWaitTime ≤ info.nextInstant - current := fun info hinfo =>
    (hmin.least info (hpass.lastPass hlast info hinfo).1 (hpass.lastPass hlast info hinfo).2).2
  rcases hseen with hnone | ⟨info,hinfo,-,hwait⟩
  · cases htimers : pass.timers with
    | nil => exact .inl ⟨rfl,hnone⟩
    | cons info others =>
      have hmem : info ∈ pass.timers := htimers ▸ mem_cons_self
      have hpos := hmin.least info (hpass.lastPass hlast info hmem).1 (hpass.lastPass hlast info hmem).2
      omega
  · exact .inr ⟨⟨info,hinfo,hwait⟩,hleast⟩

theorem callSpec_processPasses (hcurrent : 0 ≤ current) (remaining : Nat) (h : SeenWait current minWaitTime timers)
    (hpasses : processPasses current remaining timers minWaitTime = some processed) :
    CallSpec current timers processed := by
  induction remaining generalizing timers minWaitTime processed with
  | zero =>
    cases hpasses
    exact ⟨fun _ => zero_add _,rfl,absurd rfl⟩
  | succ remaining ih =>
    have hpass := passSpec_processPass hcurrent timers minWaitTime
    obtain ⟨-,hpasses⟩ := ite_none_right_eq_some.mp hpasses
    dsimp only at hpasses
    split at hpasses
    · obtain ⟨later,hlater,hprocessed⟩ := bind_eq_some_iff.mp hpasses
      cases hprocessed
      obtain ⟨hwakes,hleft,hends⟩ := ih (h.processPass hcurrent) hlater
      refine ⟨?_,hleft.trans hpass.leftOver,hends⟩
      intro timer
      rw [wakeCount_append,add_assoc,hwakes timer]
      exact hpass.wakes timer
    · rename_i hlast
      cases hpasses
      refine ⟨hpass.wakes,hpass.leftOver,?_⟩
      intro hwait
      have hlast' := eq_false_of_ne_true hlast
      refine ⟨fun info hinfo => (hpass.lastPass hlast' info hinfo).2,?_⟩
      have hmore : ¬remaining = 0 := fun hzero => hwait (if_pos hzero)
      rw [if_neg hmore]
      exact waitsFor_lastPass hcurrent h hlast'

theorem InRange.passFits (hcurrent : 0 ≤ current) (h : InRange current timers) : PassFits current timers := by
  intro info hinfo
  split
  · rename_i hwaits
    have hlate := hwaits.2
    have hhigh := (le_nextInstant ..).trans_lt (h info hinfo).2
    exact ⟨by omega,by omega⟩
  · exact fun hdue hoverflows => hoverflows.2 (InRange.advanced (h info hinfo) hoverflows.1 hdue).1

private theorem InRange.processPass (h : InRange current timers) (minWaitTime : Int) :
    InRange current (Scheduler.processPass current timers minWaitTime).timers := by
  induction timers generalizing minWaitTime with
  | nil => exact nofun
  | cons info others ih =>
    have hothers : InRange current others := fun other hother => h other (mem_cons_of_mem _ hother)
    have hfirst := h info mem_cons_self
    rw [Scheduler.processPass]
    split
    · exact forall_mem_cons.mpr ⟨hfirst,ih hothers _⟩
    · split
      · rename_i hdue
        split
        · exact ih hothers _
        · rename_i hperiod
          exact forall_mem_cons.mpr ⟨(InRange.advanced hfirst hperiod hdue).2,ih hothers _⟩
      · exact forall_mem_cons.mpr ⟨hfirst,ih hothers _⟩

theorem InRange.exists_processPasses (hcurrent : 0 ≤ current) (h : InRange current timers) (remaining : Nat)
    (minWaitTime : Int) : ∃ processed, processPasses current remaining timers minWaitTime = some processed ∧
      InRange current processed.timers := by
  induction remaining generalizing timers minWaitTime with
  | zero => exact ⟨_,rfl,h⟩
  | succ remaining ih =>
    have hpass := h.processPass minWaitTime
    rw [processPasses,if_pos (h.passFits hcurrent)]
    dsimp only
    split
    · obtain ⟨later,hlater,hrange⟩ := ih hpass (Scheduler.processPass current timers minWaitTime).minWaitTime
      rw [hlater]
      exact ⟨_,rfl,hrange⟩
    · exact ⟨_,rfl,hpass⟩

theorem minWaitTime_ne_zero (current : Int) (timers : List TimerInfo) (minWaitTime : Int) (h : minWaitTime ≠ 0) :
    (processPass current timers minWaitTime).minWaitTime ≠ 0 := by
  induction timers generalizing minWaitTime with
  | nil => exact h
  | cons info others ih =>
    rw [processPass]
    split
    · rename_i hwaits
      apply ih
      have hlate := hwaits.2
      unfold shorterWait
      split
      · omega
      · exact h
    · dsimp only
      split
      · split
        · exact ih minWaitTime h
        · exact ih minWaitTime h
      · exact ih minWaitTime h

private theorem totalWork_processPasses_le (h : processPasses current remaining timers minWaitTime = some processed) :
    totalWork current processed.timers ≤ totalWork current timers := by
  induction remaining generalizing timers minWaitTime processed with
  | zero =>
    cases h
    exact le_refl _
  | succ remaining ih =>
    have hpass := (totalWork_processPass current timers minWaitTime).1
    obtain ⟨-,h⟩ := ite_none_right_eq_some.mp h
    dsimp only at h
    split at h
    · obtain ⟨later,hlater,hprocessed⟩ := bind_eq_some_iff.mp h
      cases hprocessed
      exact (ih hlater).trans hpass
    · cases h
      exact hpass

theorem totalWork_processAsynchron (h : processAsynchron current timers = some processed)
    (hagain : processed.timeToWait = 0) : totalWork current processed.timers < totalWork current timers := by
  have hpass := (totalWork_processPass current timers (-1)).2
  have hwait := minWaitTime_ne_zero current timers (-1) (by decide)
  unfold processAsynchron maxLoopCount at h
  obtain ⟨-,h⟩ := ite_none_right_eq_some.mp h
  dsimp only at h
  split at h
  · rename_i hloop
    obtain ⟨later,hlater,hprocessed⟩ := bind_eq_some_iff.mp h
    cases hprocessed
    exact (totalWork_processPasses_le hlater).trans_lt (hpass hloop)
  · cases h
    exact absurd hagain hwait

/-- The calls at one time until the time to wait is not 0. -/
def repeatAsynchron (current : Int) (timers : List TimerInfo) : Option Processed :=
  match _h : processAsynchron current timers with
  | none => none
  | some processed =>
    if _hagain : processed.timeToWait = 0 then do
      let later ← repeatAsynchron current processed.timers
      return {later with calls := processed.calls ++ later.calls}
    else some processed
termination_by totalWork current timers
decreasing_by exact totalWork_processAsynchron ‹_› ‹_›

private theorem repeatAsynchron_eq (h : processAsynchron current timers = some processed) :
    repeatAsynchron current timers =
    if processed.timeToWait = 0 then (repeatAsynchron current processed.timers).map fun later =>
      {later with calls := processed.calls ++ later.calls}
    else some processed := by
  rw [repeatAsynchron]
  split
  · rename_i hnone
    cases hnone.symm.trans h
  · rename_i processed' hsome
    cases hsome.symm.trans h
    split
    · exact map_eq_bind.symm
    · rfl

structure RepeatSpec (current : Int) (timers : List TimerInfo) (processed : Processed) : Prop where
  wakes : ∀ timer, wakeCount timer processed.calls = totalDue current timer timers
  timers : processed.timers = leftOver current timers
  waits : WaitsFor current processed.timeToWait processed.timers

theorem exists_repeatAsynchron (hcurrent : 0 ≤ current) (hrange : InRange current timers) :
    ∃ processed, repeatAsynchron current timers = some processed ∧ RepeatSpec current timers processed := by
  induction hwork : totalWork current timers using Nat.strong_induction_on generalizing timers with
  | h work ih =>
    obtain ⟨processed,hprocessed,hrange'⟩ := hrange.exists_processPasses hcurrent maxLoopCount (-1)
    obtain ⟨hwakes,hleft,hends⟩ := callSpec_processPasses hcurrent maxLoopCount (.inl rfl) hprocessed
    rw [repeatAsynchron_eq hprocessed]
    by_cases hagain : processed.timeToWait = 0
    · have hless := totalWork_processAsynchron hprocessed hagain
      obtain ⟨later,hlater,hspec⟩ := ih _ (hless.trans_eq hwork) hrange' rfl
      rw [if_pos hagain,hlater]
      refine ⟨_,rfl,fun timer => ?_,hspec.timers.trans hleft,hspec.waits⟩
      rw [wakeCount_append,hspec.wakes timer,hwakes timer]
    · obtain ⟨hlate,hwaits⟩ := hends hagain
      rw [if_neg hagain]
      refine ⟨_,rfl,fun timer => ?_,?_,hwaits⟩
      · rw [← hwakes timer,totalDue_late hlate,add_zero]
      · rw [← hleft,leftOver_late hlate]

/-- Both ways to process a queue agree on how often each timer is woken, the queue they leave, the one shot timers they
remove and the time to wait. -/
theorem asynchron_as_synchron (timers : List TimerInfo) (current : Int) (hcurrent : 0 ≤ current)
    (hrange : InRange current timers) : ∃ asynchron synchron, repeatAsynchron current timers = some asynchron ∧
      processLoop current (TimerScheduler.sort timers) = some synchron ∧
      (∀ timer, wakeCount timer asynchron.calls = wakeCount timer synchron.calls) ∧
      asynchron.timers.Perm synchron.timers ∧
      (∀ info ∈ timers, info.period = 0 → (info ∉ asynchron.timers ↔ info ∉ synchron.timers)) ∧
      asynchron.timeToWait = synchron.timeToWait := by
  have hsort : (TimerScheduler.sort timers).Perm timers := perm_insertionSort _ _
  have hdue := dueFirst_sort current timers
  obtain ⟨asynchron,hasynchron,hwakes,hleft,hwait⟩ := exists_repeatAsynchron hcurrent hrange
  obtain ⟨synchron,hsynchron⟩ := InRange.exists_processLoop hcurrent fun info hinfo =>
    hrange info (hsort.mem_iff.mp hinfo)
  have hdrains := drains_of_processLoop hsynchron
  obtain ⟨hsorted,hlate,hfirst⟩ := hdrains.ends hdue ((sorted_sort).imp fun hle _ _ => hle)
  have hperm : asynchron.timers.Perm synchron.timers := by
    rw [hleft]
    exact (leftOver_perm hsort.symm).trans (hdrains.remaining hcurrent hdue).symm
  have hwaitFirst : WaitsFor current synchron.timeToWait synchron.timers := by
    rw [hfirst]
    cases htimers : synchron.timers with
    | nil => exact .inl ⟨rfl,rfl⟩
    | cons first others =>
      rw [htimers] at hsorted
      refine .inr ⟨⟨first,mem_cons_self,rfl⟩,?_⟩
      intro info hinfo
      show first.nextInstant - current ≤ _
      rcases mem_cons.mp hinfo with rfl | hmem
      · exact le_rfl
      · have hle := (pairwise_cons.mp hsorted).1 info hmem
        omega
  refine ⟨asynchron,synchron,hasynchron,hsynchron,?_,hperm,fun info _ _ => not_congr hperm.mem_iff,
    hwait.unique hwaitFirst hperm⟩
  intro timer
  rw [hwakes timer,hdrains.wakeCount hcurrent hdue,totalDue_perm hsort]

/-- A timer that is so late that the passes of one call are not enough for it. -/
theorem asynchron_as_synchron_late : ∃ asynchron synchron,
    repeatAsynchron 2000 [⟨0,1,1⟩,⟨1,5,0⟩] = some asynchron ∧
      processLoop 2000 (TimerScheduler.sort [⟨0,1,1⟩,⟨1,5,0⟩]) = some synchron ∧
      asynchron.timers.Perm synchron.timers ∧ asynchron.timeToWait = synchron.timeToWait := by
  obtain ⟨asynchron,synchron,hasynchron,hsynchron,-,htimers,-,hwait⟩ :=
    asynchron_as_synchron [⟨0,1,1⟩,⟨1,5,0⟩] 2000 (by decide) (by unfold InRange; decide)
  exact ⟨asynchron,synchron,hasynchron,hsynchron,htimers,hwait⟩

/-- Neither way comes to its end when the next instant does not fit into 64 bits. -/
theorem asynchron_overflow : ¬∃ asynchron synchron, repeatAsynchron 10 [⟨0,5,2 ^ 63 - 1⟩] = some asynchron ∧
    processLoop 10 (TimerScheduler.sort [⟨0,5,2 ^ 63 - 1⟩]) = some synchron ∧
      asynchron.timers.Perm synchron.timers := by
  have hnone : processLoop 10 (TimerScheduler.sort [⟨0,5,2 ^ 63 - 1⟩]) = none := by decide +kernel
  rintro ⟨asynchron,synchron,-,hsynchron,-⟩
  cases hnone.symm.trans hsynchron

theorem advancedTo_advancedTo {later : Int} (h : current ≤ later) (info : TimerInfo) :
    (info.advancedTo current).advancedTo later = info.advancedTo later := by
  by_cases hperiod : info.period = 0
  · simp [TimerInfo.advancedTo,nextInstant,hperiod]
  · simp only [TimerInfo.advancedTo,nextInstant_nextInstant (pos_of_ne_zero hperiod) h]

/-- What is due up to a later time is due by now or of what is left. -/
theorem totalDue_later {later : Int} (h : current ≤ later) (timers : List TimerInfo) (timer : Nat) :
    totalDue later timer timers = totalDue current timer timers + totalDue later timer (leftOver current timers) ∧
      leftOver later (leftOver current timers) = leftOver later timers := by
  induction timers with
  | nil => exact ⟨rfl,rfl⟩
  | cons info others ih =>
    rw [totalDue_cons,totalDue_cons,ih.1]
    by_cases hlate : current < info.nextInstant
    · rw [leftOver_cons_of_lt hlate,totalDue_cons,TimerInfo.dueInstants_of_lt hlate,length_nil,ite_self]
      exact ⟨by omega,leftOver_congr ih.2⟩
    · have hdue := not_lt.mp hlate
      by_cases hperiod : info.period = 0
      · have honce {time : Int} (hdue : info.nextInstant ≤ time) : (info.dueInstants time).length = 1 := by
          rw [length_dueInstants hdue,if_neg (not_not_intro hperiod)]
        rw [leftOver_cons_of_single hperiod hdue,leftOver_cons_of_single hperiod (hdue.trans h),honce hdue,
          honce (hdue.trans h)]
        exact ⟨(Nat.add_assoc ..).symm,ih.2⟩
      · have hcons {time : Int} {others : List TimerInfo} (info : TimerInfo) (hperiod : info.period ≠ 0) :
            leftOver time (info::others) = info.advancedTo time::leftOver time others := by
          have hstays : info.stays time = true := decide_eq_true (.inl hperiod)
          rw [leftOver,filter_cons_of_pos hstays,map_cons,leftOver]
        have hinstants (info : TimerInfo) (time : Int) (hperiod : info.period ≠ 0) :
            info.dueInstants time = instants info.nextInstant info.period time := if_pos hperiod
        have hlength : (info.dueInstants later).length =
            (info.dueInstants current).length + ((info.advancedTo current).dueInstants later).length := by
          rw [hinstants info later hperiod,hinstants info current hperiod,
            hinstants (info.advancedTo current) later hperiod,← length_append]
          exact congrArg length (instants_append (pos_of_ne_zero hperiod) h)
        have hsame : (info.advancedTo current).timer = info.timer := rfl
        rw [hcons info hperiod,hcons (info.advancedTo current) hperiod,hcons info hperiod,ih.2,totalDue_cons,hlength,
          hsame]
        refine ⟨by split_ifs <;> omega,?_⟩
        rw [advancedTo_advancedTo h]

def processTurn (asynchron : Bool) (current : Int) (timers : List TimerInfo) : Option Processed :=
  if asynchron then repeatAsynchron current timers else processLoop current (TimerScheduler.sort timers)

/-- The queue is processed at one time after the other, each time in one of the two ways. -/
def processTurns : List (Bool × Int) → List TimerInfo → Option (List TimerCall × List TimerInfo)
  | [], timers => some ([],timers)
  | (asynchron,current)::turns, timers => do
    let processed ← processTurn asynchron current timers
    let later ← processTurns turns processed.timers
    return (processed.calls ++ later.1,later.2)

theorem exists_turn (asynchron : Bool) (hcurrent : 0 ≤ current) (hrange : InRange current timers) : ∃ processed,
    processTurn asynchron current timers = some processed ∧
      (∀ timer, wakeCount timer processed.calls = totalDue current timer timers) ∧
      processed.timers.Perm (leftOver current timers) := by
  cases asynchron with
  | true =>
    obtain ⟨processed,hprocessed,hwakes,hleft,-⟩ := exists_repeatAsynchron hcurrent hrange
    exact ⟨processed,hprocessed,hwakes,.of_eq hleft⟩
  | false =>
    have hdue := dueFirst_sort current timers
    have hperm : (TimerScheduler.sort timers).Perm timers := perm_insertionSort _ _
    obtain ⟨processed,hprocessed⟩ := InRange.exists_processLoop hcurrent fun info hinfo =>
      hrange info (hperm.mem_iff.mp hinfo)
    have hdrains := drains_of_processLoop hprocessed
    exact ⟨processed,hprocessed,fun timer => (hdrains.wakeCount hcurrent hdue).trans (totalDue_perm hperm),
      (hdrains.remaining hcurrent hdue).trans (leftOver_perm hperm)⟩

private theorem InRange.earlier {later : Int} (hrange : InRange later timers) (h : current ≤ later) :
    InRange current timers := by
  intro info hinfo
  obtain ⟨hlow,hhigh⟩ := hrange info hinfo
  rw [← advancedTo_advancedTo h] at hhigh
  exact ⟨hlow,(le_nextInstant ..).trans_lt hhigh⟩

private theorem InRange.leftOver {later : Int} (hrange : InRange later timers) (h : current ≤ later)
    (hperm : others.Perm (Scheduler.leftOver current timers)) : InRange later others := by
  intro other hother
  obtain ⟨info,hinfo,rfl⟩ := mem_map.mp (hperm.mem_iff.mp hother)
  obtain ⟨hlow,hhigh⟩ := hrange info (mem_filter.mp hinfo).1
  rw [advancedTo_advancedTo h]
  exact ⟨hlow.trans (le_nextInstant ..),hhigh⟩

/-- However often and in whichever way the queue is processed up to a time, each timer has been woken at each of its
instants, and all timers left are queued. -/
theorem turns_as_one (turns : List (Bool × Int)) (asynchron : Bool) (last : Int) (timers : List TimerInfo)
    (hsorted : (0::turns.map Prod.snd ++ [last]).Pairwise (· ≤ ·)) (hrange : InRange last timers) :
    ∃ calls left, processTurns (turns ++ [(asynchron,last)]) timers = some (calls,left) ∧
      (∀ timer, wakeCount timer calls = totalDue last timer timers) ∧ left.Perm (leftOver last timers) := by
  induction turns generalizing timers with
  | nil =>
    have hlast := (pairwise_cons.mp hsorted).1 last (mem_singleton_self last)
    obtain ⟨processed,hprocessed,hwakes,hleft⟩ := exists_turn asynchron hlast hrange
    refine ⟨processed.calls ++ [],processed.timers,?_,?_,hleft⟩
    · rw [nil_append,processTurns,hprocessed]
      rfl
    · exact fun timer => (wakeCount_append ..).trans (hwakes timer)
  | cons turn turns ih =>
    obtain ⟨hnonneg,hrest⟩ := pairwise_cons.mp hsorted
    obtain ⟨hbehind,hsorted'⟩ := pairwise_cons.mp hrest
    have hlast : turn.2 ≤ last := hbehind last (mem_append_right _ mem_cons_self)
    obtain ⟨processed,hprocessed,hwakes,hleft⟩ :=
      exists_turn turn.1 (hnonneg turn.2 mem_cons_self) (hrange.earlier hlast)
    obtain ⟨calls,left,hturns,hlater,hleft'⟩ := ih processed.timers
      (pairwise_cons.mpr ⟨fun time htime => hnonneg time (mem_cons_of_mem _ htime),hsorted'⟩)
      (hrange.leftOver hlast hleft)
    have hrest := totalDue_later hlast timers
    refine ⟨processed.calls ++ calls,left,?_,fun timer => ?_,
      hleft'.trans ((leftOver_perm hleft).trans (.of_eq (hrest 0).2))⟩
    · rw [cons_append,processTurns,hprocessed,bind_eq_bind,bind_some,hturns]
      rfl
    · rw [(hrest timer).1,← hwakes timer,← totalDue_perm hleft,← hlater timer]
      exact wakeCount_append ..

/-- A periodic and a one shot timer, processed at 2 and at 6. -/
theorem turns_as_one_twice : ∃ calls left,
    processTurns [(true,2),(false,6)] [⟨0,1,4⟩,⟨1,3,0⟩] = some (calls,left) ∧
      left.Perm (leftOver 6 [⟨0,1,4⟩,⟨1,3,0⟩]) := by
  obtain ⟨calls,left,hturns,-,hleft⟩ := turns_as_one [(true,2)] false 6 [⟨0,1,4⟩,⟨1,3,0⟩] (by decide)
    (by unfold InRange; decide)
  exact ⟨calls,left,hturns,hleft⟩

end FepParticipant.Scheduler
