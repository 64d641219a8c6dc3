import FepParticipant.Library.OrderedMultiset
import FepParticipant.Scheduler.TimerTriggering

/-! The synchronous processing of a queue with periodic and one shot timers: who is woken how often
and in which order, and what is left of the queue. -/
namespace FepParticipant.Scheduler
open Library List Nat

variable {current : Int} {info : TimerInfo} {timers others due late : List TimerInfo} {calls : List TimerCall}
  {processed : Processed}

def TimerInfo.wakeUp (info : TimerInfo) : TimerCall := .wakeUp info.timer info.nextInstant

section
variable (hdue : ∀ other ∈ due, other.nextInstant ≤ current)
include hdue

private theorem insertNext_append : info.insertNext current (due ++ late) = due ++ info.insertNext current late := by
  induction due with
  | nil => rfl
  | cons first due ih =>
    have hfirst := hdue first mem_cons_self
    rw [cons_append,TimerInfo.insertNext,if_neg (by omega),
      ih fun other hother => hdue other (mem_cons_of_mem _ hother),cons_append]

private theorem requeue_append : info.requeue current (due ++ late) = due ++ info.requeue current late := by
  unfold TimerInfo.requeue
  split
  · exact insertNext_append hdue
  · rfl

theorem Drains.due_first (h : Drains current (due ++ late) processed) :
    ∃ rest, processed.calls = due.map TimerInfo.wakeUp ++ rest := by
  induction due generalizing late processed with
  | nil => exact ⟨_,rfl⟩
  | cons first due ih =>
    have hnow := hdue first mem_cons_self
    have hrest : ∀ other ∈ due, other.nextInstant ≤ current := fun other hother =>
      hdue other (mem_cons_of_mem _ hother)
    rw [cons_append] at h
    cases h with
    | waits _ _ hwaits =>
      have hlater := hwaits.2
      omega
    | wakes _ _ later hwaits hlater =>
      rw [requeue_append hrest] at hlater
      obtain ⟨rest,hcalls⟩ := ih hrest hlater
      exact ⟨rest,congrArg (first.wakeUp :: ·) hcalls⟩

end

/-- The timers that are not due are in the order of their next instants. -/
def LateSorted (current : Int) (timers : List TimerInfo) : Prop :=
  timers.Pairwise fun info other =>
    current < info.nextInstant → current < other.nextInstant → info.nextInstant ≤ other.nextInstant

private theorem lateSorted_insertNext (h : LateSorted current others) :
    LateSorted current (info.insertNext current others) := by
  refine pairwise_insertNext h ?_ ?_
  · rintro other later hplace (rfl | horder) _ hlate
    · exact le_of_lt hplace.2
    · exact (le_of_lt hplace.2).trans (horder hplace.1 hlate)
  · intro other hplace hlate _
    omega

private theorem lateSorted_requeue (h : LateSorted current (info::others)) :
    LateSorted current (info.requeue current others) := by
  have hothers : LateSorted current others := (pairwise_cons.mp h).2
  unfold TimerInfo.requeue
  split
  · exact lateSorted_insertNext hothers
  · exact hothers

theorem sorted_sort : (TimerScheduler.sort timers).Pairwise fun info other => info.nextInstant ≤ other.nextInstant :=
  pairwise_insertionSort (fun info other : TimerInfo => info.nextInstant ≤ other.nextInstant) timers

theorem Drains.ends (hdue : DueFirst current timers) (hsorted : LateSorted current timers)
    (h : Drains current timers processed) :
    processed.timers.Pairwise (fun info other => info.nextInstant ≤ other.nextInstant) ∧
    (∀ info ∈ processed.timers, current < info.nextInstant) ∧
    processed.timeToWait = processed.timers.head?.elim (-1) (·.nextInstant - current) := by
  induction h with
  | empty => exact ⟨List.Pairwise.nil,forall_mem_nil _,rfl⟩
  | waits info others hwaits =>
    have hlate := late_of_waits hdue hwaits
    refine ⟨hsorted.imp_of_mem ?_,hlate,rfl⟩
    intro first second hfirst hsecond hle
    exact hle (hlate first hfirst) (hlate second hsecond)
  | wakes info others later hwaits _ ih => exact ih (TimerInfo.dueFirst_requeue hdue) (lateSorted_requeue hsorted)

structure ServesQueue (current : Int) (timers : List TimerInfo) (processed : Processed) : Prop where
  periodic : ∀ info ∈ timers, info.period ≠ 0 →
    triggersIn info.timer processed.calls = instants info.nextInstant info.period current
  oneShot : ∀ info ∈ timers, info.period = 0 →
    triggersIn info.timer processed.calls = if info.nextInstant ≤ current then [info.nextInstant] else []
  strangers : ∀ timer, (∀ info ∈ timers, info.timer ≠ timer) → triggersIn timer processed.calls = []
  increasing : ∀ timer, (triggersIn timer processed.calls).Pairwise (· < ·)
  remaining : processed.timers.Perm ((timers.filter (TimerInfo.stays current)).map (TimerInfo.advancedTo current))
  /-- Before a timer is woken again, all that were due have been woken. -/
  fair : ∀ front timer wakeupTime rest, processed.calls = front ++ .wakeUp timer wakeupTime::rest →
    triggersIn timer front ≠ [] → ∀ info ∈ timers, info.nextInstant ≤ current → triggersIn info.timer front ≠ []
  sorted : processed.timers.Pairwise fun info other => info.nextInstant ≤ other.nextInstant
  noneDue : ∀ info ∈ processed.timers, current < info.nextInstant
  waitsForNone : processed.timeToWait = -1 ↔ processed.timers = []
  waitsForFirst : processed.timers ≠ [] →
    (∃ info ∈ processed.timers, processed.timeToWait = info.nextInstant - current) ∧
    ∀ info ∈ processed.timers, processed.timeToWait ≤ info.nextInstant - current

theorem mem_triggersIn {timer : Nat} (h : triggersIn timer calls ≠ []) :
    ∃ wakeupTime, TimerCall.wakeUp timer wakeupTime ∈ calls := by
  obtain ⟨wakeupTime,hmem⟩ := exists_mem_of_ne_nil _ h
  obtain ⟨call,hcall,hwoken⟩ := mem_filterMap.mp hmem
  cases call with
  | wakeUp woken time =>
    dsimp only at hwoken
    split at hwoken
    · rename_i hsame
      exact ⟨time,hsame ▸ hcall⟩
    · cases hwoken
  | reset _ => cases hwoken

private theorem triggersIn_ne_nil {timer : Nat} {wakeupTime : Int}
    (h : TimerCall.wakeUp timer wakeupTime ∈ calls) : triggersIn timer calls ≠ [] := by
  intro hnone
  have hall := filterMap_eq_nil_iff.mp hnone _ h
  dsimp only at hall
  rw [if_pos rfl] at hall
  cases hall

def TimerCall.timer : TimerCall → Nat
  | .wakeUp timer _ => timer
  | .reset timer => timer

theorem fair_of_first_round {calls front rest rest' : List TimerCall} {timer : Nat} {wakeupTime : Int}
    (hnodup : (due.map TimerInfo.timer).Nodup) (hcalls : calls = due.map TimerInfo.wakeUp ++ rest)
    (hsplit : calls = front ++ .wakeUp timer wakeupTime::rest') (hagain : triggersIn timer front ≠ [])
    (hinfo : info ∈ due) : triggersIn info.timer front ≠ [] := by
  have hround : info.wakeUp ∈ due.map TimerInfo.wakeUp := mem_map_of_mem hinfo
  rcases append_eq_append_iff.mp (hcalls.symm.trans hsplit) with ⟨more,hfront,-⟩ | ⟨more,hdue,hmore⟩
  · rw [hfront]
    exact triggersIn_ne_nil (mem_append_left more hround)
  · cases more with
    | nil =>
      rw [hdue,append_nil] at hround
      exact triggersIn_ne_nil hround
    | cons call more =>
      -- both calls for the timer would be in the first round
      cases hmore
      obtain ⟨earlier,hearlier⟩ := mem_triggersIn hagain
      have htimers : due.map TimerInfo.timer = front.map TimerCall.timer ++ timer::more.map TimerCall.timer := by
        have hmap := congrArg (List.map TimerCall.timer) hdue
        rw [map_map,map_append] at hmap
        exact hmap
      rw [htimers,nodup_append] at hnodup
      exact absurd rfl (hnodup.2.2 timer (mem_map.mpr ⟨_,hearlier,rfl⟩) timer (mem_cons_self ..))

private theorem sort_eq_due_append :
    ∃ due late, TimerScheduler.sort timers = due ++ late ∧ (∀ info ∈ due, info.nextInstant ≤ current) ∧
      ∀ info ∈ timers, info.nextInstant ≤ current → info ∈ due := by
  have hsorted : ((TimerScheduler.sort timers).map TimerInfo.nextInstant).Pairwise (· ≤ ·) :=
    pairwise_map.mpr (sorted_sort)
  refine ⟨(TimerScheduler.sort timers).takeWhile (·.nextInstant ≤ current),
    (TimerScheduler.sort timers).dropWhile (·.nextInstant ≤ current),takeWhile_append_dropWhile.symm,?_,?_⟩
  · intro info hinfo
    have hall := all_takeWhile (p := fun info : TimerInfo => decide (info.nextInstant ≤ current))
      (l := TimerScheduler.sort timers)
    exact of_decide_eq_true (all_eq_true.mp hall info hinfo)
  · intro info hinfo hdue
    have hmem : info ∈ TimerScheduler.sort timers := (perm_insertionSort _ timers).mem_iff.mpr hinfo
    rw [← takeWhile_append_dropWhile (p := fun info : TimerInfo => decide (info.nextInstant ≤ current))
      (l := TimerScheduler.sort timers)] at hmem
    rcases mem_append.mp hmem with hfront | hback
    · exact hfront
    · have hlate : current < info.nextInstant := OrderedMultiset.lt_of_mem_dropWhile hsorted hback
      omega

/-- For every queue of different timers and every current time in their range. -/
theorem process_queue_synchron (timers : List TimerInfo) (hnodup : (timers.map TimerInfo.timer).Nodup)
    (current : Int) (hcurrent : 0 ≤ current) (hrange : InRange current timers) :
    ∃ processed, processLoop current (TimerScheduler.sort timers) = some processed ∧
      ServesQueue current timers processed := by
  have hperm : (TimerScheduler.sort timers).Perm timers := perm_insertionSort _ _
  obtain ⟨processed,hprocessed⟩ := InRange.exists_processLoop hcurrent fun info hinfo =>
    hrange info (hperm.mem_iff.mp hinfo)
  refine ⟨processed,hprocessed,?_⟩
  have hdrains := drains_of_processLoop hprocessed
  have hdue := dueFirst_sort current timers
  have hlate : LateSorted current (TimerScheduler.sort timers) := (sorted_sort).imp fun hle _ _ => hle
  have hsortedNodup : ((TimerScheduler.sort timers).map TimerInfo.timer).Nodup := (hperm.map _).nodup_iff.mpr hnodup
  have htriggers : ∀ info ∈ timers, triggersIn info.timer processed.calls = info.dueInstants current :=
    fun info hinfo => hdrains.dueInstants hcurrent hdue hsortedNodup (hperm.mem_iff.mpr hinfo)
  have hstrangers : ∀ timer, (∀ info ∈ timers, info.timer ≠ timer) → triggersIn timer processed.calls = [] :=
    fun timer hother => hdrains.strangers fun info hinfo => hother info (hperm.mem_iff.mp hinfo)
  obtain ⟨hsorted,hnone,hwait⟩ := hdrains.ends hdue hlate
  constructor
  · intro info hinfo hperiod
    rw [htriggers info hinfo,TimerInfo.dueInstants,if_pos hperiod]
  · intro info hinfo hperiod
    rw [htriggers info hinfo,TimerInfo.dueInstants,if_neg (not_not_intro hperiod)]
  · exact hstrangers
  · intro timer
    by_cases hknown : ∃ info ∈ timers, info.timer = timer
    · obtain ⟨info,hinfo,rfl⟩ := hknown
      rw [htriggers info hinfo,TimerInfo.dueInstants]
      split
      · rename_i hperiod
        exact instants_increase (pos_of_ne_zero hperiod)
      · split
        · exact pairwise_singleton ..
        · exact List.Pairwise.nil
    · rw [hstrangers timer fun info hinfo hsame => hknown ⟨info,hinfo,hsame⟩]
      exact List.Pairwise.nil
  · exact (hdrains.remaining hcurrent hdue).trans (leftOver_perm hperm)
  · intro front timer wakeupTime rest hsplit hagain info hinfo hinfoDue
    obtain ⟨due,late,hsort,hround,hall⟩ := sort_eq_due_append
    rw [hsort] at hdrains hsortedNodup
    obtain ⟨more,hcalls⟩ := hdrains.due_first hround
    rw [map_append] at hsortedNodup
    exact fair_of_first_round (nodup_append.mp hsortedNodup).1 hcalls hsplit hagain (hall info hinfo hinfoDue)
  · exact hsorted
  · exact hnone
  · rw [hwait]
    cases hleft : processed.timers with
    | nil => exact iff_of_true rfl rfl
    | cons first others =>
      have hlater := hnone first (hleft ▸ mem_cons_self)
      refine iff_of_false ?_ (cons_ne_nil _ _)
      show ¬first.nextInstant - current = -1
      omega
  · rw [hwait]
    cases hleft : processed.timers with
    | nil => exact absurd rfl
    | cons first others =>
      intro _
      rw [hleft] at hsorted
      refine ⟨⟨first,mem_cons_self,rfl⟩,?_⟩
      intro info hinfo
      show first.nextInstant - current ≤ _
      rcases mem_cons.mp hinfo with rfl | hmem
      · exact le_rfl
      · have hle := (pairwise_cons.mp hsorted).1 info hmem
        omega

/-- A timer that missed several periods, a one shot timer that is due and one that is not. -/
theorem process_queue_synchron_late : ∃ processed,
    processLoop 10 (TimerScheduler.sort [⟨0,2,4⟩,⟨1,12,0⟩,⟨2,5,0⟩]) = some processed ∧
      ServesQueue 10 [⟨0,2,4⟩,⟨1,12,0⟩,⟨2,5,0⟩] processed :=
  process_queue_synchron _ (by decide) 10 (by decide) (by unfold InRange; decide)

/-- Behind the instant at 5 there is none that fits into 64 bits. -/
theorem process_queue_overflow : ¬∃ processed,
    processLoop 10 (TimerScheduler.sort [⟨0,5,2 ^ 63 - 1⟩]) = some processed ∧
      ServesQueue 10 [⟨0,5,2 ^ 63 - 1⟩] processed := by
  have hnone : processLoop 10 (TimerScheduler.sort [⟨0,5,2 ^ 63 - 1⟩]) = none := by decide +kernel
  rintro ⟨processed,hprocessed,-⟩
  cases hnone.symm.trans hprocessed

end FepParticipant.Scheduler
