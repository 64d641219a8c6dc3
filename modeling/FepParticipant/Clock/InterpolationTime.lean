import FepParticipant.Library.MachineWord
import Mathlib.Algebra.Order.Group.Int
import Mathlib.Data.List.Induction

/-! The time of a slave between two answers of its master, interpolated with the local clock. -/
namespace FepParticipant.Clock
open Library List

structure InterpolationTime where
  lastInterpolatedTime : Int
  offset : Int
  lastTimeSet : Int
  lastRawTime : Int

inductive InterpolationCall where
  | setTime (time roundtripTime : Int)
  | resetTime (time : Int)
  | getTime

structure TimedCall where
  now : Int
  call : InterpolationCall

namespace InterpolationTime

def new (raw : Int) : InterpolationTime := ⟨0,0,0,raw⟩

/-- Before there is a time the last one set is returned. -/
def getTime (s : InterpolationTime) (now : Int) : InterpolationTime × Int :=
  if 0 < s.lastTimeSet then
    let time := wrap64 (now - s.offset)
    let s := if s.lastInterpolatedTime < time then {s with lastInterpolatedTime := time} else s
    (s,s.lastInterpolatedTime)
  else (s,s.lastTimeSet)

def resetTime (now time : Int) : InterpolationTime := ⟨time,wrap64 (now - time),time,time⟩

/-- A time that is smaller than the last one is a reset. -/
def setTime (s : InterpolationTime) (now time roundtripTime : Int) : InterpolationTime :=
  let s := if time < s.lastRawTime then resetTime now time else s
  let lastTimeSet := wrap64 (time + roundtripTime.tdiv 2)
  ⟨s.lastInterpolatedTime,wrap64 (now - lastTimeSet),lastTimeSet,time⟩

def apply (s : InterpolationTime) (timed : TimedCall) : InterpolationTime :=
  match timed.call with
  | .setTime time roundtripTime => s.setTime timed.now time roundtripTime
  | .resetTime time => resetTime timed.now time
  | .getTime => (s.getTime timed.now).1

/-- No time that the call computes leaves the 64 bits. -/
def CallFits (s : InterpolationTime) (timed : TimedCall) : Prop :=
  match timed.call with
  | .setTime time roundtripTime => (time < s.lastRawTime → Fits64 (timed.now - time)) ∧
    Fits64 (time + roundtripTime.tdiv 2) ∧ Fits64 (timed.now - (time + roundtripTime.tdiv 2))
  | .resetTime time => Fits64 (timed.now - time)
  | .getTime => 0 < s.lastTimeSet → Fits64 (timed.now - s.offset)

def TimesFit (s : InterpolationTime) : List TimedCall → Prop
  | [] => True
  | timed::calls => s.CallFits timed ∧ TimesFit (s.apply timed) calls

def applyAll (s : InterpolationTime) (calls : List TimedCall) : InterpolationTime := calls.foldl apply s

def resetBy (s : InterpolationTime) : InterpolationCall → Bool
  | .setTime time _ => time < s.lastRawTime
  | .resetTime _ => true
  | .getTime => false

def resetFree (s : InterpolationTime) : List TimedCall → Bool
  | [] => true
  | timed::calls => !s.resetBy timed.call && resetFree (s.apply timed) calls

/-- Two requests of the time without a reset between them. -/
structure Requests (s : InterpolationTime) (calls front middle : List TimedCall) (now later : Int) : Prop where
  calls : ∃ behind, calls = front ++ ⟨now,.getTime⟩::(middle ++ ⟨later,.getTime⟩::behind)
  unreset : resetFree (s.applyAll (front ++ [⟨now,.getTime⟩])) middle = true

/-- The states the two requests come in. -/
def first (s : InterpolationTime) (front : List TimedCall) : InterpolationTime := s.applyAll front

def second (s : InterpolationTime) (front middle : List TimedCall) (now : Int) : InterpolationTime :=
  s.applyAll (front ++ ⟨now,.getTime⟩::middle)

/-- Between resets the time does not decrease, and what was before a reset has no influence behind it. -/
structure TimeKept (s : InterpolationTime) (calls : List TimedCall) : Prop where
  monotone : ∀ front middle now later, Requests s calls front middle now later →
    ((s.first front).getTime now).2 ≤ ((s.second front middle now).getTime later).2
  forgets : ∀ front timed behind, calls = front ++ timed::behind → (s.applyAll front).resetBy timed.call = true →
    ∀ other : InterpolationTime, other.resetBy timed.call = true → s.applyAll calls = other.applyAll (timed::behind)

/-- Where the time set last is not positive, it is not less than the one at an earlier request. -/
def StaysSet (s : InterpolationTime) (calls : List TimedCall) : Prop :=
  ∀ front middle now later, Requests s calls front middle now later →
    0 < (s.second front middle now).lastTimeSet ∨
      (s.first front).lastTimeSet ≤ (s.second front middle now).lastTimeSet

variable {s t : InterpolationTime} {calls front middle : List TimedCall} {now later time roundtripTime : Int}
  {timed : TimedCall}

theorem applyAll_append (s : InterpolationTime) (calls more : List TimedCall) :
    s.applyAll (calls ++ more) = (s.applyAll calls).applyAll more :=
  foldl_append

theorem timesFit_append {more : List TimedCall} (h : s.TimesFit (calls ++ more)) :
    s.TimesFit calls ∧ (s.applyAll calls).TimesFit more := by
  induction calls generalizing s with
  | nil => exact ⟨trivial,h⟩
  | cons timed calls ih =>
    obtain ⟨hcalls,hmore⟩ := ih h.2
    exact ⟨⟨h.1,hcalls⟩,hmore⟩

theorem getTime_of_set (h : 0 < s.lastTimeSet) :
    s.getTime now = ({s with lastInterpolatedTime := max s.lastInterpolatedTime (wrap64 (now - s.offset))},
      max s.lastInterpolatedTime (wrap64 (now - s.offset))) := by
  rw [getTime,if_pos h]
  dsimp only
  split
  · rename_i hless
    rw [max_eq_right hless.le]
  · rename_i hnot
    rw [max_eq_left (not_lt.mp hnot)]

theorem getTime_of_unset (h : ¬0 < s.lastTimeSet) : s.getTime now = (s,s.lastTimeSet) := if_neg h

theorem getTime_lastTimeSet : (s.getTime now).1.lastTimeSet = s.lastTimeSet := by
  by_cases h : 0 < s.lastTimeSet
  · rw [getTime_of_set h]
  · rw [getTime_of_unset h]

theorem getTime_offset : (s.getTime now).1.offset = s.offset := by
  by_cases h : 0 < s.lastTimeSet
  · rw [getTime_of_set h]
  · rw [getTime_of_unset h]

private theorem le_getTime : s.lastInterpolatedTime ≤ (s.getTime now).1.lastInterpolatedTime := by
  by_cases h : 0 < s.lastTimeSet
  · rw [getTime_of_set h]
    exact le_max_left _ _
  · rw [getTime_of_unset h]

theorem apply_of_resetBy (hs : s.resetBy timed.call = true) (ht : t.resetBy timed.call = true) :
    s.apply timed = t.apply timed := by
  obtain ⟨now,call⟩ := timed
  cases call with
  | setTime time roundtripTime =>
    have hs' : time < s.lastRawTime := of_decide_eq_true hs
    have ht' : time < t.lastRawTime := of_decide_eq_true ht
    rw [apply,apply]
    dsimp only
    rw [setTime,setTime,if_pos hs',if_pos ht']
  | resetTime time => rfl
  | getTime => cases hs

private theorem le_apply (h : s.resetBy timed.call = false) :
    s.lastInterpolatedTime ≤ (s.apply timed).lastInterpolatedTime := by
  obtain ⟨now,call⟩ := timed
  cases call with
  | setTime time roundtripTime =>
    have hnot : ¬time < s.lastRawTime := of_decide_eq_false h
    rw [apply]
    dsimp only
    rw [setTime,if_neg hnot]
  | resetTime time => cases h
  | getTime => exact le_getTime

theorem le_applyAll (h : resetFree s calls = true) :
    s.lastInterpolatedTime ≤ (s.applyAll calls).lastInterpolatedTime := by
  induction calls generalizing s with
  | nil => exact le_refl _
  | cons timed calls ih =>
    rw [resetFree,Bool.and_eq_true,Bool.not_eq_true'] at h
    exact (le_apply h.1).trans (ih h.2)

def Started (s : InterpolationTime) (now : Int) : Prop := 0 < s.lastTimeSet → s.offset + s.lastTimeSet ≤ now

theorem Started.apply (h : s.Started timed.now) (hfits : s.CallFits timed) (hlater : timed.now ≤ later) :
    (s.apply timed).Started later := by
  obtain ⟨now,call⟩ := timed
  intro hset
  cases call with
  | setTime time roundtripTime =>
    obtain ⟨-,⟨hlow,hhigh⟩,hlow',hhigh'⟩ := hfits
    rw [InterpolationTime.apply]
    dsimp only
    rw [setTime]
    dsimp only at hlater hlow' hhigh' ⊢
    rw [wrap64_of_range hlow hhigh,wrap64_of_range hlow' hhigh']
    omega
  | resetTime time =>
    have hfits : Fits64 (now - time) := hfits
    rw [InterpolationTime.apply]
    dsimp only
    rw [resetTime]
    dsimp only at hlater ⊢
    rw [wrap64_of_range hfits.1 hfits.2]
    omega
  | getTime =>
    rw [InterpolationTime.apply] at hset ⊢
    rw [getTime_lastTimeSet] at hset
    rw [getTime_lastTimeSet,getTime_offset]
    exact (h hset).trans hlater

theorem started_applyAll (h : ∀ now, s.Started now) (hclock : (calls.map TimedCall.now).Pairwise (· ≤ ·))
    (hfits : s.TimesFit calls) (hlater : ∀ timed ∈ calls, timed.now ≤ later) : (s.applyAll calls).Started later := by
  induction calls using List.reverseRecOn generalizing later with
  | nil => exact h later
  | append_singleton calls timed ih =>
    rw [map_append,pairwise_append] at hclock
    obtain ⟨hfits,hlast,-⟩ := timesFit_append hfits
    rw [applyAll_append]
    refine Started.apply (ih hclock.1 hfits ?_) hlast (hlater timed (mem_append_right _ mem_cons_self))
    intro other hother
    exact hclock.2.2 _ (mem_map_of_mem hother) _ mem_cons_self

theorem getTime_le_iff (hbefore : s.Started now) (hstarted : t.Started later)
    (hfits : s.CallFits ⟨now,.getTime⟩) (hfits' : t.CallFits ⟨later,.getTime⟩)
    (hle : (s.getTime now).1.lastInterpolatedTime ≤ t.lastInterpolatedTime) :
    (s.getTime now).2 ≤ (t.getTime later).2 ↔ 0 < t.lastTimeSet ∨ s.lastTimeSet ≤ t.lastTimeSet := by
  by_cases ht : 0 < t.lastTimeSet
  · refine iff_of_true ?_ (.inl ht)
    have hcounts := hstarted ht
    rw [getTime_of_set ht]
    by_cases hs : 0 < s.lastTimeSet
    · rw [getTime_of_set hs] at hle ⊢
      exact hle.trans (le_max_left _ _)
    · have hanswer : wrap64 (later - t.offset) = later - t.offset :=
        wrap64_of_range (hfits' ht).1 (hfits' ht).2
      rw [getTime_of_unset hs]
      refine le_trans ?_ (le_max_right _ _)
      rw [hanswer]
      omega
  · rw [getTime_of_unset ht]
    by_cases hs : 0 < s.lastTimeSet
    · have hcounts := hbefore hs
      have hanswer : now - s.offset ≤ (s.getTime now).2 := by
        rw [getTime_of_set hs]
        exact (wrap64_of_range (hfits hs).1 (hfits hs).2).ge.trans (le_max_right _ _)
      exact iff_of_false (by omega) (by omega)
    · rw [getTime_of_unset hs]
      exact ⟨.inr,fun h => h.resolve_left ht⟩

private theorem started_new (raw now : Int) : (new raw).Started now := fun h => absurd h (lt_irrefl _)

section
variable (hclock : (calls.map TimedCall.now).Pairwise (· ≤ ·))
include hclock

private theorem le_of_clock {behind : List TimedCall}
    (hcalls : calls = front ++ timed::behind) : ∀ earlier ∈ front, earlier.now ≤ timed.now := by
  intro earlier hearlier
  rw [hcalls,map_append,pairwise_append] at hclock
  exact hclock.2.2 _ (mem_map_of_mem hearlier) _ (mem_map_of_mem mem_cons_self)

private theorem started_front {raw : Int} {behind : List TimedCall} (hfits : (new raw).TimesFit calls)
    (hcalls : calls = front ++ timed::behind) : ((new raw).applyAll front).Started timed.now ∧
      ((new raw).applyAll front).CallFits timed := by
  have hlater := le_of_clock hclock hcalls
  rw [hcalls] at hfits
  rw [hcalls,map_append] at hclock
  obtain ⟨hfront,htimed,-⟩ := timesFit_append hfits
  exact ⟨started_applyAll (started_new raw) (pairwise_append.mp hclock).1 hfront hlater,htimed⟩

private theorem requests_le_iff {raw : Int} (hfits : (new raw).TimesFit calls)
    (h : Requests (new raw) calls front middle now later) :
    (((new raw).first front).getTime now).2 ≤ (((new raw).second front middle now).getTime later).2 ↔
      0 < ((new raw).second front middle now).lastTimeSet ∨
        ((new raw).first front).lastTimeSet ≤ ((new raw).second front middle now).lastTimeSet := by
  obtain ⟨behind,hcalls⟩ := h.calls
  have hcalls' : calls = (front ++ ⟨now,.getTime⟩::middle) ++ ⟨later,.getTime⟩::behind := by
    rw [hcalls,append_assoc,cons_append]
  obtain ⟨hbefore,hfirst⟩ := started_front hclock hfits hcalls
  obtain ⟨hstarted,hsecond⟩ := started_front hclock hfits hcalls'
  apply getTime_le_iff hbefore hstarted hfirst hsecond
  have hkept := le_applyAll h.unreset
  rw [← applyAll_append,append_assoc,singleton_append] at hkept
  rw [applyAll_append] at hkept
  exact hkept

end

/-- The time of a slave is kept exactly if a time that is not positive is not less than an earlier one. -/
theorem timeKept_iff (raw : Int) (calls : List TimedCall) (hclock : (calls.map TimedCall.now).Pairwise (· ≤ ·))
    (hfits : (new raw).TimesFit calls) : TimeKept (new raw) calls ↔ StaysSet (new raw) calls := by
  constructor
  · intro h front middle now later hrequests
    exact (requests_le_iff hclock hfits hrequests).mp (h.monotone front middle now later hrequests)
  · intro h
    refine ⟨?_,?_⟩
    · intro front middle now later hrequests
      exact (requests_le_iff hclock hfits hrequests).mpr (h front middle now later hrequests)
    · rintro front timed behind rfl hreset other hother
      rw [applyAll_append,applyAll,foldl_cons,apply_of_resetBy hreset hother]
      rfl

instance (s : InterpolationTime) (timed : TimedCall) : Decidable (s.CallFits timed) := by
  unfold CallFits
  cases timed.call <;> infer_instance

instance decidableTimesFit : (s : InterpolationTime) → (calls : List TimedCall) → Decidable (s.TimesFit calls)
  | _, [] => .isTrue trivial
  | s, timed::calls =>
    have := decidableTimesFit (s.apply timed) calls
    inferInstanceAs (Decidable (_ ∧ _))

/-- Two requests behind the only time that is set. -/
theorem timeKept_once : TimeKept (new 0) [⟨0,.resetTime 0⟩,⟨1,.setTime 10 2⟩,⟨2,.getTime⟩,⟨3,.getTime⟩] := by
  apply (timeKept_iff 0 [⟨0,.resetTime 0⟩,⟨1,.setTime 10 2⟩,⟨2,.getTime⟩,⟨3,.getTime⟩] (by decide)
    (by decide +kernel)).mpr
  rintro front middle now later ⟨⟨behind,hcalls⟩,-⟩
  rcases front with _ | ⟨reset,_ | ⟨set,_ | ⟨get,front⟩⟩⟩
  · cases hcalls
  · cases hcalls
  · rcases middle with _ | ⟨other,middle⟩
    · cases hcalls
      exact .inl (by decide +kernel)
    · simp at hcalls
  · have hlength := congrArg List.length hcalls
    simp at hlength
    omega

/-- The master stands at 0; the second answer of it comes faster than the first. -/
theorem timeKept_not : ¬∀ (raw : Int) (calls : List TimedCall), (calls.map TimedCall.now).Pairwise (· ≤ ·) →
    (new raw).TimesFit calls → TimeKept (new raw) calls := by
  intro h
  have hkept := (h 0 [⟨1000,.resetTime 0⟩,⟨2000,.setTime 0 100⟩,⟨2000,.getTime⟩,⟨2100,.setTime 0 1⟩,
    ⟨2100,.getTime⟩] (by decide) (by decide +kernel)).monotone [⟨1000,.resetTime 0⟩,⟨2000,.setTime 0 100⟩]
    [⟨2100,.setTime 0 1⟩] 2000 2100 ⟨⟨[],rfl⟩,by decide +kernel⟩
  exact absurd hkept (by decide +kernel)

end InterpolationTime

end FepParticipant.Clock
