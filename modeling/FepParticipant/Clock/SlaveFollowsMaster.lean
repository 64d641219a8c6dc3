import FepParticipant.Clock.ClockMaster
import FepParticipant.Library.Reachability

/-! In which runs the clock of a slave shows the time of its master and reports the same updates and
resets. -/
namespace FepParticipant.Clock
open Library DiscreteClock

/-- What an event says about the time; the other events of an update or a reset only frame it. -/
inductive TimeChange where
  | update (newTime : Int)
  | reset (newTime : Int)
  deriving DecidableEq

def ClockEvent.change : ClockEvent → Option TimeChange
  | .timeUpdating newTime => some (.update newTime)
  | .timeResetEnd newTime => some (.reset newTime)
  | _ => none

/-- The updates and resets among events. -/
def changes (events : List ClockEvent) : List TimeChange := events.filterMap ClockEvent.change

@[simp] theorem changes_append (events later : List ClockEvent) :
    changes (events ++ later) = changes events ++ changes later :=
  List.filterMap_append

namespace DiscreteClock
variable {clock : DiscreteClock} {newTime : Int} {sendUpdateBeforeAfter : Bool}

def resetTo (clock : DiscreteClock) : ClockCall → Option Int
  | .setResetTime newTime => some newTime
  | .setNewTime newTime _ => if clock.updated = false ∨ newTime < clock.currentTime then some newTime else none

theorem setNewTime_update (hsink : clock.eventSink = true) (hupdated : clock.updated = true)
    (hle : clock.currentTime ≤ newTime) (sendUpdateBeforeAfter : Bool) :
    clock.setNewTime newTime sendUpdateBeforeAfter = ({clock with currentTime := newTime},
        (if sendUpdateBeforeAfter then [.timeUpdateBegin clock.currentTime newTime] else []) ++
          .timeUpdating newTime::if sendUpdateBeforeAfter then [.timeUpdateEnd newTime] else []) := by
  rw [setNewTime,if_neg (not_not_intro hupdated),if_neg (Int.not_lt.mpr hle),emit,if_pos hsink]

theorem apply_reset (hsink : clock.eventSink = true) {call : ClockCall} (h : clock.resetTo call = some newTime) :
    (call.apply clock).1.currentTime = newTime ∧ (call.apply clock).1.eventSink = true ∧
      (call.apply clock).2 = [.timeResetBegin clock.currentTime newTime,.timeResetEnd newTime] := by
  cases call with
  | setResetTime time =>
    cases h
    exact ⟨rfl,hsink,if_pos hsink⟩
  | setNewTime time sends =>
    rw [resetTo] at h
    split at h
    · rename_i hreset
      cases h
      unfold ClockCall.apply setNewTime
      dsimp only
      split
      · exact ⟨rfl,hsink,if_pos hsink⟩
      · rename_i hupdated
        rw [if_pos (hreset.resolve_left (by simpa using hupdated))]
        exact ⟨rfl,hsink,if_pos hsink⟩
    · cases h

theorem update_of_resetTo_none {call : ClockCall} (h : clock.resetTo call = none) :
    ∃ newTime sends, call = .setNewTime newTime sends ∧ clock.updated = true ∧ clock.currentTime ≤ newTime := by
  cases call with
  | setResetTime time => cases h
  | setNewTime time sends =>
    rw [resetTo] at h
    split at h
    · cases h
    · rename_i hupdate
      obtain ⟨hupdated,hle⟩ := not_or.mp hupdate
      exact ⟨time,sends,rfl,by simpa using hupdated,Int.not_lt.mp hle⟩

end DiscreteClock

namespace ClockSynchronization
variable {strings : TimeStrings} {s s' : ClockSynchronization} {call : ClockCall} {newTime : Int}

/-- The slave has reported the updates and resets of the master, and since the first shows its time. -/
structure Follows (s : ClockSynchronization) : Prop where
  same_changes : changes s.slaveEvents = changes s.masterEvents
  same_time : s.masterEvents ≠ [] → s.slave.clock.currentTime = s.master.currentTime

def ResetsToZero (s : ClockSynchronization) (call : ClockCall) : Prop :=
  ∀ newTime ∈ s.master.resetTo call, newTime = 0 ∧ s.master.currentTime ≠ 0

instance (s : ClockSynchronization) (call : ClockCall) : Decidable (s.ResetsToZero call) :=
  inferInstanceAs (Decidable (∀ newTime ∈ _, _))

/-- Both clocks are running, and the slave is registered and not ahead. -/
structure Coupled (s : ClockSynchronization) : Prop where
  masterSink : s.master.eventSink = true
  slaveSink : s.slave.clock.eventSink = true
  slaveUpdated : s.slave.clock.updated = true
  registered : s.clockMaster.slaves s.name = some ⟨true,getEventIDFlags s.slave.beforeAndAfterEvent⟩
  nonneg : 0 ≤ s.master.currentTime
  inRange : s.master.currentTime < 2 ^ 63
  behind : s.slave.clock.currentTime ≤ s.master.currentTime

theorem isSet_iff (beforeAndAfterEvent : Bool) (eventId : EventID) :
    (⟨true,getEventIDFlags beforeAndAfterEvent⟩ : ClockSlave).isSet eventId = true ↔
      beforeAndAfterEvent = true ∨ eventId = .timeUpdating ∨ eventId = .timeReset := by
  cases beforeAndAfterEvent <;> cases eventId <;> decide

theorem Coupled.sendTo (h : s.Coupled) (event : TimeEvent) : s.clockMaster.sendTo s.name event =
    if s.slave.beforeAndAfterEvent = true ∨ event.eventId = .timeUpdating ∨ event.eventId = .timeReset then [event]
    else [] := by
  rw [ClockMaster.sendTo,h.registered]
  simp only [isSet_iff]

/-- The slave after what it is sent for some events of the master, and what it reports then. -/
def receive (strings : TimeStrings) (s : ClockSynchronization) (events : List ClockEvent) :
    MasterOnDemandClockDiscrete × List ClockEvent :=
  s.slave.syncAll strings (events.flatMap (s.clockMaster.handle strings s.name))

theorem toInt64_toString (h0 : 0 ≤ newTime) (hlt : newTime < 2 ^ 63) :
    strings.toInt64 (strings.toString newTime) = newTime :=
  strings.toInt64_toString newTime (by omega) hlt

theorem receive_reset (h : s.Coupled) (h0 : 0 ≤ newTime) (hlt : newTime < 2 ^ 63) :
    s.receive strings [.timeResetBegin s.master.currentTime newTime,.timeResetEnd newTime] =
      if newTime = s.master.currentTime then (s.slave,[])
      else s.slave.withClock s.slave.clock.reset := by
  have hnew : strings.toInt64 (strings.toString newTime) = newTime := toInt64_toString h0 hlt
  have hold : strings.toInt64 (strings.toString s.master.currentTime) = s.master.currentTime :=
    toInt64_toString h.nonneg h.inRange
  simp only [receive,List.flatMap_cons,List.flatMap_nil,ClockMaster.handle,h.sendTo,or_true,if_true,
    List.append_nil,MasterOnDemandClockDiscrete.syncAll,MasterOnDemandClockDiscrete.syncTimeEvent,
    MasterOnDemandClockDiscrete.masterTimeEvent,hnew,hold,ite_not]

theorem receive_update (h : s.Coupled) (h0 : 0 ≤ newTime) (hlt : newTime < 2 ^ 63)
    (hle : s.slave.clock.currentTime ≤ newTime) (oldTime : Int) (sends : Bool) :
    (s.receive strings ((if sends then [.timeUpdateBegin oldTime newTime] else []) ++
        .timeUpdating newTime::if sends then [.timeUpdateEnd newTime] else [])).1 =
      {s.slave with clock := {s.slave.clock with currentTime := newTime}} ∧
    changes (s.receive strings ((if sends then [.timeUpdateBegin oldTime newTime] else []) ++
        .timeUpdating newTime::if sends then [.timeUpdateEnd newTime] else [])).2 = [.update newTime] := by
  have hnew : strings.toInt64 (strings.toString newTime) = newTime := toInt64_toString h0 hlt
  have hset := setNewTime_update h.slaveSink h.slaveUpdated hle
  cases hboth : s.slave.beforeAndAfterEvent <;> cases sends <;>
    simp [receive,ClockMaster.handle,h.sendTo,hboth,MasterOnDemandClockDiscrete.syncAll,
      MasterOnDemandClockDiscrete.syncTimeEvent,MasterOnDemandClockDiscrete.masterTimeEvent,hnew,hset,
      MasterOnDemandClockDiscrete.withClock,changes,List.filterMap_cons,ClockEvent.change,DiscreteClock.emit,
      h.slaveSink]

theorem step_eq (hstep : s.step strings call = some s') : validTime call = true ∧ s' = { s with
      master := (call.apply s.master).1
      slave := (s.receive strings (call.apply s.master).2).1
      masterEvents := s.masterEvents ++ (call.apply s.master).2
      slaveEvents := s.slaveEvents ++ (s.receive strings (call.apply s.master).2).2 } := by
  unfold step at hstep
  split at hstep
  · rename_i hvalid
    exact ⟨hvalid,(Option.some.inj hstep).symm⟩
  · cases hstep

theorem validTime_resetTo {clock : DiscreteClock} (h : clock.resetTo call = some newTime)
    (hvalid : validTime call = true) : 0 ≤ newTime ∧ newTime < 2 ^ 63 := by
  cases call with
  | setResetTime time =>
    cases h
    simpa [validTime] using hvalid
  | setNewTime time sends =>
    rw [DiscreteClock.resetTo] at h
    split at h
    · cases h
      simpa [validTime] using hvalid
    · cases h

theorem Coupled.step_update (h : s.Coupled) (hnone : s.master.resetTo call = none)
    (hstep : s.step strings call = some s') : s'.Coupled ∧ s'.slave.clock.currentTime = s'.master.currentTime ∧
      ∃ newTime, changes s'.slaveEvents = changes s.slaveEvents ++ [.update newTime] ∧
        changes s'.masterEvents = changes s.masterEvents ++ [.update newTime] := by
  obtain ⟨newTime,sends,rfl,hupdated,hle⟩ := update_of_resetTo_none hnone
  obtain ⟨hvalid,rfl⟩ := step_eq hstep
  obtain ⟨h0,hlt⟩ : 0 ≤ newTime ∧ newTime < 2 ^ 63 := by simpa [validTime] using hvalid
  have happly := setNewTime_update h.masterSink hupdated hle sends
  obtain ⟨hslave,hchanges⟩ := @receive_update strings s newTime h h0 hlt (Int.le_trans h.behind hle)
    s.master.currentTime sends
  have hevents : changes ((if sends then [.timeUpdateBegin s.master.currentTime newTime] else []) ++
      .timeUpdating newTime::if sends then [.timeUpdateEnd newTime] else []) = [.update newTime] := by
    cases sends <;> rfl
  have hmaster : (ClockCall.setNewTime newTime sends).apply s.master = s.master.setNewTime newTime sends := rfl
  simp only [hmaster,happly,hslave,changes_append,hchanges,hevents]
  exact ⟨⟨h.masterSink,h.slaveSink,h.slaveUpdated,h.registered,h0,hlt,Int.le_refl _⟩,trivial,newTime,rfl,rfl⟩

theorem Coupled.step_reset (h : s.Coupled) (hreset : s.master.resetTo call = some newTime)
    (hstep : s.step strings call = some s') : s'.Coupled ∧ s'.master.currentTime = newTime ∧ s'.masterEvents ≠ [] ∧
      changes s'.masterEvents = changes s.masterEvents ++ [.reset newTime] ∧
      if newTime = s.master.currentTime then changes s'.slaveEvents = changes s.slaveEvents
      else s'.slave.clock.currentTime = 0 ∧ changes s'.slaveEvents = changes s.slaveEvents ++ [.reset 0] := by
  obtain ⟨hvalid,rfl⟩ := step_eq hstep
  obtain ⟨h0,hlt⟩ := validTime_resetTo hreset hvalid
  obtain ⟨htime,hsink,hevents⟩ := apply_reset h.masterSink hreset
  have hreceive := @receive_reset strings s newTime h h0 hlt
  by_cases hsame : newTime = s.master.currentTime
  · rw [if_pos hsame] at hreceive ⊢
    simp only [hevents,hreceive,htime,changes_append]
    refine ⟨⟨hsink,h.slaveSink,h.slaveUpdated,h.registered,?_,?_,?_⟩,trivial,by simp,rfl,by simp [changes]⟩
    · rw [htime]
      exact h0
    · rw [htime]
      exact hlt
    · rw [htime,hsame]
      exact h.behind
  · rw [if_neg hsame] at hreceive ⊢
    have hslave : s.slave.clock.reset.2 = [.timeResetBegin s.slave.clock.currentTime 0,.timeResetEnd 0] :=
      if_pos h.slaveSink
    simp only [hevents,hreceive,htime,changes_append,MasterOnDemandClockDiscrete.withClock,hslave]
    refine ⟨⟨hsink,h.slaveSink,rfl,h.registered,?_,?_,?_⟩,trivial,by simp,rfl,rfl,rfl⟩
    · rw [htime]
      exact h0
    · rw [htime]
      exact hlt
    · rw [htime]
      exact h0

theorem Coupled.follows_step_iff (h : s.Coupled) (hfollows : s.Follows) (hstep : s.step strings call = some s') :
    s'.Follows ↔ s.ResetsToZero call := by
  unfold ResetsToZero
  cases hreset : s.master.resetTo call with
  | none =>
    obtain ⟨-,htime,newTime,hslave,hmaster⟩ := h.step_update hreset hstep
    refine iff_of_true ⟨?_,fun _ => htime⟩ nofun
    rw [hslave,hmaster,hfollows.same_changes]
  | some newTime =>
    obtain ⟨-,htime,hevents,hmaster,hslave⟩ := h.step_reset hreset hstep
    have hall : (∀ time ∈ some newTime, time = 0 ∧ s.master.currentTime ≠ 0) ↔
        newTime = 0 ∧ s.master.currentTime ≠ 0 := by simp
    rw [hall]
    constructor
    · intro hfollows'
      have hchanges := hfollows'.same_changes
      rw [hmaster] at hchanges
      split at hslave
      · rw [hslave,hfollows.same_changes] at hchanges
        simp at hchanges
      · rename_i hother
        rw [hslave.2,hfollows.same_changes] at hchanges
        obtain rfl : newTime = 0 := by simpa [eq_comm] using hchanges
        exact ⟨rfl,fun hzero => hother hzero.symm⟩
    · rintro ⟨rfl,hne⟩
      rw [if_neg (Ne.symm hne)] at hslave
      refine ⟨?_,fun _ => ?_⟩
      · rw [hslave.2,hmaster,hfollows.same_changes]
      · rw [hslave.1,htime]

/-- The invariant of the runs in which every reset goes to zero. -/
structure FollowingInv (s : ClockSynchronization) : Prop where
  coupled : s.Coupled
  follows : s.Follows

private theorem Coupled.step (h : s.Coupled) (hstep : s.step strings call = some s') : s'.Coupled := by
  cases hreset : s.master.resetTo call with
  | none => exact (h.step_update hreset hstep).1
  | some newTime => exact (h.step_reset hreset hstep).1

/-- As long as the master is only reset to zero, and not from zero, the slave follows its clock; the first
other reset is not followed. -/
theorem slave_follows_master_iff (strings : TimeStrings) (master : DiscreteClock) (clockMaster : ClockMaster)
    (name : String) (beforeAndAfterEvent : Bool) (hrunning : master.eventSink = true)
    (hnonneg : 0 ≤ master.currentTime) (hrange : master.currentTime < 2 ^ 63) (s : ClockSynchronization)
    (h : Reaches (step strings) ResetsToZero (create master clockMaster name beforeAndAfterEvent) s) :
    s.Follows ∧ ∀ (call : ClockCall) (s' : ClockSynchronization), s.step strings call = some s' →
      (s'.Follows ↔ s.ResetsToZero call) := by
  have hcreate : FollowingInv (create master clockMaster name beforeAndAfterEvent) := by
    refine ⟨⟨hrunning,rfl,rfl,?_,hnonneg,hrange,hnonneg⟩,rfl,fun hne => absurd rfl hne⟩
    exact Function.update_self _ _ _
  have hinv : FollowingInv s := h.invariant hcreate fun _ _ _ ht hresets hstep =>
    ⟨ht.coupled.step hstep,(ht.coupled.follows_step_iff ht.follows hstep).mpr hresets⟩
  exact ⟨hinv.follows,fun call s' hstep => hinv.coupled.follows_step_iff hinv.follows hstep⟩

private def runningMaster : DiscreteClock := ⟨20,true,true,true⟩

theorem slave_follows_master_through_zero : ∃ s : ClockSynchronization,
    Reaches (step .decimal) ResetsToZero (create runningMaster .new "slave" true) s ∧ s.Follows ∧
      s.slave.clock.currentTime = 7 ∧ changes s.slaveEvents = [.update 30,.reset 0,.update 7] := by
  obtain ⟨s,hreach,hshows⟩ : ∃ s, Reaches (step .decimal) ResetsToZero (create runningMaster .new "slave" true) s ∧
      s.slave.clock.currentTime = 7 ∧ changes s.slaveEvents = [.update 30,.reset 0,.update 7] :=
    exists_of_runAllowed [.setNewTime 30 true,.setResetTime 0,.setNewTime 7 false] (by decide +kernel)
  have hfollows := slave_follows_master_iff .decimal runningMaster .new "slave" true rfl (by decide)
    (by decide) s hreach
  exact ⟨s,hreach,hfollows.1,hshows⟩

/-- A reset to 10 leaves the slave at 0. -/
theorem slave_reset_to_zero_instead : ∃ s : ClockSynchronization,
    Reaches (step .decimal) anyAction (create runningMaster .new "slave" false) s ∧ s.master.currentTime = 10 ∧
      s.slave.clock.currentTime = 0 ∧ ¬s.Follows := by
  obtain ⟨s,hreach,hleft⟩ : ∃ s, Reaches (step .decimal) anyAction (create runningMaster .new "slave" false) s ∧
      s.master.currentTime = 10 ∧ s.slave.clock.currentTime = 0 ∧ s.masterEvents ≠ [] :=
    exists_of_runActions [.setResetTime 10] (by decide +kernel)
  obtain ⟨hmaster,hslave,hevents⟩ := hleft
  refine ⟨s,hreach,hmaster,hslave,fun hfollows => ?_⟩
  have htime := hfollows.same_time hevents
  rw [hmaster,hslave] at htime
  exact absurd htime (by decide)

end ClockSynchronization

end FepParticipant.Clock
