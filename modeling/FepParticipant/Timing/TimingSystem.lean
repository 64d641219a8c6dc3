import FepParticipant.Timing.ScheduleTable
import FepParticipant.Timing.TimingMaster
import FepParticipant.Library.Reachability

/-! Everything one step of the timing master's worker thread can do, and why it may
go on to the next schedule. -/
namespace FepParticipant.Timing
open Library CountingSemaphore Option

/-- What is behind a worker position: `free` asks for no completion, `complete` has found the schedule complete. -/
def WorkerPosition.Justified (free complete : Prop) : WorkerPosition → Prop
  | .loopHead false | .iteration false => free
  | .innerHead | .innerIteration => complete
  | .loopHead true | .iteration true | .finished => True

namespace TimingMaster

variable {S : Type} [CountingSemaphore S]

def Complete (master : TimingMaster S) : Prop := master.scheduleMap.isCurrentScheduleComplete = some true

/-- The outcomes of a worker step: it moves on inside its loops, or runs `DoNextSchedule`, which takes a tick and a
completion where the mode asks for them. -/
inductive WorkerCase (master : TimingMaster S) : TimingMaster S → WorkerEvent → Prop
  | moved {mode : TriggerMode} {position position' : WorkerPosition} {completition : S} :
      master.workerThread = some ⟨mode,position⟩ →
      (mode.needToWaitForCompletition = true → ∀ free : Prop,
        position.Justified free master.Complete → position'.Justified free master.Complete) →
      WorkerCase master
        {master with completitionBarrier := completition, workerThread := some ⟨mode,position'⟩} .idle
  | executed {mode : TriggerMode} {position : WorkerPosition} {tick completition : S}
      {next : TimingMaster S} {sent : Option TriggerTick} {need : Bool} :
      master.workerThread = some ⟨mode,position⟩ →
      (mode.needToWaitForTrigger = true → count master.tickBarrier = count tick + 1) →
      (mode.needToWaitForCompletition = true → ∀ free : Prop,
        position.Justified free master.Complete → free ∨ master.Complete) →
      doNextSchedule {master with tickBarrier := tick, completitionBarrier := completition} =
        some (next,sent,need) →
      WorkerCase master (next.setPosition mode (.loopHead (mode.needToWaitForCompletition && need)))
        (.executed sent)

variable {master master' : TimingMaster S} {mode : TriggerMode} {position : WorkerPosition}
  {event : WorkerEvent}

theorem waitForTick_cases {retry : WorkerPosition} (h : master.waitForTick mode retry = some (master',event))
    (hworker : master.workerThread = some ⟨mode,position⟩)
    (hretry : mode.needToWaitForCompletition = true → ∀ free : Prop,
      position.Justified free master.Complete → retry.Justified free master.Complete)
    (hgo : mode.needToWaitForCompletition = true → ∀ free : Prop,
      position.Justified free master.Complete → free ∨ master.Complete) : WorkerCase master master' event := by
  unfold waitForTick at h
  split at h
  · cases h
    exact .moved hworker hretry
  · rename_i barrier hwait
    obtain ⟨⟨next,sent,need⟩,hnext,heq⟩ := map_eq_some_iff.mp h
    cases heq
    exact .executed hworker (fun _ => count_of_tryWait hwait) hgo hnext

private theorem waitForCompletition_cases {complete : TimingMaster S → Option (TimingMaster S × WorkerEvent)}
    (hworker : master.workerThread = some ⟨mode,.iteration true⟩) (hcomplete : ∀ barrier, master.Complete →
      complete {master with completitionBarrier := barrier} = some (master',event) →
      WorkerCase master master' event)
    (h : master.waitForCompletition mode complete = some (master',event)) :
    WorkerCase master master' event := by
  unfold waitForCompletition at h
  split at h
  · cases h
    exact .moved hworker fun _ _ _ => trivial
  · rename_i barrier _
    obtain ⟨isComplete,hisComplete,h⟩ := bind_eq_some_iff.mp h
    cases isComplete with
    | true => exact hcomplete barrier hisComplete (by simpa using h)
    | false =>
      cases h
      exact .moved hworker fun _ _ _ => trivial

theorem threadFunc_cases (h : master.threadFunc = some (master',event)) : WorkerCase master master' event := by
  unfold threadFunc at h
  split at h
  · cases h
  · rename_i mode position hworker
    cases position with
    | finished => cases h
    | loopHead needToWait =>
      simp only at h
      split at h
      · cases h
        exact .moved hworker fun _ _ _ => trivial
      · cases h
        refine .moved hworker fun _ free hj => ?_
        cases needToWait <;> exact hj
    | innerHead =>
      simp only at h
      split at h
      · cases h
        exact .moved hworker fun _ _ _ => trivial
      · cases h
        exact .moved hworker fun _ _ hj => hj
    | innerIteration => exact waitForTick_cases h hworker (fun _ _ hj => hj) fun _ _ hj => .inr hj
    | iteration needToWait =>
      cases mode with
      | systemTime =>
        cases needToWait with
        | true =>
          simp only [if_true] at h
          refine waitForCompletition_cases hworker (fun barrier hcomplete hnext => ?_) h
          cases hnext
          exact .moved hworker fun _ _ _ => hcomplete
        | false => exact waitForTick_cases h hworker (fun _ _ hj => hj) fun _ _ hj => .inl hj
      | afap =>
        cases needToWait with
        | true =>
          simp only [if_true] at h
          refine waitForCompletition_cases hworker (fun barrier hcomplete hrun => ?_) h
          obtain ⟨⟨next,sent,need⟩,hnext,heq⟩ := map_eq_some_iff.mp hrun
          cases heq
          exact .executed hworker (fun htrigger => by cases htrigger) (fun _ _ _ => .inr hcomplete) hnext
        | false =>
          obtain ⟨⟨next,sent,need⟩,hnext,heq⟩ := map_eq_some_iff.mp h
          cases heq
          exact .executed hworker (fun htrigger => by cases htrigger) (fun _ _ hj => .inl hj) hnext
      | userImplementation => exact waitForTick_cases h hworker (fun hc => by cases hc) fun hc => by cases hc
      | externalClock => exact waitForTick_cases h hworker (fun hc => by cases hc) fun hc => by cases hc

end TimingMaster

/-- A tick the master has sent, with the run and the execution it belongs to. -/
structure SentTick where
  run : Nat
  execution : Nat
  tick : TriggerTick
  slot : ScheduleItem

/-- An acknowledgement a task has sent, with the tick it answers. -/
structure AckMessage where
  run : Nat
  execution : Nat
  ack : TriggerAck

/-- The master and the history of the messages; `executions`, `triggers` and `firstTick` are
those since the latest `start`. -/
structure TimingSystem (S : Type) where
  master : TimingMaster S
  run : Nat
  executions : Nat
  triggers : List Int
  firstTick : Option TriggerTick
  ticks : List SentTick
  acks : List AckMessage
  counted : List (AckMessage × Nat × Nat)

inductive TimingAction where
  | configure (props : MasterProperties) (userStepTrigger : Bool) (transmission : Result)
  | start (context : StartContext)
  | stop
  | joinWorker
  | reset
  | updateSchedule (scheduleList : List ScheduleConfig)
  | internalTrigger (triggerTime : Int)
  | threadFunc
  | checkAckTimeout
  | sendAck (tick : Nat) (uuid : String) (operationalTime : Int)
  | updateAck (message : Nat)

/-- The acknowledgement would be counted for the current schedule. -/
def TimingMaster.countsAck {S : Type} (master : TimingMaster S) (uuid : String) : Bool :=
  (master.scheduleMap.markStepForCurrentSchedule uuid).any Prod.snd

namespace TimingSystem

variable {S : Type} [CountingSemaphore S]

def new : TimingSystem S := ⟨.new,0,0,[],none,[],[],[]⟩

def book (s : TimingSystem S) (master : TimingMaster S) : WorkerEvent → TimingSystem S
  | .idle => {s with master := master}
  | .executed tick =>
    { s with
      master := master
      executions := s.executions + 1
      firstTick := s.firstTick.or tick
      ticks := s.ticks ++ match tick, master.scheduleMap.currentItem with
        | some tick, some slot => [⟨s.run,s.executions,tick,slot⟩]
        | _, _ => [] }

def acknowledge (s : TimingSystem S) (tick : SentTick) (uuid : String) (operationalTime : Int) :
    Option (TimingSystem S) :=
  if tick.slot.Awaits uuid ∧ uuid.length = 36 then
    some { s with
      acks := s.acks ++ [⟨tick.run,tick.execution,⟨uuid,operationalTime,tick.tick.currentTime⟩⟩] }
  else none

/-- Deliver an acknowledgement; it stays in flight and may be delivered again. -/
def deliverAck (s : TimingSystem S) (message : AckMessage) : Option (TimingSystem S) :=
  (s.master.updateAck message.ack).map fun master =>
    { s with
      master := master
      counted := if s.master.countsAck message.ack.uuidStr then
        s.counted ++ [(message,s.run,s.executions)] else s.counted }

/-- One call, trigger, worker step or message. `start` is only called after the worker thread
of the previous run was joined. -/
def step (s : TimingSystem S) : TimingAction → Option (TimingSystem S)
  | .configure props userStepTrigger transmission =>
    (s.master.configure props userStepTrigger transmission).map fun r => {s with master := r.1}
  | .start context =>
    if s.master.workerThread.isSome then none
    else (s.master.start context).map fun r =>
      {s with master := r.1, run := s.run + 1, executions := 0, triggers := [], firstTick := none}
  | .stop => some {s with master := s.master.stop}
  | .joinWorker => s.master.joinWorker.map fun master => {s with master := master}
  | .reset => some {s with master := s.master.reset}
  | .updateSchedule scheduleList => some {s with master := s.master.updateSchedule scheduleList}
  | .internalTrigger triggerTime =>
    some { s with
      master := s.master.internalTrigger triggerTime
      triggers := s.triggers ++ [triggerTime] }
  | .threadFunc => s.master.threadFunc.map fun r => s.book r.1 r.2
  | .checkAckTimeout => some {s with master := s.master.checkAckTimeout.1}
  | .sendAck tick uuid operationalTime => s.ticks[tick]?.bind fun tick => s.acknowledge tick uuid operationalTime
  | .updateAck message => s.acks[message]?.bind s.deliverAck

/-- What a lifecycle call other than `start` leaves alone. -/
structure SameRun (master other : TimingMaster S) : Prop where
  map : other.scheduleMap = master.scheduleMap
  initial : other.isInitialScheduleFlag = master.isInitialScheduleFlag
  time : other.currentTime = master.currentTime
  tick : other.tickBarrier = master.tickBarrier
  worker : other.workerThread = none ∨ other.workerThread = master.workerThread

namespace SameRun

variable {master other : TimingMaster S}

section
omit [CountingSemaphore S]

theorem of_fields (hmap : other.scheduleMap = master.scheduleMap)
    (hinitial : other.isInitialScheduleFlag = master.isInitialScheduleFlag)
    (htime : other.currentTime = master.currentTime) (htick : other.tickBarrier = master.tickBarrier)
    (hworker : other.workerThread = master.workerThread) : SameRun master other :=
  ⟨hmap,hinitial,htime,htick,.inr hworker⟩

theorem trans {third : TimingMaster S} (h : SameRun master other) (k : SameRun other third) :
    SameRun master third := by
  refine ⟨k.map.trans h.map,k.initial.trans h.initial,k.time.trans h.time,k.tick.trans h.tick,?_⟩
  rcases k.worker with hk | hk
  · exact .inl hk
  · rw [hk]
    exact h.worker

private theorem configureAckTimeout (master : TimingMaster S) (clientTimeout : Option Int) :
    SameRun master (master.configureAckTimeout clientTimeout).1 := by
  unfold TimingMaster.configureAckTimeout
  split
  · exact of_fields rfl rfl rfl rfl rfl
  · split
    · exact of_fields rfl rfl rfl rfl rfl
    · exact of_fields rfl rfl rfl rfl rfl

private theorem configureTriggerMode (master : TimingMaster S) (props : MasterProperties) (user : Bool) :
    SameRun master (master.configureTriggerMode props user).1 := by
  have huse (mode : TriggerMode) : SameRun master (TimingMaster.configureAckTimeout
      {master with stepTriggerStrategy := some (.new mode)} props.clientTimeout).1 := by
    have hsame : SameRun master {master with stepTriggerStrategy := some (.new mode)} := of_fields rfl rfl rfl rfl rfl
    exact hsame.trans (configureAckTimeout _ props.clientTimeout)
  simp only [TimingMaster.configureTriggerMode]
  split
  · exact of_fields rfl rfl rfl rfl rfl
  · split
    · exact huse .afap
    · split
      · exact huse .systemTime
      · split
        · split
          · exact of_fields rfl rfl rfl rfl rfl
          · exact of_fields rfl rfl rfl rfl rfl
        · split
          · exact of_fields rfl rfl rfl rfl rfl
          · exact of_fields rfl rfl rfl rfl rfl

theorem configure {props : MasterProperties} {user : Bool} {transmission : Result}
    {r : TimingMaster S × Result × String}
    (h : master.configure props user transmission = some r) : SameRun master r.1 := by
  simp only [TimingMaster.configure] at h
  split at h
  · cases h
    exact of_fields rfl rfl rfl rfl rfl
  · cases h
    exact of_fields rfl rfl rfl rfl rfl
  · cases h
  · rename_i participant element _ _
    split at h
    · generalize hflagged : ({ master with scheduleConfigs := .empty
                                           isTimingMasterFlag := decide (participant ≠ "" ∧ participant = element) } :
          TimingMaster S) = flagged at h
      have hsame : SameRun master flagged := hflagged ▸ of_fields rfl rfl rfl rfl rfl
      have hall := hsame.trans (configureTriggerMode flagged props user)
      split at h
      · rename_i heq
        cases h
        rwa [heq] at hall
      · cases h
        exact hall
    · cases h
      exact of_fields rfl rfl rfl rfl rfl

theorem reset (master : TimingMaster S) : SameRun master master.reset := by
  unfold TimingMaster.reset
  split
  · exact of_fields rfl rfl rfl rfl rfl
  · exact of_fields rfl rfl rfl rfl rfl

end

theorem stop (master : TimingMaster S) : SameRun master master.stop := by
  unfold TimingMaster.stop
  split
  · exact of_fields rfl rfl rfl rfl rfl
  · exact of_fields rfl rfl rfl rfl rfl

theorem joinWorker (h : master.joinWorker = some other) : SameRun master other := by
  unfold TimingMaster.joinWorker at h
  split at h
  · cases h
    exact ⟨rfl,rfl,rfl,rfl,.inl rfl⟩
  · cases h

end SameRun

/-- The kinds of steps: a lifecycle call, the start of a run, a trigger, a worker step, an acknowledgement sent or
delivered. -/
inductive StepCase (s : TimingSystem S) : TimingAction → TimingSystem S → Prop
  | lifecycle {action : TimingAction} {master : TimingMaster S} : SameRun s.master master →
      StepCase s action {s with master := master}
  | start {context : StartContext} {master : TimingMaster S} {result : Result} {effects : List Effect} :
      s.master.workerThread = none → s.master.start context = some (master,result,effects) →
      StepCase s (.start context)
        {s with master := master, run := s.run + 1, executions := 0, triggers := [], firstTick := none}
  | trigger {triggerTime : Int} :
      StepCase s (.internalTrigger triggerTime)
        {s with master := s.master.internalTrigger triggerTime, triggers := s.triggers ++ [triggerTime]}
  | worker {master : TimingMaster S} {event : WorkerEvent} : s.master.WorkerCase master event →
      StepCase s .threadFunc (s.book master event)
  | sent {action : TimingAction} {message : AckMessage} :
      StepCase s action {s with acks := s.acks ++ [message]}
  | delivered {n : Nat} {message : AckMessage} {map : ScheduleMap} {marked : Bool}
      {master : TimingMaster S} : s.acks[n]? = some message →
      s.master.scheduleMap.markStepForCurrentSchedule message.ack.uuidStr = some (map,marked) →
      SameRun {s.master with scheduleMap := map} master →
      StepCase s (.updateAck n)
        { s with
          master := master
          counted := if marked then s.counted ++ [(message,s.run,s.executions)] else s.counted }

variable {s s' : TimingSystem S} {action : TimingAction}

private theorem deliverAck_cases {n : Nat} {message : AckMessage} (hmessage : s.acks[n]? = some message)
    (h : s.deliverAck message = some s') : StepCase s (.updateAck n) s' := by
  obtain ⟨master,hupdate,rfl⟩ := map_eq_some_iff.mp h
  obtain ⟨⟨map,marked⟩,hmark,rfl⟩ := map_eq_some_iff.mp hupdate
  have hcounts : s.master.countsAck message.ack.uuidStr = marked := by
    simp [TimingMaster.countsAck,hmark]
  rw [hcounts]
  exact .delivered hmessage hmark ⟨rfl,rfl,rfl,rfl,.inr rfl⟩

theorem step_cases (h : step s action = some s') : StepCase s action s' := by
  cases action with
  | configure props user transmission =>
    obtain ⟨r,hr,rfl⟩ := map_eq_some_iff.mp h
    exact .lifecycle (.configure hr)
  | start context =>
    simp only [step] at h
    split at h
    · cases h
    · rename_i hworker
      obtain ⟨⟨master,result,effects⟩,hstart,rfl⟩ := map_eq_some_iff.mp h
      exact .start (by simpa using hworker) hstart
  | stop =>
    cases h
    exact .lifecycle (.stop s.master)
  | joinWorker =>
    obtain ⟨master,hjoin,rfl⟩ := map_eq_some_iff.mp h
    exact .lifecycle (.joinWorker hjoin)
  | reset =>
    cases h
    exact .lifecycle (.reset s.master)
  | updateSchedule scheduleList =>
    cases h
    exact .lifecycle ⟨rfl,rfl,rfl,rfl,.inr rfl⟩
  | internalTrigger triggerTime =>
    cases h
    exact .trigger
  | threadFunc =>
    obtain ⟨⟨master,event⟩,hworker,rfl⟩ := map_eq_some_iff.mp h
    exact .worker (TimingMaster.threadFunc_cases hworker)
  | checkAckTimeout =>
    cases h
    exact .lifecycle ⟨rfl,rfl,rfl,rfl,.inr rfl⟩
  | sendAck tick uuid operationalTime =>
    obtain ⟨tick,-,hacknowledge⟩ := bind_eq_some_iff.mp h
    unfold acknowledge at hacknowledge
    split at hacknowledge
    · cases hacknowledge
      exact .sent
    · cases hacknowledge
  | updateAck n =>
    obtain ⟨message,hmessage,hdeliver⟩ := bind_eq_some_iff.mp h
    exact deliverAck_cases hmessage hdeliver

/-- Configure a master in system time mode with one task of cycle 10 and start a run. -/
def configureAndStart (uuid : String) : List TimingAction :=
  [.configure ⟨some "Master",some "Master",some "SYSTEM_TIME",none⟩ false .errNoError,
    .start ⟨1000,[⟨uuid,10⟩],none,.errNoError⟩]

/-- Stop a run whose worker stands at the head of its loop, and reset the master. -/
def stopAndReset : List TimingAction := [.stop,.threadFunc,.joinWorker,.reset]

def taskUuid : String := "0f8fad5b-d9cb-469f-a165-70867728950e"

end TimingSystem
end FepParticipant.Timing
