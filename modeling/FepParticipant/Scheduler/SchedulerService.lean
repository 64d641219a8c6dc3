import FepParticipant.Scheduler.LockedStepScheduler

/-! The scheduler service: its lists of schedulers and jobs, the current scheduler, and the compatibility mode
of the jobs. -/
namespace FepParticipant.Scheduler
open Library List Option

/-- A scheduler; its name stays as it is. -/
structure IScheduler where
  address : Nat
  name : String

structure ListedJob where
  address : Nat
  name : String
  config : JobConfiguration

/-- The job objects: which of them are a `fep::Job`. -/
abbrev JobTypes := Nat → Bool

/-- The service, with the mode of each job object that is a `fep::Job`. -/
structure LocalSchedulerService where
  localClockBasedScheduler : IScheduler
  schedulers : List IScheduler
  currentScheduler : Option IScheduler
  started : Bool
  jobs : List ListedJob
  fep22Compatibility : Nat → Bool

/-- The properties `ready` reads. -/
structure ReadyProperties where
  fep22CompatibilityModeEnabled : Bool
  scheduler : String

namespace LocalSchedulerService

/-- The service once it was created. -/
def new (localClockBasedScheduler : IScheduler) : LocalSchedulerService where
  localClockBasedScheduler := localClockBasedScheduler
  schedulers := [localClockBasedScheduler]
  currentScheduler := some localClockBasedScheduler
  started := false
  jobs := []
  fep22Compatibility _ := false

def findScheduler (service : LocalSchedulerService) (name : String) : Option IScheduler :=
  service.schedulers.find? (·.name == name)

def registerScheduler (service : LocalSchedulerService) (scheduler : IScheduler) : LocalSchedulerService × Result :=
  if service.started then (service,.errInvalidState)
  else if (service.findScheduler scheduler.name).isNone then
    ({service with schedulers := service.schedulers ++ [scheduler]},.errNoError)
  else (service,.errInvalidArg)

/-- No result where the name of a missing current scheduler is asked for. -/
def unregisterScheduler (service : LocalSchedulerService) (name : String) :
    Option (LocalSchedulerService × Result) :=
  if service.started then some (service,.errInvalidState)
  else if service.localClockBasedScheduler.name = name then some (service,.errInvalidArg)
  else if (service.findScheduler name).isSome then
    service.currentScheduler.map fun current =>
      ({ service with
          schedulers := service.schedulers.eraseP (·.name == name)
          currentScheduler := some (if current.name = name then service.localClockBasedScheduler else current) },
        .errNoError)
  else some (service,.errNotFound)

def setScheduler (service : LocalSchedulerService) (name : String) : LocalSchedulerService × Result :=
  match service.findScheduler name with
  | some scheduler => ({service with currentScheduler := some scheduler},.errNoError)
  | none => (service,.errNotFound)

def findJob (service : LocalSchedulerService) (name : String) : Option ListedJob :=
  service.jobs.find? (·.name == name)

def addJob (service : LocalSchedulerService) (job : ListedJob) : LocalSchedulerService × Result :=
  if (service.findJob job.name).isSome then (service,.errInvalidArg)
  else ({service with jobs := service.jobs ++ [job]},.errNoError)

def removeJob (service : LocalSchedulerService) (name : String) : LocalSchedulerService × Result :=
  if (service.findJob name).isSome then ({service with jobs := service.jobs.eraseP (·.name == name)},.errNoError)
  else (service,.errNotFound)

/-- The loop over the jobs ends at the first one that is no `fep::Job`. -/
def reconfigureEach (isFepJob : JobTypes) (fep22Compatibility : Nat → Bool) :
    List ListedJob → (Nat → Bool) × Result
  | [] => (fep22Compatibility,.errNoError)
  | job::jobs =>
    if isFepJob job.address then reconfigureEach isFepJob (Function.update fep22Compatibility job.address true) jobs
    else (fep22Compatibility,.errPointer)

def reconfigureJobsForCompatibilityMode (isFepJob : JobTypes) (service : LocalSchedulerService) :
    LocalSchedulerService × Result :=
  let (fep22Compatibility,result) := reconfigureEach isFepJob service.fep22Compatibility service.jobs
  ({service with fep22Compatibility},result)

/-- `ready` with the property tree, if there is one, and the result of the scheduler's own `initialize`. -/
def ready (isFepJob : JobTypes) (service : LocalSchedulerService) (propertyTree : Option ReadyProperties)
    (initialized : Result) : LocalSchedulerService × Result :=
  match propertyTree with
  | none => (service,.errPointer)
  | some properties =>
    let service :=
      if properties.fep22CompatibilityModeEnabled then (service.reconfigureJobsForCompatibilityMode isFepJob).1
      else service
    let (service,result) := service.setScheduler properties.scheduler
    if isFailed result then (service,result)
    else if isFailed initialized then (service,initialized)
    else (service,.errNoError)

def start (service : LocalSchedulerService) (started : Result) : Option (LocalSchedulerService × Result) :=
  service.currentScheduler.map fun _ => ({service with started := true},started)

def stop (service : LocalSchedulerService) (stopped : Result) : LocalSchedulerService × Result :=
  ({service with started := false},if service.currentScheduler.isSome then stopped else .errNoError)

/-- What the scheduler answers to `deinitialize` is dropped as well. -/
def deinitializing (service : LocalSchedulerService) (stopped : Result) : LocalSchedulerService × Result :=
  ((service.stop stopped).1,.errNoError)

end LocalSchedulerService

inductive SchedulerServiceCall where
  | registerScheduler (scheduler : IScheduler)
  | unregisterScheduler (name : String)
  | setScheduler (name : String)
  | addJob (job : ListedJob)
  | removeJob (name : String)
  | ready (propertyTree : Option ReadyProperties) (initialized : Result)
  | start (started : Result)
  | stop (stopped : Result)
  | deinitializing (stopped : Result)

/-- The service with the last `ready`, if it had no error: the mode that was set and the jobs of the run. -/
structure ObservedService where
  service : LocalSchedulerService
  prepared : Option (Bool × List ListedJob)

namespace ObservedService

def new (localClockBasedScheduler : IScheduler) : ObservedService := ⟨.new localClockBasedScheduler,none⟩

/-- The answer of the service to a call. -/
def respond (isFepJob : JobTypes) (service : LocalSchedulerService) :
    SchedulerServiceCall → Option (LocalSchedulerService × Result)
  | .registerScheduler scheduler => some (service.registerScheduler scheduler)
  | .unregisterScheduler name => service.unregisterScheduler name
  | .setScheduler name => some (service.setScheduler name)
  | .addJob job => some (service.addJob job)
  | .removeJob name => some (service.removeJob name)
  | .ready propertyTree initialized => some (service.ready isFepJob propertyTree initialized)
  | .start started => service.start started
  | .stop stopped => some (service.stop stopped)
  | .deinitializing stopped => some (service.deinitializing stopped)

def preparedBy (observed : ObservedService) (result : Result) : SchedulerServiceCall → Option (Bool × List ListedJob)
  | .ready propertyTree _ =>
    if isOk result then
      propertyTree.map fun properties => (properties.fep22CompatibilityModeEnabled,observed.service.jobs)
    else none
  | _ => observed.prepared

def step (isFepJob : JobTypes) (observed : ObservedService) (call : SchedulerServiceCall) : Option ObservedService :=
  (respond isFepJob observed.service call).map fun (service,result) => ⟨service,observed.preparedBy result call⟩

def UniqueNames (service : LocalSchedulerService) : Prop :=
  (service.schedulers.map IScheduler.name).Nodup ∧ (service.jobs.map ListedJob.name).Nodup

def CurrentRegistered (service : LocalSchedulerService) : Prop :=
  ∃ current ∈ service.currentScheduler, current ∈ service.schedulers

/-- Every job of the run works in the compatibility mode if and only if it was set. -/
def ModesRight (isFepJob : JobTypes) (observed : ObservedService) : Prop :=
  ∀ prepared ∈ observed.prepared, ∀ job ∈ prepared.2,
    (isFepJob job.address && observed.service.fep22Compatibility job.address) = prepared.1

/-- Nothing that an error must not change is changed. -/
structure Unchanged (before after : LocalSchedulerService) : Prop where
  schedulers : after.schedulers = before.schedulers
  jobs : after.jobs = before.jobs
  currentScheduler : after.currentScheduler = before.currentScheduler
  started : after.started = before.started

/-- The call is answered, and its answer keeps what is claimed of the service. -/
def Right (isFepJob : JobTypes) (observed : ObservedService) (call : SchedulerServiceCall) : Prop :=
  ∃ service result, respond isFepJob observed.service call = some (service,result) ∧
    UniqueNames service ∧ CurrentRegistered service ∧ (isFailed result = true → Unchanged observed.service service) ∧
    ModesRight isFepJob ⟨service,observed.preparedBy result call⟩

/-- What has to hold of a call in the state it is made in. -/
def Careful (isFepJob : JobTypes) (observed : ObservedService) : SchedulerServiceCall → Prop
  | .ready (some properties) initialized =>
    ∀ scheduler ∈ observed.service.findScheduler properties.scheduler,
      if isOk initialized then
        ∀ job ∈ observed.service.jobs,
          if properties.fep22CompatibilityModeEnabled then isFepJob job.address = true
          else (isFepJob job.address && observed.service.fep22Compatibility job.address) = false
      else observed.service.currentScheduler = some scheduler
  | .start started => isFailed started = true → observed.service.started = true
  | .stop stopped => isFailed stopped = true → observed.service.started = false
  | _ => True

theorem Unchanged.refl (service : LocalSchedulerService) : Unchanged service service := ⟨rfl,rfl,rfl,rfl⟩

end ObservedService

namespace LocalSchedulerService

/-- What holds of the service between two calls. -/
structure Inv (service : LocalSchedulerService) : Prop where
  unique : ObservedService.UniqueNames service
  current : ObservedService.CurrentRegistered service
  default : service.localClockBasedScheduler ∈ service.schedulers

variable {service : LocalSchedulerService} {name : String} {scheduler : IScheduler} {job : ListedJob}
  {result : Result} {isFepJob : JobTypes}

theorem findScheduler_eq_some (h : service.findScheduler name = some scheduler) :
    scheduler ∈ service.schedulers ∧ scheduler.name = name :=
  ⟨mem_of_find?_eq_some h,by simpa using find?_some h⟩

private theorem findScheduler_isSome_iff : (service.findScheduler name).isSome = true ↔
    name ∈ service.schedulers.map IScheduler.name := by
  simp [findScheduler,find?_isSome]

theorem findJob_isSome_iff : (service.findJob name).isSome = true ↔ name ∈ service.jobs.map ListedJob.name := by
  simp [findJob,find?_isSome]

theorem inv_new (localClockBasedScheduler : IScheduler) : (new localClockBasedScheduler).Inv where
  unique := ⟨nodup_singleton _,nodup_nil⟩
  current := ⟨_,rfl,mem_singleton_self _⟩
  default := mem_singleton_self _

/-- What every call but `ready` keeps, apart from the changes of the started state. -/
structure Kept (service : LocalSchedulerService) (answer : LocalSchedulerService × Result) : Prop where
  inv : answer.1.Inv
  modes : answer.1.fep22Compatibility = service.fep22Compatibility
  unchanged : isFailed answer.2 = true → ObservedService.Unchanged service answer.1

theorem Kept.refused (h : service.Inv) (result : Result) : Kept service (service,result) :=
  ⟨h,rfl,fun _ => .refl service⟩

theorem kept_registerScheduler (h : service.Inv) : Kept service (service.registerScheduler scheduler) := by
  unfold registerScheduler
  split
  · exact .refused h _
  split
  · rename_i hnew
    have hfresh : scheduler.name ∉ service.schedulers.map IScheduler.name := fun hmem => by
      rw [isNone_iff_eq_none] at hnew
      simpa [hnew] using findScheduler_isSome_iff.mpr hmem
    obtain ⟨current,hcurrent,hmem⟩ := h.current
    refine ⟨⟨⟨?_,h.unique.2⟩,⟨current,hcurrent,mem_append_left _ hmem⟩,mem_append_left _ h.default⟩,rfl,nofun⟩
    rw [map_append,map_singleton,nodup_append]
    refine ⟨h.unique.1,nodup_singleton _,fun _ hmem _ hsame => ?_⟩
    rw [mem_singleton.mp hsame]
    exact fun heq => hfresh (heq ▸ hmem)
  · exact .refused h _

private theorem mem_eraseScheduler (hmem : scheduler ∈ service.schedulers) (hother : scheduler.name ≠ name) :
    scheduler ∈ service.schedulers.eraseP (·.name == name) :=
  (mem_eraseP_of_neg (by simpa using hother)).mpr hmem

theorem kept_unregisterScheduler (h : service.Inv) :
    ∃ answer, service.unregisterScheduler name = some answer ∧ Kept service answer := by
  unfold unregisterScheduler
  split
  · exact ⟨_,rfl,.refused h _⟩
  split
  · exact ⟨_,rfl,.refused h _⟩
  rename_i hdefault
  split
  · obtain ⟨current,hcurrent,hmem⟩ := h.current
    rw [mem_def.mp hcurrent]
    have hkept := mem_eraseScheduler h.default hdefault
    refine ⟨_,rfl,⟨⟨?_,h.unique.2⟩,?_,hkept⟩,rfl,nofun⟩
    · exact h.unique.1.sublist ((eraseP_sublist ..).map IScheduler.name)
    · by_cases hname : current.name = name
      · exact ⟨_,by simp [hname],hkept⟩
      · exact ⟨current,by simp [hname],mem_eraseScheduler hmem hname⟩
  · exact ⟨_,rfl,.refused h _⟩

theorem kept_setScheduler (h : service.Inv) : Kept service (service.setScheduler name) := by
  unfold setScheduler
  split
  · rename_i scheduler hfound
    exact ⟨⟨h.unique,⟨scheduler,rfl,(findScheduler_eq_some hfound).1⟩,h.default⟩,rfl,nofun⟩
  · exact .refused h _

theorem kept_addJob (h : service.Inv) : Kept service (service.addJob job) := by
  unfold addJob
  split
  · exact .refused h _
  · rename_i hnew
    refine ⟨⟨⟨h.unique.1,?_⟩,h.current,h.default⟩,rfl,nofun⟩
    rw [map_append,map_singleton,nodup_append]
    refine ⟨h.unique.2,nodup_singleton _,fun _ hmem _ hsame => ?_⟩
    rw [mem_singleton.mp hsame]
    exact fun heq => hnew (findJob_isSome_iff.mpr (heq ▸ hmem))

theorem kept_removeJob (h : service.Inv) : Kept service (service.removeJob name) := by
  unfold removeJob
  split
  · exact ⟨⟨⟨h.unique.1,h.unique.2.sublist ((eraseP_sublist ..).map ListedJob.name)⟩,h.current,h.default⟩,
      rfl,nofun⟩
  · exact .refused h _

private theorem reconfigureEach_of_set {fep22Compatibility : Nat → Bool} {address : Nat} (jobs : List ListedJob)
    (h : fep22Compatibility address = true) : (reconfigureEach isFepJob fep22Compatibility jobs).1 address = true := by
  induction jobs generalizing fep22Compatibility with
  | nil => exact h
  | cons job jobs ih =>
    rw [reconfigureEach]
    split
    · refine ih ?_
      rw [Function.update_apply]
      split
      · rfl
      · exact h
    · exact h

private theorem reconfigureEach_sets {jobs : List ListedJob} (fep22Compatibility : Nat → Bool)
    (hall : ∀ job ∈ jobs, isFepJob job.address = true) :
    ∀ job ∈ jobs, (reconfigureEach isFepJob fep22Compatibility jobs).1 job.address = true := by
  induction jobs generalizing fep22Compatibility with
  | nil => exact nofun
  | cons job jobs ih =>
    obtain ⟨hjob,hjobs⟩ := forall_mem_cons.mp hall
    rw [reconfigureEach,if_pos hjob]
    refine forall_mem_cons.mpr ⟨reconfigureEach_of_set jobs ?_,ih _ hjobs⟩
    exact Function.update_self ..

/-- The modes `ready` leaves. -/
def readyModes (isFepJob : JobTypes) (service : LocalSchedulerService) (enabled : Bool) : Nat → Bool :=
  if enabled then (reconfigureEach isFepJob service.fep22Compatibility service.jobs).1
  else service.fep22Compatibility

theorem readyModes_iff (enabled : Bool) :
    (∀ job ∈ service.jobs, (isFepJob job.address && service.readyModes isFepJob enabled job.address) = enabled) ↔
      ∀ job ∈ service.jobs, if enabled then isFepJob job.address = true
        else (isFepJob job.address && service.fep22Compatibility job.address) = false := by
  cases enabled with
  | false => rfl
  | true =>
    constructor
    · intro hall job hjob
      exact (Bool.and_eq_true_iff.mp (hall job hjob)).1
    · intro hall job hjob
      have hfep (job : ListedJob) (hjob : job ∈ service.jobs) : isFepJob job.address = true := hall job hjob
      exact Bool.and_eq_true_iff.mpr ⟨hfep job hjob,reconfigureEach_sets service.fep22Compatibility hfep job hjob⟩

/-- What `ready` does: the modes are changed in any case, and a scheduler that is found becomes the current one
whatever it answers. -/
theorem ready_eq (isFepJob : JobTypes) (service : LocalSchedulerService) (properties : ReadyProperties)
    (initialized : Result) : service.ready isFepJob (some properties) initialized =
      match service.findScheduler properties.scheduler with
      | some scheduler => ({ service with
          fep22Compatibility := service.readyModes isFepJob properties.fep22CompatibilityModeEnabled
          currentScheduler := some scheduler },initialized)
      | none => ({ service with
          fep22Compatibility := service.readyModes isFepJob properties.fep22CompatibilityModeEnabled },
          .errNotFound) := by
  obtain ⟨enabled,name⟩ := properties
  have hready (service : LocalSchedulerService) :
      (let (service,result) := service.setScheduler name
        if isFailed result then (service,result)
        else if isFailed initialized then (service,initialized) else (service,.errNoError)) =
      match service.findScheduler name with
      | some scheduler => ({service with currentScheduler := some scheduler},initialized)
      | none => (service,.errNotFound) := by
    unfold setScheduler
    cases service.findScheduler name with
    | none => rfl
    | some scheduler =>
      by_cases hinitialized : initialized = .errNoError
      · simp [hinitialized]
      · simp [hinitialized]
  cases enabled with
  | false => exact hready service
  | true => exact hready {service with fep22Compatibility := service.readyModes isFepJob true}

theorem inv_ready (h : service.Inv) (propertyTree : Option ReadyProperties)
    (initialized : Result) : (service.ready isFepJob propertyTree initialized).1.Inv := by
  cases propertyTree with
  | none => exact h
  | some properties =>
    rw [ready_eq]
    split
    · rename_i scheduler hfound
      exact ⟨h.unique,⟨scheduler,rfl,(findScheduler_eq_some hfound).1⟩,h.default⟩
    · exact ⟨h.unique,h.current,h.default⟩

end LocalSchedulerService

namespace ObservedService

open LocalSchedulerService

variable {observed after : ObservedService} {call : SchedulerServiceCall} {isFepJob : JobTypes}

/-- What holds between two calls of a run of careful ones. -/
def Inv (isFepJob : JobTypes) (observed : ObservedService) : Prop :=
  observed.service.Inv ∧ observed.ModesRight isFepJob

section
variable (h : observed.Inv isFepJob)
include h

theorem right_of_kept {answer : LocalSchedulerService × Result}
    (hrespond : respond isFepJob observed.service call = some answer) (hkept : Kept observed.service answer)
    (hprepared : observed.preparedBy answer.2 call = observed.prepared) : observed.Right isFepJob call := by
  refine ⟨answer.1,answer.2,hrespond,hkept.inv.unique,hkept.inv.current,hkept.unchanged,?_⟩
  rw [hprepared]
  intro prepared hmem job hjob
  rw [hkept.modes]
  exact h.2 prepared hmem job hjob

/-- A call that only writes `started` is right unless it fails and writes another value. -/
theorem right_started_iff {started : Bool} {result : Result}
    (hrespond : respond isFepJob observed.service call = some ({observed.service with started := started},result))
    (hprepared : observed.preparedBy result call = observed.prepared) :
    observed.Right isFepJob call ↔ (isFailed result = true → started = observed.service.started) := by
  constructor
  · rintro ⟨service,result,hanswer,-,-,hunchanged,-⟩ hfailed
    cases hrespond.symm.trans hanswer
    exact (hunchanged hfailed).started
  · intro hcareful
    refine ⟨_,_,hrespond,h.1.unique,h.1.current,fun hfailed => ⟨rfl,rfl,rfl,hcareful hfailed⟩,?_⟩
    rw [hprepared]
    exact h.2

/-- `ready` is right exactly if it changes the current scheduler only without an error, and then leaves each job in
the mode asked for. -/
theorem right_ready_iff (properties : ReadyProperties) (initialized : Result) :
    observed.Right isFepJob (.ready (some properties) initialized) ↔
      observed.Careful isFepJob (.ready (some properties) initialized) := by
  have hready := ready_eq isFepJob observed.service properties initialized
  unfold Right Careful
  rw [respond,hready]
  cases hfound : observed.service.findScheduler properties.scheduler with
  | none =>
    exact iff_of_true ⟨_,_,rfl,h.1.unique,h.1.current,fun _ => ⟨rfl,rfl,rfl,rfl⟩,fun _ hnone => by cases hnone⟩
      fun _ hsome => by rw [hfound] at hsome; cases hsome
  | some scheduler =>
    simp only [hfound,mem_some_iff,forall_eq']
    have hregistered := (findScheduler_eq_some hfound).1
    by_cases hinitialized : initialized = .errNoError
    · rw [if_pos (by simpa using hinitialized),← readyModes_iff]
      constructor
      · rintro ⟨service,result,hanswer,-,-,-,hmodes⟩
        cases hanswer
        exact hmodes (properties.fep22CompatibilityModeEnabled,observed.service.jobs)
          (by simp [preparedBy,hinitialized])
      · intro hmodes
        refine ⟨_,_,rfl,h.1.unique,⟨scheduler,rfl,hregistered⟩,fun hfailed => ?_,fun prepared hprepared => ?_⟩
        · simp [hinitialized] at hfailed
        · obtain rfl : (properties.fep22CompatibilityModeEnabled,observed.service.jobs) = prepared := by
            simpa [preparedBy,hinitialized] using hprepared
          exact hmodes
    · rw [if_neg (by simpa using hinitialized)]
      constructor
      · rintro ⟨service,result,hanswer,-,-,hunchanged,-⟩
        cases hanswer
        exact (hunchanged (by simpa using hinitialized)).currentScheduler.symm
      · intro hsame
        refine ⟨_,_,rfl,h.1.unique,⟨scheduler,rfl,hregistered⟩,fun _ => ⟨rfl,rfl,hsame.symm,rfl⟩,
          fun prepared hprepared => ?_⟩
        simp [preparedBy,hinitialized] at hprepared

theorem right_iff (call : SchedulerServiceCall) : observed.Right isFepJob call ↔ observed.Careful isFepJob call := by
  cases call with
  | registerScheduler scheduler => exact iff_of_true (right_of_kept h rfl (kept_registerScheduler h.1) rfl) trivial
  | unregisterScheduler name =>
    obtain ⟨answer,hanswer,hkept⟩ := kept_unregisterScheduler h.1
    exact iff_of_true (right_of_kept h hanswer hkept rfl) trivial
  | setScheduler name => exact iff_of_true (right_of_kept h rfl (kept_setScheduler h.1) rfl) trivial
  | addJob job => exact iff_of_true (right_of_kept h rfl (kept_addJob h.1) rfl) trivial
  | removeJob name => exact iff_of_true (right_of_kept h rfl (kept_removeJob h.1) rfl) trivial
  | ready propertyTree initialized =>
    cases propertyTree with
    | none => exact iff_of_true ⟨_,_,rfl,h.1.unique,h.1.current,fun _ => .refl _,nofun⟩ trivial
    | some properties => exact right_ready_iff h properties initialized
  | start started =>
    obtain ⟨current,hcurrent,-⟩ := h.1.current
    have hrespond : respond isFepJob observed.service (.start started) =
        some ({observed.service with started := true},started) := by
      simp [respond,LocalSchedulerService.start,mem_def.mp hcurrent]
    exact (right_started_iff h hrespond rfl).trans (imp_congr_right fun _ => eq_comm)
  | stop stopped =>
    obtain ⟨current,hcurrent,-⟩ := h.1.current
    have hrespond : respond isFepJob observed.service (.stop stopped) =
        some ({observed.service with started := false},stopped) := by
      simp [respond,LocalSchedulerService.stop,mem_def.mp hcurrent]
    exact (right_started_iff h hrespond rfl).trans (imp_congr_right fun _ => eq_comm)
  | deinitializing stopped => exact iff_of_true ⟨_,_,rfl,h.1.unique,h.1.current,nofun,h.2⟩ trivial

end

private theorem inv_respond {service : LocalSchedulerService} (h : service.Inv) :
    ∃ answer, respond isFepJob service call = some answer ∧ answer.1.Inv := by
  cases call with
  | registerScheduler scheduler => exact ⟨_,rfl,(kept_registerScheduler h).inv⟩
  | unregisterScheduler name =>
    obtain ⟨answer,hanswer,hkept⟩ := kept_unregisterScheduler h
    exact ⟨answer,hanswer,hkept.inv⟩
  | setScheduler name => exact ⟨_,rfl,(kept_setScheduler h).inv⟩
  | addJob job => exact ⟨_,rfl,(kept_addJob h).inv⟩
  | removeJob name => exact ⟨_,rfl,(kept_removeJob h).inv⟩
  | ready propertyTree initialized => exact ⟨_,rfl,inv_ready h propertyTree initialized⟩
  | start started =>
    obtain ⟨current,hcurrent,hmem⟩ := h.current
    refine ⟨({service with started := true},started),?_,⟨h.unique,h.current,h.default⟩⟩
    simp [respond,LocalSchedulerService.start,mem_def.mp hcurrent]
  | stop stopped => exact ⟨_,rfl,⟨h.unique,h.current,h.default⟩⟩
  | deinitializing stopped => exact ⟨_,rfl,⟨h.unique,h.current,h.default⟩⟩

private theorem inv_step (h : observed.Inv isFepJob) (hcareful : observed.Careful isFepJob call)
    (hstep : observed.step isFepJob call = some after) : after.Inv isFepJob := by
  obtain ⟨service,result,hrespond,-,-,-,hmodes⟩ := (right_iff h call).mpr hcareful
  obtain ⟨answer,hanswer,hinv⟩ := inv_respond h.1
  cases hanswer.symm.trans hrespond
  rw [step,hrespond] at hstep
  cases hstep
  exact ⟨hinv,hmodes⟩

/-- In every list of calls from the creation of the service on, all calls are right exactly if all are careful. -/
theorem scheduler_service (isFepJob : JobTypes) (localClockBasedScheduler : IScheduler)
    (calls : List SchedulerServiceCall) :
    Throughout (step isFepJob) (Right isFepJob) (new localClockBasedScheduler) calls ↔
      Throughout (step isFepJob) (Careful isFepJob) (new localClockBasedScheduler) calls :=
  throughout_iff (fun _ call (h : Inv isFepJob _) => right_iff h call)
    (fun _ _ _ h hcareful hstep => inv_step h hcareful hstep)
    ⟨inv_new localClockBasedScheduler,fun _ hnone => by cases hnone⟩ calls

private def clockBased : IScheduler := ⟨0,"clock_based_scheduler"⟩

private def controlJob : ListedJob := ⟨1,"control",⟨100,0,.tsWarnAboutRuntimeViolation⟩⟩

/-- A failed start leaves the service started. A job that cannot work in the compatibility mode does not make
`ready` fail, and one that can keeps the mode in the next run. -/
theorem scheduler_service_errors :
    ¬Throughout (step fun _ => true) (Right fun _ => true) (new clockBased) [.start .errFailed] ∧
    ¬Throughout (step fun _ => false) (Right fun _ => false) (new clockBased)
      [.addJob controlJob,.ready (some ⟨true,"clock_based_scheduler"⟩) .errNoError] ∧
    ¬Throughout (step fun _ => true) (Right fun _ => true) (new clockBased)
      [.addJob controlJob,.ready (some ⟨true,"clock_based_scheduler"⟩) .errNoError,.deinitializing .errNoError,
        .ready (some ⟨false,"clock_based_scheduler"⟩) .errNoError] := by
  refine ⟨?_,?_,?_⟩
  · rintro ⟨⟨service,result,hrespond,-,-,hunchanged,-⟩,-⟩
    cases hrespond
    exact absurd (hunchanged rfl).started (by decide)
  · rintro ⟨-,hrest⟩
    obtain ⟨⟨service,result,hrespond,-,-,-,hmodes⟩,-⟩ := hrest _ rfl
    cases hrespond
    exact absurd (hmodes _ rfl controlJob (mem_singleton_self _)) (by decide)
  · rintro ⟨-,hrest⟩
    obtain ⟨-,hrest⟩ := hrest _ rfl
    obtain ⟨-,hrest⟩ := hrest _ rfl
    obtain ⟨⟨service,result,hrespond,-,-,-,hmodes⟩,-⟩ := hrest _ rfl
    cases hrespond
    exact absurd (hmodes _ rfl controlJob (mem_singleton_self _)) (by decide)

end ObservedService
end FepParticipant.Scheduler
