import FepParticipant.TransmissionAdapter.SignalTracking
import FepParticipant.StateMachine.EventWorker

/-! What is tracked stays so, whatever the handlers and the other threads do next, and when the signals are live
exactly in `FS_READY` and `FS_RUNNING`. -/
namespace FepParticipant.TransmissionAdapter
open StateMachine Nat Library List

namespace AdapterSystem
variable {system after : AdapterSystem} {instruction : Instruction} {program : List Instruction}
variable {bCreated : Bool}

/-! ### The steps of the handlers -/

/-- A step concerns the receivers, the transmitters or the jobs, and leaves what is tracked of the others. -/
theorem loops_execute (hflag : instruction.FitsFlag system.bGlobalDisabled) (hprogram : instruction.FitsProgram program)
    (hreceivers : ReceiversTracked system.bGlobalDisabled (instruction::program) system.vecDataReceiver
      system.deliveries)
    (htransmitters : TransmittersTracked system.bGlobalDisabled (instruction::program) system.vecDataTransmitter)
    (hjobs : JobsTracked system.bGlobalDisabled (instruction::program) system.bJobQueueActive system.qJobQueue)
    (hstep : execute {system with program := program} instruction = some after) :
    ReceiversTracked after.bGlobalDisabled after.program after.vecDataReceiver after.deliveries ∧
      TransmittersTracked after.bGlobalDisabled after.program after.vecDataTransmitter ∧
      JobsTracked after.bGlobalDisabled after.program after.bJobQueueActive after.qJobQueue := by
  obtain ⟨_,_,_,bGlobalDisabled,_⟩ := system
  cases instruction with
  | enable =>
    cases hflag
    cases hstep
    exact ⟨.of_enabled,.of_enabled,hjobs.of_enabled⟩
  | disable =>
    cases hflag
    cases hstep
    exact ⟨.of_disabled,.of_disabled,.of_disabled⟩
  | createQueueManager =>
    cases hflag
    cases hstep
    exact ⟨hreceivers.pop rfl,htransmitters.pop rfl,.create⟩
  | enableReceivers =>
    cases hflag
    cases hstep
    exact ⟨.enableEach,(htransmitters.pop rfl).append,(hjobs.pop rfl).append⟩
  | enableReceiver handle =>
    cases hflag
    cases hstep
    exact ⟨hreceivers.enableReceiver,htransmitters.pop rfl,hjobs.pop rfl⟩
  | disableReceivers =>
    cases hflag
    cases hstep
    exact ⟨.disableEach,(htransmitters.pop rfl).append,(hjobs.pop rfl).append⟩
  | disableReceiver handle =>
    cases hflag
    rw [execute] at hstep
    split at hstep
    · cases hstep
    · rename_i hdeliveries
      cases hstep
      exact ⟨hreceivers.disableReceiver hdeliveries hprogram,htransmitters.pop rfl,hjobs.pop rfl⟩
  | flushQueue handle =>
    cases hflag
    rw [execute] at hstep
    split at hstep
    · cases hstep
    · cases hstep
      exact ⟨hreceivers.flushQueue,htransmitters.pop rfl,hjobs.pop rfl⟩
  | enableTransmitters =>
    cases hflag
    cases hstep
    exact ⟨(hreceivers.pop rfl).append,.enableEach,(hjobs.pop rfl).append⟩
  | enableTransmitter handle =>
    cases hflag
    cases hstep
    exact ⟨hreceivers.pop rfl,htransmitters.enableTransmitter,hjobs.pop rfl⟩
  | disableTransmitters =>
    cases hflag
    cases hstep
    exact ⟨(hreceivers.pop rfl).append,.disableEach,(hjobs.pop rfl).append⟩
  | disableTransmitter handle =>
    cases hflag
    cases hstep
    exact ⟨hreceivers.pop rfl,htransmitters.disableTransmitter,hjobs.pop rfl⟩
  | joinWorkers =>
    rw [execute] at hstep
    split at hstep
    · cases hstep
      exact ⟨hreceivers.pop rfl,htransmitters.pop rfl,hjobs.pop rfl⟩
    · cases hstep
  | stopJobQueue =>
    cases hstep
    exact ⟨hreceivers.pop rfl,htransmitters.pop rfl,.stop hprogram⟩
  | clearJobQueue =>
    cases hstep
    exact ⟨hreceivers.pop rfl,htransmitters.pop rfl,hjobs.clear⟩
  | _ =>
    cases hstep
    exact ⟨hreceivers.pop rfl,htransmitters.pop rfl,hjobs.pop rfl⟩

theorem ReferencesRegistered.of_referenced (h : system.ReferencesRegistered)
    (hreceivers : after.vecDataReceiver.map DataReceiver.handle = system.vecDataReceiver.map DataReceiver.handle)
    (hnext : after.nextHandle = system.nextHandle)
    (hreferenced : ∀ handle, after.Referenced handle → system.Referenced handle) : after.ReferencesRegistered := by
  constructor
  · intro handle hafter
    rw [Registered,hreceivers]
    exact h.registered handle (hreferenced handle hafter)
  · intro handle hafter
    rw [Registered,hreceivers] at hafter
    rw [hnext]
    exact h.bound handle hafter

theorem handles_setReceiver (handle : Nat) {change : DataReceiver → DataReceiver}
    (hchange : ∀ receiver, (change receiver).handle = receiver.handle) :
    (system.setReceiver handle change).vecDataReceiver.map DataReceiver.handle =
      system.vecDataReceiver.map DataReceiver.handle := by
  rw [setReceiver,map_map]
  apply map_congr_left
  intro receiver _
  rw [Function.comp_apply]
  split
  · exact hchange receiver
  · rfl

theorem references_execute (h : system.ReferencesRegistered)
    (hstep : execute {system with program := program} instruction = some after) : after.ReferencesRegistered := by
  cases instruction with
  | enable | disable | joinWorkers =>
    rw [execute] at hstep
    split at hstep <;> cases hstep
    all_goals exact h.of_referenced rfl rfl fun _ href => href
  | createQueueManager =>
    cases hstep
    refine h.of_referenced rfl rfl fun handle href => href.imp_right (.imp_left fun hworker => ?_)
    rw [map_append,mem_append,map_replicate] at hworker
    exact hworker.resolve_right fun hnew => absurd (eq_of_mem_replicate hnew) (Option.some_ne_none _)
  | clearJobQueue =>
    cases hstep
    exact h.of_referenced rfl rfl fun _ href => .inr (href.resolve_left not_mem_nil)
  | enableReceiver handle =>
    cases hstep
    exact h.of_referenced (handles_setReceiver handle fun _ => rfl) rfl fun _ href => href
  | disableReceiver handle | flushQueue handle =>
    rw [execute] at hstep
    split at hstep <;> cases hstep
    exact h.of_referenced (handles_setReceiver handle fun _ => rfl) rfl fun _ href => href
  | _ =>
    cases hstep
    exact h.of_referenced rfl rfl fun _ href => href

section
variable (h : system.Tracked)
include h

theorem Tracked.proceed (hstep : system.proceed = some after) : after.Tracked := by
  rw [AdapterSystem.proceed] at hstep
  split at hstep
  · cases hstep
  · rename_i instruction program hprogram
    obtain ⟨hstage,hreceivers,htransmitters,hjobs,hreferences⟩ := h
    rw [hprogram] at hstage hreceivers htransmitters hjobs
    obtain ⟨hreceivers,htransmitters,hjobs⟩ :=
      loops_execute hstage.fitsFlag hstage.fitsProgram hreceivers htransmitters hjobs hstep
    exact ⟨hstage.execute hstep,hreceivers,htransmitters,hjobs,references_execute hreferences hstep⟩

theorem Tracked.transition {event : StateTransition} {considerRequestResult ignoreEvents : Bool}
    {answers : CallbackResults}
    (hstep : system.transition event considerRequestResult ignoreEvents answers = some after) : after.Tracked := by
  rw [AdapterSystem.transition] at hstep
  split at hstep
  · rename_i hprogram
    split at hstep
    · rename_i newState hnew
      cases hstep
      obtain ⟨hstage,hreceivers,htransmitters,hjobs,hreferences⟩ := h
      rw [hprogram] at hstage hreceivers htransmitters hjobs
      refine ⟨?_,hreceivers.of_resting,htransmitters.of_resting,hjobs.of_resting,
        hreferences.of_referenced rfl rfl fun _ href => href⟩
      rw [hstage.of_resting.1,hstage.of_resting.2]
      exact Stage.of_setState hnew considerRequestResult ignoreEvents answers
    · cases hstep
      exact h
  · cases hstep

/-! ### The calls of other threads -/

theorem Tracked.of_calls (calls : List SignalCall) : {system with calls := calls}.Tracked :=
  ⟨h.stage,h.receivers,h.transmitters,h.jobs,h.references.of_referenced rfl rfl fun _ href => href⟩

theorem Tracked.call (bLocked : Bool) (signalCall : SignalCall) : (system.call bLocked signalCall).Tracked := by
  rw [AdapterSystem.call]
  split
  · exact h
  · exact h.of_calls _

end

private theorem ReferencesRegistered.not_referenced_nextHandle (h : system.ReferencesRegistered) :
    ¬ system.Referenced system.nextHandle :=
  fun href => Nat.lt_irrefl _ (h.bound _ (h.registered _ href))

/-- What a call needs when it is finished: a signal that is created is behind no loop that enables, and a receiver that
is removed has no job. -/
def Finishes (system : AdapterSystem) (bCreated : Bool) : SignalCall → Prop
  | .registerInput => bCreated = true →
      system.bGlobalDisabled = true ∨ .disable ∈ system.program ∨ .enableReceivers ∈ system.program
  | .registerOutput => bCreated = true →
      system.bGlobalDisabled = true ∨ .disable ∈ system.program ∨ .enableTransmitters ∈ system.program
  | .unregister handle => handle ∉ system.qJobQueue ∧ some handle ∉ system.vecWorkerThreads.map Worker.job

theorem Tracked.registerInput (h : system.Tracked) {bCreated : Bool}
    (hfinishes : system.Finishes bCreated .registerInput) : (system.registerSignal true bCreated).Tracked := by
  cases bCreated with
  | false => exact h
  | true =>
    have hdeliveries : system.nextHandle ∉ system.deliveries.map Prod.fst :=
      fun hdelivery => h.references.not_referenced_nextHandle (.inr (.inr hdelivery))
    refine ⟨h.stage,h.receivers.register (hfinishes rfl) hdeliveries,h.transmitters,h.jobs,⟨?_,?_⟩⟩
    · intro handle href
      change handle ∈ List.map _ (_ ++ _)
      rw [map_append]
      exact mem_append_left _ (h.references.registered handle href)
    · intro handle hregistered
      change handle ∈ List.map _ (_ ++ _) at hregistered
      rw [map_append,mem_append] at hregistered
      obtain hregistered | hregistered := hregistered
      · exact lt_succ_of_lt (h.references.bound handle hregistered)
      · obtain rfl := mem_singleton.mp hregistered
        exact lt_succ_self _

theorem Tracked.registerOutput (h : system.Tracked)
    (hfinishes : system.Finishes bCreated .registerOutput) : (system.registerSignal false bCreated).Tracked := by
  cases bCreated with
  | false => exact h
  | true =>
    exact ⟨h.stage,h.receivers,h.transmitters.register (hfinishes rfl),h.jobs,h.references.registered,
      fun handle hregistered => lt_succ_of_lt (h.references.bound handle hregistered)⟩

variable {handle index : Nat}

private theorem Tracked.unregisterSignal (h : system.Tracked)
    (hjobless : handle ∉ system.qJobQueue ∧ some handle ∉ system.vecWorkerThreads.map Worker.job)
    (hstep : system.unregisterSignal handle = some after) : after.Tracked := by
  rw [AdapterSystem.unregisterSignal] at hstep
  split at hstep
  · split at hstep
    · cases hstep
    · rename_i hidle
      cases hstep
      refine ⟨h.stage,h.receivers.unregister _,h.transmitters,h.jobs,⟨?_,?_⟩⟩
      · intro other href
        have hne : other ≠ handle := by
          rintro rfl
          exact href.elim hjobless.1 (·.elim hjobless.2 fun hdelivery => hidle (.inr hdelivery))
        obtain ⟨receiver,hmem,heq⟩ := mem_map.mp (h.references.registered other href)
        refine mem_map.mpr ⟨receiver,mem_filter.mpr ⟨hmem,bne_iff_ne.mpr ?_⟩,heq⟩
        rwa [heq]
      · intro other hregistered
        obtain ⟨receiver,hmem,heq⟩ := mem_map.mp hregistered
        exact h.references.bound other (mem_map.mpr ⟨receiver,(mem_filter.mp hmem).1,heq⟩)
  · cases hstep
    exact ⟨h.stage,h.receivers,h.transmitters.unregister _,h.jobs,
      h.references.of_referenced rfl rfl fun _ href => href⟩

theorem Tracked.finishCall (h : system.Tracked) {bCreated : Bool}
    (hfinishes : ∀ signalCall ∈ system.calls[index]?, system.Finishes bCreated signalCall)
    (hstep : system.finishCall index bCreated = some after) : after.Tracked := by
  rw [AdapterSystem.finishCall] at hstep
  split at hstep
  · cases hstep
  · rename_i signalCall hcall
    have hrest := h.of_calls (system.calls.eraseIdx index)
    cases signalCall with
    | registerInput =>
      cases hstep
      exact hrest.registerInput (hfinishes _ hcall)
    | registerOutput =>
      cases hstep
      exact hrest.registerOutput (hfinishes _ hcall)
    | unregister handle => exact hrest.unregisterSignal (hfinishes _ hcall) hstep

/-! ### The packets -/

theorem mem_of_mem_endDelivery {other : Nat}
    (hmem : other ∈ (system.endDelivery handle).deliveries.map Prod.fst) : other ∈ system.deliveries.map Prod.fst := by
  obtain ⟨delivery,hdelivery,heq⟩ := mem_map.mp hmem
  exact mem_map.mpr ⟨delivery,(mem_filter.mp hdelivery).1,heq⟩

section
variable (h : system.Tracked)
include h

theorem Tracked.receive (hstep : system.receive handle = some after) : after.Tracked := by
  rw [AdapterSystem.receive] at hstep
  split at hstep
  · rename_i hreceives
    cases hstep
    have hhandles : (system.setReceiver handle fun receiver =>
        {receiver with nQueued := receiver.nQueued + 1}).vecDataReceiver.map DataReceiver.handle =
          system.vecDataReceiver.map DataReceiver.handle :=
      handles_setReceiver handle fun _ => rfl
    refine ⟨h.stage,h.receivers.receive hreceives.1,h.transmitters,h.jobs,⟨?_,?_⟩⟩
    · intro other href
      change other ∈ List.map _ (system.setReceiver handle _).vecDataReceiver
      rw [hhandles]
      obtain hjob | hworker | hdelivery := href
      · exact h.references.registered other (.inl hjob)
      · exact h.references.registered other (.inr (.inl hworker))
      · change other ∈ List.map _ (_ ++ _) at hdelivery
        rw [map_append,mem_append] at hdelivery
        obtain hdelivery | hdelivery := hdelivery
        · exact h.references.registered other (.inr (.inr hdelivery))
        · obtain rfl := mem_singleton.mp hdelivery
          obtain ⟨receiver,hmem,heq,_⟩ := hreceives.1
          exact mem_map.mpr ⟨receiver,hmem,heq⟩
    · intro other hregistered
      change other ∈ List.map _ (system.setReceiver handle _).vecDataReceiver at hregistered
      rw [hhandles] at hregistered
      exact h.references.bound other hregistered
  · cases hstep

theorem Tracked.checkActive (hstep : system.checkActive handle = some after) : after.Tracked := by
  rw [AdapterSystem.checkActive] at hstep
  split at hstep
  · rename_i hdelivery
    have hdelivering : handle ∈ system.deliveries.map Prod.fst := mem_map.mpr ⟨_,hdelivery,rfl⟩
    split at hstep
    · cases hstep
      have hothers : ∀ other ∈ ((system.endDelivery handle).deliveries ++ [(handle,true)]).map Prod.fst,
          other ∈ system.deliveries.map Prod.fst := by
        intro other hother
        rw [map_append,mem_append] at hother
        obtain hother | hother := hother
        · exact mem_of_mem_endDelivery hother
        · obtain rfl := mem_singleton.mp hother
          exact hdelivering
      exact ⟨h.stage,h.receivers.endDelivery hothers,h.transmitters,h.jobs,
        h.references.of_referenced rfl rfl fun _ href => href.imp_right (.imp_right (hothers _))⟩
    · cases hstep
      exact ⟨h.stage,h.receivers.endDelivery fun _ => mem_of_mem_endDelivery,h.transmitters,h.jobs,
        h.references.of_referenced rfl rfl fun _ href => href.imp_right (.imp_right mem_of_mem_endDelivery)⟩
  · cases hstep

theorem Tracked.enqueueJob (hactive : system.bJobQueueActive = true ∨ .clearJobQueue ∈ system.program)
    (hstep : system.enqueueJob handle = some after) : after.Tracked := by
  rw [AdapterSystem.enqueueJob] at hstep
  split at hstep
  · rename_i hdelivery
    cases hstep
    refine ⟨h.stage,h.receivers.endDelivery fun _ => mem_of_mem_endDelivery,h.transmitters,h.jobs.enqueue hactive,
      h.references.of_referenced rfl rfl ?_⟩
    rintro other (hjob | hworker | hother)
    · obtain hjob | hjob := mem_append.mp hjob
      · exact .inl hjob
      · obtain rfl := mem_singleton.mp hjob
        exact .inr (.inr (mem_map.mpr ⟨_,hdelivery,rfl⟩))
    · exact .inr (.inl hworker)
    · exact .inr (.inr (mem_of_mem_endDelivery hother))
  · cases hstep

/-! ### The workers -/

theorem Tracked.setWorker {worker : Worker}
    (hworker : ∀ handle ∈ worker.job, system.Referenced handle) : (system.setWorker index worker).Tracked := by
  refine ⟨h.stage,h.receivers,h.transmitters,h.jobs,h.references.of_referenced rfl rfl ?_⟩
  rintro handle (hjob | hset | hdelivery)
  · exact .inl hjob
  · obtain ⟨other,hmem,heq⟩ := mem_map.mp hset
    obtain hmem | rfl := mem_or_eq_of_mem_set hmem
    · exact .inr (.inl (mem_map.mpr ⟨other,hmem,heq⟩))
    · exact hworker handle heq
  · exact .inr (.inr hdelivery)

theorem Tracked.workerLoop (hstep : system.workerLoop index = some after) : after.Tracked := by
  rw [AdapterSystem.workerLoop] at hstep
  split at hstep
  · split at hstep
    · cases hstep
      refine ⟨h.stage,h.receivers,h.transmitters,h.jobs,h.references.of_referenced rfl rfl ?_⟩
      refine fun handle href => href.imp_right (.imp_left fun hworker => ?_)
      obtain ⟨worker,hmem,heq⟩ := mem_map.mp hworker
      exact mem_map.mpr ⟨worker,mem_of_mem_eraseIdx hmem,heq⟩
    · cases hstep
      exact h.setWorker nofun
  · cases hstep

theorem Tracked.workerDequeue (hstep : system.workerDequeue index = some after) : after.Tracked := by
  rw [AdapterSystem.workerDequeue] at hstep
  split at hstep
  · split at hstep
    · cases hstep
      exact h.setWorker nofun
    · rename_i handle jobs hjobs
      cases hstep
      have hset : (system.setWorker index (.taken handle)).Tracked := by
        refine h.setWorker fun other heq => .inl ?_
        cases heq
        rw [hjobs]
        exact mem_cons_self
      obtain ⟨hstage,hreceivers,htransmitters,hqueue,hreferences⟩ := hset
      change JobsTracked _ _ _ system.qJobQueue at hqueue
      rw [hjobs] at hqueue
      refine ⟨hstage,hreceivers,htransmitters,hqueue.dequeue,hreferences.of_referenced rfl rfl ?_⟩
      refine fun other href => href.imp_left fun hjob => ?_
      change other ∈ system.qJobQueue
      rw [hjobs]
      exact mem_cons_of_mem _ hjob
  · cases hstep

end

private theorem referenced_of_worker {worker : Worker}
    (hworker : system.vecWorkerThreads[index]? = some worker) (hjob : worker.job = some handle) :
    system.Referenced handle :=
  .inr (.inl (mem_map.mpr ⟨worker,mem_of_getElem? hworker,hjob⟩))

theorem Tracked.workerEnter (h : system.Tracked) (hstep : system.workerEnter index = some after) : after.Tracked := by
  rw [AdapterSystem.workerEnter] at hstep
  split at hstep
  · rename_i handle hworker
    split at hstep
    · cases hstep
      exact h.setWorker nofun
    · cases hstep
      exact h.setWorker fun other heq => referenced_of_worker hworker heq
  · cases hstep

theorem Tracked.workerProcess (h : system.Tracked) (hstep : system.workerProcess index = some after) :
    after.Tracked := by
  rw [AdapterSystem.workerProcess] at hstep
  split at hstep
  · rename_i handle hworker
    split at hstep
    · cases hstep
      exact ⟨h.stage,h.receivers.process handle,h.transmitters,h.jobs,
        h.references.of_referenced (handles_setReceiver handle fun _ => rfl) rfl fun _ href => href⟩
    · cases hstep
      exact h.setWorker nofun
  · cases hstep

/-- Calls are finished as they should be, and a callback finds the job queue as it was when the flag was read. -/
def Timely (system : AdapterSystem) : AdapterAction → Prop
  | .finishCall index bCreated => ∀ signalCall ∈ system.calls[index]?, system.Finishes bCreated signalCall
  | .enqueueJob _ => system.bJobQueueActive = true ∨ .clearJobQueue ∈ system.program
  | _ => True

/-- What is to hold between two transitions. -/
structure LiveExactly (system : AdapterSystem) : Prop where
  receivers : ∀ receiver ∈ system.vecDataReceiver, receiver.bEnabled = isLive system.state
  transmitters : ∀ transmitter ∈ system.vecDataTransmitter, transmitter.bEnabled = isLive system.state
  refused : ∀ signalCall, system.call true signalCall = system ↔ isLive system.state = true
  idle : isLive system.state = false →
    (∀ receiver ∈ system.vecDataReceiver, receiver.nQueued = 0) ∧ system.qJobQueue = []

def Works (system : AdapterSystem) (handle : Nat) : Prop := some handle ∈ system.vecWorkerThreads.map Worker.job

theorem tracked_new (nNumberOfThreads : Nat) : (new nNumberOfThreads).Tracked where
  stage := .resting
  receivers := ⟨nofun,fun _ _ hmem => nomatch hmem⟩
  transmitters := ⟨nofun,fun _ _ hmem => nomatch hmem⟩
  jobs := ⟨nofun,fun _ => .inl rfl⟩
  references := ⟨fun _ href => href.elim nofun (·.elim nofun nofun),nofun⟩

private theorem tracked_step {action : AdapterAction} {after : AdapterSystem} (h : system.Tracked)
    (htimely : system.Timely action) (hstep : system.step action = some after) : after.Tracked := by
  cases action with
  | transition => exact h.transition hstep
  | proceed => exact h.proceed hstep
  | configure nNumberOfThreads =>
    cases hstep
    exact ⟨h.stage,h.receivers,h.transmitters,h.jobs,h.references.of_referenced rfl rfl fun _ href => href⟩
  | call bLocked signalCall =>
    cases hstep
    exact h.call bLocked signalCall
  | finishCall => exact h.finishCall htimely hstep
  | receive => exact h.receive hstep
  | checkActive => exact h.checkActive hstep
  | enqueueJob => exact h.enqueueJob htimely hstep
  | workerLoop => exact h.workerLoop hstep
  | workerDequeue => exact h.workerDequeue hstep
  | workerEnter => exact h.workerEnter hstep
  | workerProcess => exact h.workerProcess hstep

theorem tracked_of_reaches {nNumberOfThreads : Nat} (h : Reaches step Timely (new nNumberOfThreads) system) :
    system.Tracked :=
  h.invariant (tracked_new nNumberOfThreads) fun _ _ _ htracked htimely hstep => tracked_step htracked htimely hstep

private theorem call_eq_iff (signalCall : SignalCall) :
    system.call true signalCall = system ↔ system.bAllowRegistration = false := by
  rw [call]
  split
  · rename_i hrefused
    exact ⟨fun _ => (Bool.not_eq_true' _).mp hrefused,fun _ => rfl⟩
  · rename_i hallowed
    refine ⟨fun heq => ?_,fun hrefused => absurd ((Bool.not_eq_true' _).mpr hrefused) hallowed⟩
    have hlength := congrArg (fun system : AdapterSystem => system.calls.length) heq
    rw [length_append] at hlength
    exact absurd hlength (Nat.succ_ne_self _)

theorem Tracked.liveExactly (h : system.Tracked) (hprogram : system.program = []) : system.LiveExactly := by
  obtain ⟨hstage,hreceivers,htransmitters,hjobs,-⟩ := h
  rw [hprogram] at hstage hreceivers htransmitters hjobs
  obtain ⟨hflag,hallow⟩ := hstage.of_resting
  rw [hflag] at hreceivers htransmitters hjobs
  cases hlive : isLive system.state with
  | true =>
    rw [hlive] at hreceivers htransmitters hallow
    refine ⟨?_,?_,?_,fun hidle => ?_⟩
    · intro receiver hmem
      rw [hlive]
      exact (hreceivers.enabled rfl nofun receiver hmem).resolve_right (·.elim nofun nofun)
    · intro transmitter hmem
      rw [hlive]
      exact (htransmitters.enabled rfl nofun transmitter hmem).resolve_right (·.elim nofun nofun)
    · intro signalCall
      rw [call_eq_iff,hallow,hlive]
      exact iff_of_true rfl rfl
    · rw [hlive] at hidle
      cases hidle
  | false =>
    rw [hlive] at hreceivers htransmitters hjobs hallow
    have hquiet (receiver : DataReceiver) (hmem : receiver ∈ system.vecDataReceiver) :
        Quiet [] system.deliveries receiver :=
      (hreceivers.disabled rfl receiver hmem).resolve_right (·.elim nofun nofun)
    refine ⟨?_,?_,?_,fun _ => ⟨?_,?_⟩⟩
    · intro receiver hmem
      rw [hlive]
      exact (hquiet receiver hmem).1
    · intro transmitter hmem
      rw [hlive]
      exact (htransmitters.disabled rfl transmitter hmem).resolve_right (·.elim nofun nofun)
    · intro signalCall
      rw [call_eq_iff,hallow,hlive]
      exact iff_of_false nofun nofun
    · exact fun receiver hmem => (hquiet receiver hmem).2.2.resolve_left nofun
    · have hinactive : system.bJobQueueActive = false :=
        Bool.eq_false_iff.mpr fun hactive => (hjobs.active hactive).elim nofun nofun
      exact (hjobs.inactive hinactive).resolve_right nofun

/-- In a timely run the signals are live exactly in `FS_READY` and `FS_RUNNING` between transitions, and every
worker's job is of a registered receiver. -/
theorem signals_live_exactly (nNumberOfThreads : Nat) (system : AdapterSystem)
    (h : Reaches step Timely (new nNumberOfThreads) system) :
    (system.program = [] → system.LiveExactly) ∧ ∀ handle, system.Works handle → system.Registered handle := by
  have htracked := tracked_of_reaches h
  constructor
  · exact htracked.liveExactly
  · exact fun handle hworks => htracked.references.registered handle (.inr (.inl hworks))

instance (bCreated : Bool) (signalCall : SignalCall) : Decidable (system.Finishes bCreated signalCall) :=
  match signalCall with
  | .registerInput | .registerOutput => inferInstanceAs (Decidable (_ → _))
  | .unregister _ => inferInstanceAs (Decidable (_ ∧ _))

instance (action : AdapterAction) : Decidable (system.Timely action) :=
  match action with
  | .finishCall _ _ => inferInstanceAs (Decidable (∀ _ ∈ _, _))
  | .enqueueJob _ => inferInstanceAs (Decidable (_ ∨ _))
  | .transition _ _ _ _ | .proceed | .configure _ | .call _ _ | .receive _ | .checkActive _ | .workerLoop _
  | .workerDequeue _ | .workerEnter _ | .workerProcess _ => inferInstanceAs (Decidable True)

def transits (event : StateTransition) (nSteps : Nat) : List AdapterAction :=
  .transition event true false quietAnswers::List.replicate nSteps .proceed

def readyWithPacket : List AdapterAction :=
  transits .stStartupDone 1 ++ transits .stInitialize 1 ++
    [.call true .registerInput,.call true .registerOutput,.finishCall 0 true,.finishCall 0 true] ++
    transits .stInitDone 8 ++ [.receive 0,.checkActive 0]

/-- The packet is processed by the worker, and the participant becomes idle. -/
def processedAndStopped : List AdapterAction :=
  readyWithPacket ++ [.enqueueJob 0,.workerLoop 0,.workerDequeue 0,.workerEnter 0,.workerProcess 0,
    .workerProcess 0] ++ transits .stStop 4 ++ [.workerLoop 0] ++ List.replicate 8 .proceed

theorem signals_live_exactly_processed :
    ∃ system : AdapterSystem, system.state = .fsIdle ∧ system.vecDataReceiver.length = 1 ∧ system.LiveExactly := by
  obtain ⟨system,hreach,hstate,hlength,hprogram⟩ : ∃ system, Reaches step Timely (new 1) system ∧
      system.state = .fsIdle ∧ system.vecDataReceiver.length = 1 ∧ system.program = [] :=
    exists_of_runAllowed processedAndStopped (by decide +kernel)
  exact ⟨system,hstate,hlength,(signals_live_exactly 1 system hreach).1 hprogram⟩

/-- A registration that is past the lock when the participant initializes ends behind the loop that enables. -/
def registeredLate : List AdapterAction :=
  transits .stStartupDone 1 ++ transits .stInitialize 1 ++ [.call true .registerInput] ++ transits .stInitDone 6 ++
    [.finishCall 0 true]

/-- Registration is allowed on the exit of `FS_READY`, and the workers are still running. -/
def unregisteredEarly : List AdapterAction :=
  readyWithPacket ++ [.enqueueJob 0] ++ transits .stStop 1 ++ [.call true (.unregister 0),.finishCall 0 true,
    .workerLoop 0,.workerDequeue 0,.workerEnter 0]

/-- A callback has found the job queue active, and queues its job when the queue has been cleared. -/
def queuedLate : List AdapterAction :=
  readyWithPacket ++ transits .stStop 4 ++ [.workerLoop 0] ++ List.replicate 3 .proceed ++ [.enqueueJob 0] ++
    List.replicate 5 .proceed

/-- A participant is ready with a disabled receiver, a worker is in the job of a receiver gone, and a job is queued
while idle. -/
theorem signals_not_live_exactly :
    (∃ system, Reaches step anyAction (new 1) system ∧ system.program = [] ∧ ¬ system.LiveExactly) ∧
    (∃ system, Reaches step anyAction (new 1) system ∧ .working 0 ∈ system.vecWorkerThreads ∧ ¬ system.Registered 0) ∧
    ∃ system, Reaches step anyAction (new 1) system ∧ system.program = [] ∧ system.state = .fsIdle ∧
      system.qJobQueue = [0] := by
  refine ⟨?_,?_,?_⟩
  · obtain ⟨system,hreach,hprogram,hstate,hreceivers⟩ : ∃ system, Reaches step anyAction (new 1) system ∧
        system.program = [] ∧ system.state = .fsReady ∧ system.vecDataReceiver = [⟨0,false,0⟩] :=
      exists_of_runActions registeredLate (by decide +kernel)
    refine ⟨system,hreach,hprogram,fun hlive => ?_⟩
    have henabled := hlive.receivers ⟨0,false,0⟩ (hreceivers ▸ mem_cons_self)
    rw [hstate] at henabled
    cases henabled
  · obtain ⟨system,hreach,hthreads,hreceivers⟩ : ∃ system, Reaches step anyAction (new 1) system ∧
        system.vecWorkerThreads = [.working 0] ∧ system.vecDataReceiver = [] :=
      exists_of_runActions unregisteredEarly (by decide +kernel)
    refine ⟨system,hreach,hthreads ▸ mem_cons_self,?_⟩
    rw [Registered,hreceivers]
    exact not_mem_nil
  · exact exists_of_runActions queuedLate (by decide +kernel)

end AdapterSystem
end FepParticipant.TransmissionAdapter
