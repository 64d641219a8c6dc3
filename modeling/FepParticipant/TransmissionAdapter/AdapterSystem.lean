import FepParticipant.StateMachine.SetState
import FepParticipant.Library.Reachability

/-! The transmission adapter, its queue manager and the registration lock, between the handlers of the state machine,
the calls of other threads, the workers and the packets that arrive. -/
namespace FepParticipant.TransmissionAdapter
open StateMachine
variable (oldState : State)

/-- A receiver that is registered, with whether the driver's receiver is enabled and the packets in its queue. -/
structure DataReceiver where
  handle : Nat
  bEnabled : Bool
  nQueued : Nat
  deriving DecidableEq

structure DataTransmitter where
  handle : Nat
  bEnabled : Bool

/-- A worker in its loop, in `TryDequeue`, in front of `DoJob` with the receiver of its job, and inside of it. -/
inductive Worker where
  | looping
  | dequeuing
  | taken (handle : Nat)
  | working (handle : Nat)
  deriving DecidableEq

/-- A call that is past the registration lock. -/
inductive SignalCall where
  | registerInput
  | registerOutput
  | unregister (handle : Nat)

/-- The single steps of the handlers. -/
inductive Instruction where
  | allowSignalRegistration
  | disallowSignalRegistration
  | changeState (newState : State)
  | enable
  | createQueueManager
  | enableReceivers
  | enableReceiver (handle : Nat)
  | enableTransmitters
  | enableTransmitter (handle : Nat)
  | disable
  | shutDownWorkers
  | joinWorkers
  | stopJobQueue
  | clearJobQueue
  | disableReceivers
  | disableReceiver (handle : Nat)
  | flushQueue (handle : Nat)
  | disableTransmitters
  | disableTransmitter (handle : Nat)
  deriving DecidableEq

/-- The program is the rest of the transition in progress. A delivery is a callback of the driver that holds its
receiver's guard, with whether it found the job queue active. -/
structure AdapterSystem where
  state : State
  program : List Instruction
  bAllowRegistration : Bool
  bGlobalDisabled : Bool
  nNumberOfThreads : Nat
  vecDataReceiver : List DataReceiver
  vecDataTransmitter : List DataTransmitter
  nextHandle : Nat
  bJobQueueActive : Bool
  bShutdown : Bool
  qJobQueue : List Nat
  vecWorkerThreads : List Worker
  deliveries : List (Nat × Bool)
  calls : List SignalCall

/-- `ProcessReadyExit` and `ProcessRunningExit`. -/
def processExit (newState : State) : List Instruction :=
  match oldState with
  | .fsReady => if newState ≠ .fsRunning then [.allowSignalRegistration] else []
  | .fsRunning => if newState ≠ .fsReady then [.allowSignalRegistration] else []
  | _ => []

/-- `ProcessIdleEntry`, `ProcessErrorEntry`, `ProcessReadyEntry` and `ProcessRunningEntry`, whose components may fail
behind these steps. -/
def processEntry (newState : State) : List Instruction :=
  match newState with
  | .fsIdle | .fsError => if oldState = .fsReady ∨ oldState = .fsRunning then [.disable] else []
  | .fsReady => .enable::if oldState ≠ .fsRunning then [.disallowSignalRegistration] else []
  | .fsRunning => if oldState ≠ .fsReady then [.disallowSignalRegistration] else []
  | _ => []

def processPhase (newState : State) : Phase → List Instruction
  | .internalExit => processExit oldState newState
  | .stateChange => [.changeState newState]
  | .internalEntry => processEntry oldState newState
  | _ => []

inductive AdapterAction where
  | transition (event : StateTransition) (considerRequestResult ignoreEvents : Bool) (answers : CallbackResults)
  | proceed
  | configure (nNumberOfThreads : Nat)
  | call (bLocked : Bool) (signalCall : SignalCall)
  | finishCall (index : Nat) (bCreated : Bool)
  | receive (handle : Nat)
  | checkActive (handle : Nat)
  | enqueueJob (handle : Nat)
  | workerLoop (index : Nat)
  | workerDequeue (index : Nat)
  | workerEnter (index : Nat)
  | workerProcess (index : Nat)

namespace AdapterSystem
variable (system : AdapterSystem)
variable (handle : Nat) (index : Nat)

/-- The participant after its start, with the number of workers it is to have. -/
def new (nNumberOfThreads : Nat) : AdapterSystem :=
  ⟨.fsStartup,[],true,true,nNumberOfThreads,[],[],0,false,false,[],[],[],[]⟩

def setReceiver (change : DataReceiver → DataReceiver) : AdapterSystem :=
  { system with
    vecDataReceiver := system.vecDataReceiver.map fun receiver =>
      if receiver.handle = handle then change receiver else receiver }

def setTransmitter (bEnabled : Bool) : AdapterSystem :=
  { system with
    vecDataTransmitter := system.vecDataTransmitter.map fun transmitter =>
      if transmitter.handle = handle then {transmitter with bEnabled := bEnabled} else transmitter }

/-- The steps of `Enable` and `Disable` behind the flag. -/
def enableSteps : List Instruction := [.createQueueManager,.enableReceivers,.enableTransmitters]

def disableSteps : List Instruction :=
  [.shutDownWorkers,.joinWorkers,.stopJobQueue,.clearJobQueue,.disableReceivers,.disableTransmitters]

/-- One step of a handler, with the steps behind it as the program. To disable a receiver waits for its guard, and to
flush its queue for its job. -/
def execute : Instruction → Option AdapterSystem
  | .allowSignalRegistration => some {system with bAllowRegistration := true}
  | .disallowSignalRegistration => some {system with bAllowRegistration := false}
  | .changeState newState => some {system with state := newState}
  | .enable =>
    if system.bGlobalDisabled then
      some {system with bGlobalDisabled := false, program := enableSteps ++ system.program}
    else some system
  | .createQueueManager =>
    some { system with
      bJobQueueActive := true
      bShutdown := false
      vecWorkerThreads := system.vecWorkerThreads ++ List.replicate system.nNumberOfThreads .looping }
  | .enableReceivers =>
    some { system with
      program := system.vecDataReceiver.map (fun receiver => .enableReceiver receiver.handle) ++ system.program }
  | .enableReceiver handle => some (system.setReceiver handle fun receiver => {receiver with bEnabled := true})
  | .enableTransmitters =>
    some { system with
      program :=
        system.vecDataTransmitter.map (fun transmitter => .enableTransmitter transmitter.handle) ++ system.program }
  | .enableTransmitter handle => some (system.setTransmitter handle true)
  | .disable =>
    if system.bGlobalDisabled then some system
    else some {system with bGlobalDisabled := true, program := disableSteps ++ system.program}
  | .shutDownWorkers => some {system with bShutdown := true}
  | .joinWorkers => if system.vecWorkerThreads = [] then some system else none
  | .stopJobQueue => some {system with bJobQueueActive := false}
  | .clearJobQueue => some {system with qJobQueue := []}
  | .disableReceivers =>
    some { system with
      program := system.vecDataReceiver.flatMap (fun receiver =>
        [.disableReceiver receiver.handle,.flushQueue receiver.handle]) ++ system.program }
  | .disableReceiver handle =>
    if handle ∈ system.deliveries.map Prod.fst then none
    else some (system.setReceiver handle fun receiver => {receiver with bEnabled := false})
  | .flushQueue handle =>
    if .working handle ∈ system.vecWorkerThreads then none
    else some (system.setReceiver handle fun receiver => {receiver with nQueued := 0})
  | .disableTransmitters =>
    some { system with
      program :=
        system.vecDataTransmitter.map (fun transmitter => .disableTransmitter transmitter.handle) ++ system.program }
  | .disableTransmitter handle => some (system.setTransmitter handle false)

def proceed : Option AdapterSystem :=
  match system.program with
  | [] => none
  | instruction::program => execute {system with program := program} instruction

/-- The worker of the state machine begins a transition when the one before is over. -/
def transition (event : StateTransition) (considerRequestResult ignoreEvents : Bool)
    (answers : CallbackResults) : Option AdapterSystem :=
  if system.program = [] then
    match event.newState system.state with
    | some newState =>
      let machine : Machine := ⟨system.state,[],ignoreEvents,considerRequestResult,true,system.state⟩
      some { system with
        program := (machine.setState newState answers).calls.flatMap fun call =>
          processPhase system.state newState call.phase }
    | none => some system
  else none

def call (bLocked : Bool) (signalCall : SignalCall) : AdapterSystem :=
  if bLocked && !system.bAllowRegistration then system else {system with calls := system.calls ++ [signalCall]}

/-- `RegisterSignal` of the adapter, with whether the signal could be created. -/
def registerSignal (bInput bCreated : Bool) : AdapterSystem :=
  if bCreated then
    if bInput then
      { system with
        nextHandle := system.nextHandle + 1
        vecDataReceiver := system.vecDataReceiver ++ [⟨system.nextHandle,false,0⟩] }
    else
      { system with
        nextHandle := system.nextHandle + 1
        vecDataTransmitter := system.vecDataTransmitter ++ [⟨system.nextHandle,false⟩] }
  else system

/-- `UnregisterSignal` of the adapter: the destructor of a receiver waits for its job and for its guard. -/
def unregisterSignal : Option AdapterSystem :=
  if handle ∈ system.vecDataReceiver.map DataReceiver.handle then
    if .working handle ∈ system.vecWorkerThreads ∨ handle ∈ system.deliveries.map Prod.fst then none
    else some {system with vecDataReceiver := system.vecDataReceiver.filter fun receiver => receiver.handle != handle}
  else
    some { system with
      vecDataTransmitter := system.vecDataTransmitter.filter fun transmitter => transmitter.handle != handle }

def finishCall (bCreated : Bool) : Option AdapterSystem :=
  match system.calls[index]? with
  | none => none
  | some signalCall =>
    let system := {system with calls := system.calls.eraseIdx index}
    match signalCall with
    | .registerInput => some (system.registerSignal true bCreated)
    | .registerOutput => some (system.registerSignal false bCreated)
    | .unregister handle => system.unregisterSignal handle

/-- `EnqueueReceivedData` up to the job: an enabled receiver has its callback run under its guard. -/
def receive : Option AdapterSystem :=
  if (∃ receiver ∈ system.vecDataReceiver, receiver.handle = handle ∧ receiver.bEnabled = true) ∧
      handle ∉ system.deliveries.map Prod.fst then
    some { system.setReceiver handle fun receiver => {receiver with nQueued := receiver.nQueued + 1} with
      deliveries := system.deliveries ++ [(handle,false)] }
  else none

def endDelivery : AdapterSystem :=
  {system with deliveries := system.deliveries.filter fun delivery => delivery.1 != handle}

/-- `EnqueueJob`, which reads the flag first. -/
def checkActive : Option AdapterSystem :=
  if (handle,false) ∈ system.deliveries then
    if system.bJobQueueActive then
      some {system.endDelivery handle with deliveries := (system.endDelivery handle).deliveries ++ [(handle,true)]}
    else some (system.endDelivery handle)
  else none

def enqueueJob : Option AdapterSystem :=
  if (handle,true) ∈ system.deliveries then
    some {system.endDelivery handle with qJobQueue := system.qJobQueue ++ [handle]}
  else none

def setWorker (worker : Worker) : AdapterSystem :=
  {system with vecWorkerThreads := system.vecWorkerThreads.set index worker}

/-- A worker ends when it finds that it is to shut down. -/
def workerLoop : Option AdapterSystem :=
  match system.vecWorkerThreads[index]? with
  | some .looping =>
    if system.bShutdown then some {system with vecWorkerThreads := system.vecWorkerThreads.eraseIdx index}
    else some (system.setWorker index .dequeuing)
  | _ => none

def workerDequeue : Option AdapterSystem :=
  match system.vecWorkerThreads[index]? with
  | some .dequeuing =>
    match system.qJobQueue with
    | [] => some (system.setWorker index .looping)
    | handle::jobs => some {system.setWorker index (.taken handle) with qJobQueue := jobs}
  | _ => none

/-- `DoJob`: nothing is done when another worker is in the job of the receiver. -/
def workerEnter : Option AdapterSystem :=
  match system.vecWorkerThreads[index]? with
  | some (.taken handle) =>
    if .working handle ∈ system.vecWorkerThreads then some (system.setWorker index .looping)
    else some (system.setWorker index (.working handle))
  | _ => none

/-- A packet is processed, or the job is left when there is none. -/
def workerProcess : Option AdapterSystem :=
  match system.vecWorkerThreads[index]? with
  | some (.working handle) =>
    if ∃ receiver ∈ system.vecDataReceiver, receiver.handle = handle ∧ receiver.nQueued ≠ 0 then
      some (system.setReceiver handle fun receiver => {receiver with nQueued := receiver.nQueued - 1})
    else some (system.setWorker index .looping)
  | _ => none

def step : AdapterAction → Option AdapterSystem
  | .transition event considerRequestResult ignoreEvents answers =>
    system.transition event considerRequestResult ignoreEvents answers
  | .proceed => system.proceed
  | .configure nNumberOfThreads => some {system with nNumberOfThreads := nNumberOfThreads}
  | .call bLocked signalCall => some (system.call bLocked signalCall)
  | .finishCall index bCreated => system.finishCall index bCreated
  | .receive handle => system.receive handle
  | .checkActive handle => system.checkActive handle
  | .enqueueJob handle => system.enqueueJob handle
  | .workerLoop index => system.workerLoop index
  | .workerDequeue index => system.workerDequeue index
  | .workerEnter index => system.workerEnter index
  | .workerProcess index => system.workerProcess index

end AdapterSystem
end FepParticipant.TransmissionAdapter
