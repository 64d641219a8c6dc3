import FepParticipant.DataRegistry.DataReaderBacklog
import FepParticipant.DataRegistry.DataRegistryFEP2
import FepParticipant.Timing.TimingConfiguration
import Mathlib.Data.List.Find

/-! The step listeners of the legacy timing interface: the readers and writers of a job, and what the data accesses
of its callback do with them. -/
namespace FepParticipant.Timing
open DataRegistry Library Signals List

structure SignalRegistry extends SignalAccess where
  nodup : (signals.map (·.handle)).Nodup

/-- `getHandleForSignal`: an output is only looked for if there is no input of the name. -/
def getHandleForSignal (registry : SignalRegistry) (name : String) : Option Nat :=
  match registry.getSignalHandleFromName name .sdInput with
  | some handle => some handle
  | none => registry.getSignalHandleFromName name .sdOutput

structure StepSample where
  signalHandle : Nat
  time : Int
  data : List UInt8
  deriving DecidableEq

structure HandledReader (β : Type) where
  signalHandle : Nat
  name : String
  backlog : DataReaderBacklog StepSample β

namespace HandledReader
variable {β : Type} (reader : HandledReader β)

/-- What `CopyRecentData` makes of a sample with its reader. -/
def recent (sample : StepSample) : StepSample × Result :=
  match reader.backlog.read with
  | some received => ({received with signalHandle := reader.signalHandle},.errNoError)
  | none => (sample,.errOutOfSync)

/-- The same for `CopyDataBefore`, which has no result if the reader asks an empty slot for its time. -/
def before (upperBound : Int) (sample : StepSample) : Option (StepSample × Result) :=
  (reader.backlog.readBefore StepSample.time upperBound).map fun
  | some received => ({received with signalHandle := reader.signalHandle},.errNoError)
  | none => (sample,if reader.backlog.currentSize = 0 then .errOutOfSync else .errInvalidArg)

end HandledReader

/-- A writer with the samples that wait in its queue. -/
structure HandledWriter where
  signalHandle : Nat
  name : String
  queue : List StepSample

def HandledWriter.write (writer : HandledWriter) (sample : StepSample) : HandledWriter :=
  if writer.signalHandle = sample.signalHandle then {writer with queue := writer.queue ++ [sample]} else writer

def StepSample.setTime (sample : StepSample) (time : Int) : StepSample := {sample with time := time}

/-- `JobToStepTrigger` as far as its data accesses use it. -/
structure JobToStepTrigger (β : Type) where
  name : String
  cycleSimTimeUs : Int
  fep22Compatibility : Bool
  readers : List (HandledReader β)
  writers : List HandledWriter
  currentJobTime : Int

variable {β : Type}

/-- The conversion of a 32-bit number to `size_t`. -/
def toSize (number : Int) : Nat := if number < 0 then (2 ^ 64 + number).toNat else number.toNat

namespace JobToStepTrigger

def new (name : String) (config : StepConfig) : JobToStepTrigger β where
  name := name
  cycleSimTimeUs := config.cycleTimeSimUs
  fep22Compatibility := false
  readers := []
  writers := []
  currentJobTime := 0

def findReader (job : JobToStepTrigger β) (handle : Nat) : Option (HandledReader β) :=
  job.readers.find? fun reader => reader.signalHandle == handle

def findWriter (job : JobToStepTrigger β) (handle : Nat) : Option HandledWriter :=
  job.writers.find? fun writer => writer.signalHandle == handle

section registration
variable (registry : SignalRegistry) (getTypeForSignal : Nat → β)

def addInput (job : JobToStepTrigger β) (name : String) : JobToStepTrigger β × Result :=
  match getHandleForSignal registry name with
  | some handle =>
    if (job.findReader handle).isNone then
      ({job with readers := job.readers ++ [⟨handle,name,.new 1 (getTypeForSignal handle)⟩]},.errNoError)
    else (job,.errNoError)
  | none => (job,.errNotFound)

def addOutput (job : JobToStepTrigger β) (name : String) : JobToStepTrigger β × Result :=
  match getHandleForSignal registry name with
  | some handle =>
    if (job.findWriter handle).isNone then ({job with writers := job.writers ++ [⟨handle,name,[]⟩]},.errNoError)
    else (job,.errNoError)
  | none => (job,.errNotFound)

/-- `addInputs` and `addOutputs`, which end with the first failure. -/
def addEach (add : JobToStepTrigger β → String → JobToStepTrigger β × Result) :
    JobToStepTrigger β → List String → JobToStepTrigger β × Result
  | job, [] => (job,.errNoError)
  | job, name::names =>
    let (job,res) := add job name
    if isFailed res then (job,res) else addEach add job names

end registration

/-- `reconfigureDataIn` resizes the first reader of the name. A vector has a maximum size, beyond which it throws. -/
def reconfigureDataIn (maxSize : Nat) (name : String) (queueSize : Nat) :
    List (HandledReader β) → Option (List (HandledReader β) × Result)
  | [] => some ([],.errNotFound)
  | reader::readers =>
    if reader.name = name then
      if maxSize < queueSize then none
      else some ({reader with backlog := reader.backlog.resize queueSize} :: readers,.errNoError)
    else (reconfigureDataIn maxSize name queueSize readers).map fun (readers,res) => (reader::readers,res)

/-- The loop over the inputs of a participant; a reader that is not there is not an error. -/
def setBacklogSizes (maxSize : Nat) (registry : SignalRegistry) (getTypeForSignal : Nat → β) :
    JobToStepTrigger β → List (String × GlobalInputConfig) → Option (JobToStepTrigger β × Result)
  | job, [] => some (job,.errNoError)
  | job, input::inputs =>
    let (job,res) := job.addInput registry getTypeForSignal input.1
    if isFailed res then some (job,res)
    else do
      let (readers,_) ← reconfigureDataIn maxSize input.1 (toSize input.2.backLogSize) job.readers
      setBacklogSizes maxSize registry getTypeForSignal {job with readers := readers} inputs

/-- `reconfigureByTimingConfiguration`; without a result an exception is thrown. -/
def reconfigureByTimingConfiguration (maxSize : Nat) (registry : SignalRegistry) (getTypeForSignal : Nat → β)
    (job : JobToStepTrigger β) (participantName : String) (configuration : TimingConfiguration) :
    Option (JobToStepTrigger β × Result) :=
  match configuration.participants.lookup participantName with
  | none => some (job,.errNotFound)
  | some participant =>
    match participant.tasks.lookup job.name with
    | none => job.setBacklogSizes maxSize registry getTypeForSignal participant.inputConfigs
    | some task =>
      let job := if task.cycleTimeSimUs > 0 then {job with cycleSimTimeUs := task.cycleTimeSimUs} else job
      let (job,res) := addEach (addInput registry getTypeForSignal) job (task.inputs.map Prod.fst)
      if isFailed res then some (job,res)
      else
        let (job,res) := addEach (addOutput registry) job (task.outputs.map Prod.fst)
        if isFailed res then some (job,res)
        else job.setBacklogSizes maxSize registry getTypeForSignal participant.inputConfigs

def copyRecentData (job : JobToStepTrigger β) (signalHandle : Nat) (sample : StepSample) : StepSample × Result :=
  match job.findReader signalHandle with
  | some reader => reader.recent sample
  | none => (sample,.errNotFound)

def copyDataBefore (job : JobToStepTrigger β) (signalHandle : Nat) (upperBound : Int) (sample : StepSample) :
    Option (StepSample × Result) :=
  match job.findReader signalHandle with
  | some reader => reader.before upperBound sample
  | none => some (sample,.errNotFound)

/-- `TransmitData` with the samples that are transmitted at once. -/
def transmitData (job : JobToStepTrigger β) (sample : StepSample) : JobToStepTrigger β × List StepSample :=
  let sample := sample.setTime job.currentJobTime
  if (job.findWriter sample.signalHandle).isSome then
    ({job with writers := job.writers.map fun writer => writer.write sample},[])
  else (job,[sample])

def transmitEach : JobToStepTrigger β → List StepSample → JobToStepTrigger β × List StepSample
  | job, [] => (job,[])
  | job, sample::samples =>
    let (job,transmitted) := job.transmitData sample
    let (job,later) := transmitEach job samples
    (job,transmitted ++ later)

def jobTime (timeOfExecution clockTime : Int) : Int := if timeOfExecution = 0 then clockTime else timeOfExecution

/-- `process` with the samples that the callback transmits. -/
def process (job : JobToStepTrigger β) (timeOfExecution clockTime : Int) (samples : List StepSample) :
    JobToStepTrigger β × List StepSample :=
  transmitEach {job with currentJobTime := jobTime timeOfExecution clockTime} samples

/-- A sample as its writer transmits it. -/
def flushed (job : JobToStepTrigger β) (sample : StepSample) : StepSample :=
  if job.fep22Compatibility then sample.setTime (sample.time + job.cycleSimTimeUs) else sample

/-- `executeDataOut` flushes the writers; the samples are published under their names. -/
def executeDataOut (job : JobToStepTrigger β) : JobToStepTrigger β × List (String × StepSample) :=
  ({job with writers := job.writers.map fun writer => {writer with queue := []}},
    job.writers.flatMap fun writer => writer.queue.map fun sample => (writer.name,job.flushed sample))

/-- `executeDataIn`: the reader of a name receives a sample. -/
def receive (job : JobToStepTrigger β) (name : String) (sample : StepSample) : JobToStepTrigger β :=
  { job with
    readers := job.readers.map fun reader =>
      if reader.name = name then {reader with backlog := reader.backlog.onReceive sample} else reader }

end JobToStepTrigger

/-- `TimingInterfaceLegacy`; the map of its steps is listed in the order of the names. -/
structure TimingInterfaceLegacy (β : Type) where
  moduleName : String
  timingConfiguration : TimingConfiguration
  timingConfigurationFileLoaded : Bool
  stepTrigger : List (String × JobToStepTrigger β)

namespace TimingInterfaceLegacy

/-- `reconfigureByTimingConfiguration` of the interface. -/
def reconfigureByTimingConfiguration (maxSize : Nat) (registry : SignalRegistry) (getTypeForSignal : Nat → β)
    (interface : TimingInterfaceLegacy β) (job : JobToStepTrigger β) : Option (JobToStepTrigger β × Result) :=
  if interface.timingConfigurationFileLoaded then
    job.reconfigureByTimingConfiguration maxSize registry getTypeForSignal interface.moduleName
      interface.timingConfiguration
  else some (job,.errNoError)

/-- `RegisterStepListener` with the answer of `addToComponents`. -/
def registerStepListener (maxSize : Nat) (registry : SignalRegistry) (getTypeForSignal : Nat → β)
    (interface : TimingInterfaceLegacy β) (name : String) (config : StepConfig) (addToComponents : Result) :
    Option (TimingInterfaceLegacy β × Result) := do
  let (job,res) := JobToStepTrigger.addEach (JobToStepTrigger.addInput registry getTypeForSignal) (.new name config)
    (config.inputs.map Prod.fst)
  if isFailed res then return (interface,res)
  let (job,res) := JobToStepTrigger.addEach (JobToStepTrigger.addOutput registry) job (config.outputs.map Prod.fst)
  if isFailed res then return (interface,res)
  let (job,res) ← interface.reconfigureByTimingConfiguration maxSize registry getTypeForSignal job
  if isFailed res then return (interface,res)
  if isFailed addToComponents then return (interface,addToComponents)
  return ({interface with stepTrigger := OrderedMap.assign (name,job) interface.stepTrigger},.errNoError)

end TimingInterfaceLegacy

theorem returnIfFailed_eq_some {γ : Type} {state state' : γ} {res : Result} {rest : Option (γ × Result)}
    (h : (if isFailed res then some (state,res) else rest) = some (state',.errNoError)) :
    res = .errNoError ∧ rest = some (state',.errNoError) := by
  by_cases hok : res = .errNoError
  · rw [hok] at h
    exact ⟨hok,h⟩
  · rw [if_pos ((isFailed_iff res).mpr hok),Option.some.injEq,Prod.mk.injEq] at h
    exact absurd h.2 hok

section handles
variable {registry : SignalRegistry} {name other : String} {handle : Nat} {direction : SignalDirection}

section
variable (h : registry.getSignalHandleFromName name direction = some handle)
include h

private theorem mem_of_getSignalHandleFromName :
    ∃ signal ∈ registry.signals, signal.handle = handle ∧ signal.name = name ∧ signal.direction = direction := by
  obtain ⟨signal,hfound,rfl⟩ := Option.map_eq_some_iff.mp h
  have hmatch := find?_some hfound
  rw [Bool.and_eq_true,beq_iff_eq,beq_iff_eq] at hmatch
  exact ⟨signal,mem_of_find?_eq_some hfound,rfl,hmatch.1,hmatch.2⟩

theorem eq_of_getSignalHandleFromName {direction' : SignalDirection}
    (hother : registry.getSignalHandleFromName other direction' = some handle) :
    name = other ∧ direction = direction' := by
  obtain ⟨signal,hmem,hhandle,rfl,rfl⟩ := mem_of_getSignalHandleFromName h
  obtain ⟨signal',hmem',hhandle',rfl,rfl⟩ := mem_of_getSignalHandleFromName hother
  cases inj_on_of_nodup_map registry.nodup hmem hmem' (hhandle.trans hhandle'.symm)
  exact ⟨rfl,rfl⟩

end

theorem getHandleForSignal_eq_some_iff : getHandleForSignal registry name = some handle ↔
    registry.getSignalHandleFromName name .sdInput = some handle ∨
    registry.getSignalHandleFromName name .sdInput = none ∧
        registry.getSignalHandleFromName name .sdOutput = some handle := by
  rw [getHandleForSignal]
  cases registry.getSignalHandleFromName name .sdInput with
  | none => simp
  | some input => simp

theorem eq_of_getHandleForSignal (h : getHandleForSignal registry name = some handle)
    (hother : getHandleForSignal registry other = some handle) : name = other := by
  rcases getHandleForSignal_eq_some_iff.mp h with h | ⟨-,h⟩ <;>
    rcases getHandleForSignal_eq_some_iff.mp hother with hother | ⟨-,hother⟩ <;>
      exact (eq_of_getSignalHandleFromName h hother).1

end handles

namespace HandledWriter
variable {writer : HandledWriter} {sample : StepSample} {samples : List StepSample}

def took (writer : HandledWriter) (samples : List StepSample) : HandledWriter :=
  {writer with queue := writer.queue ++ samples.filter fun sample => sample.signalHandle == writer.signalHandle}

@[simp] theorem signalHandle_write : (writer.write sample).signalHandle = writer.signalHandle := by
  unfold write
  split <;> rfl

theorem took_write : (writer.write sample).took samples = writer.took (sample::samples) := by
  rw [took,took,signalHandle_write,write]
  by_cases hhandle : writer.signalHandle = sample.signalHandle
  · have hbeq : (sample.signalHandle == writer.signalHandle) = true := beq_iff_eq.mpr hhandle.symm
    simp only [if_pos hhandle,filter_cons,hbeq,if_true,append_assoc,singleton_append]
  · have hbeq : (sample.signalHandle == writer.signalHandle) = false := beq_false_of_ne (Ne.symm hhandle)
    simp only [if_neg hhandle,filter_cons,hbeq,Bool.false_eq_true,if_false]

end HandledWriter

namespace JobToStepTrigger
variable {registry : SignalRegistry} {getTypeForSignal : Nat → β} {job : JobToStepTrigger β} {name : String}
  {names : List String} {handle : Nat}
variable {job' : JobToStepTrigger β}

/-- The readers and writers of a job have the handles of their names, each once, and nothing waits. -/
structure Built (registry : SignalRegistry) (job : JobToStepTrigger β) : Prop where
  readers : ∀ reader ∈ job.readers, getHandleForSignal registry reader.name = some reader.signalHandle
  writers : ∀ writer ∈ job.writers, getHandleForSignal registry writer.name = some writer.signalHandle
  readersOnce : (job.readers.map (·.signalHandle)).Nodup
  once : (job.writers.map (·.signalHandle)).Nodup
  idle : ∀ writer ∈ job.writers, writer.queue = []

def capacityOf (job : JobToStepTrigger β) (name : String) : Option Nat :=
  (job.readers.find? fun reader => reader.name == name).map fun reader => reader.backlog.capacity

def Writes (job : JobToStepTrigger β) (name : String) : Prop := ∃ writer ∈ job.writers, writer.name = name

theorem Built.findReader (h : job.Built registry) (hhandle : getHandleForSignal registry name = some handle) :
    job.findReader handle = job.readers.find? fun reader => reader.name == name := by
  refine find?_congr fun reader hreader => ?_
  have hown := h.readers reader hreader
  rw [Bool.eq_iff_iff,beq_iff_eq,beq_iff_eq]
  constructor
  · rintro rfl
    exact eq_of_getHandleForSignal hown hhandle
  · rintro rfl
    exact Option.some.inj (hown.symm.trans hhandle)

theorem Built.findWriter (h : job.Built registry) (hhandle : getHandleForSignal registry name = some handle) :
    (job.findWriter handle).isSome = true ↔ job.Writes name := by
  rw [JobToStepTrigger.findWriter,find?_isSome]
  refine exists_congr fun writer => and_congr_right fun hwriter => ?_
  have hown := h.writers writer hwriter
  rw [beq_iff_eq]
  constructor
  · rintro rfl
    exact eq_of_getHandleForSignal hown hhandle
  · rintro rfl
    exact Option.some.inj (hown.symm.trans hhandle)

theorem of_findReader {reader : HandledReader β} (h : job.findReader handle = some reader) :
    reader ∈ job.readers ∧ reader.signalHandle = handle := by
  have hhandle : (reader.signalHandle == handle) = true :=
    find?_some (p := fun reader : HandledReader β => reader.signalHandle == handle) h
  exact ⟨mem_of_find?_eq_some h,eq_of_beq hhandle⟩

theorem of_findWriter {writer : HandledWriter} (h : job.findWriter handle = some writer) :
    writer ∈ job.writers ∧ writer.signalHandle = handle := by
  have hhandle : (writer.signalHandle == handle) = true :=
    find?_some (p := fun writer : HandledWriter => writer.signalHandle == handle) h
  exact ⟨mem_of_find?_eq_some h,eq_of_beq hhandle⟩

theorem nodup_handles_append {ε : Type} {elements : List ε} {element : ε} {signalHandle : ε → Nat}
    (h : (elements.map signalHandle).Nodup)
    (hnone : elements.find? (fun other => signalHandle other == signalHandle element) = none) :
    ((elements ++ [element]).map signalHandle).Nodup := by
  rw [map_append,nodup_append_comm]
  refine nodup_cons.mpr ⟨fun hmem => ?_,h⟩
  obtain ⟨other,hother,hsame⟩ := mem_map.mp hmem
  exact find?_eq_none.mp hnone other hother (beq_iff_eq.mpr hsame)

theorem Built.addInput (h : job.Built registry) (hres : (job.addInput registry getTypeForSignal name).2 = .errNoError) :
    (job.addInput registry getTypeForSignal name).1.Built registry ∧
    (∀ other, (job.addInput registry getTypeForSignal name).1.capacityOf other =
      if other = name then some ((job.capacityOf name).getD 1) else job.capacityOf other) ∧
    (job.addInput registry getTypeForSignal name).1.writers = job.writers ∧
    (job.addInput registry getTypeForSignal name).1.name = job.name ∧
    (getHandleForSignal registry name).isSome = true := by
  unfold JobToStepTrigger.addInput at hres ⊢
  rcases hhandle : getHandleForSignal registry name with _ | handle
  · rw [hhandle] at hres
    cases hres
  · have hfind := h.findReader hhandle
    dsimp only
    by_cases hnone : (job.findReader handle).isNone
    · rw [if_pos hnone]
      rw [Option.isNone_iff_eq_none] at hnone
      have hfresh := hfind.symm.trans hnone
      refine ⟨⟨?_,h.writers,nodup_handles_append h.readersOnce hnone,h.once,h.idle⟩,fun other => ?_,rfl,rfl,rfl⟩
      · intro reader hreader
        rcases mem_append.mp hreader with hold | hnew
        · exact h.readers reader hold
        · cases mem_singleton.mp hnew
          exact hhandle
      · rw [capacityOf,find?_append,find?_singleton,capacityOf]
        by_cases hother : other = name
        · rw [if_pos hother,hother,hfresh,beq_self_eq_true,if_pos rfl]
          rfl
        · rw [if_neg hother,if_neg (fun heq => hother (eq_of_beq heq).symm),Option.or_none,capacityOf]
    · rw [if_neg hnone]
      refine ⟨h,fun other => ?_,rfl,rfl,rfl⟩
      by_cases hother : other = name
      · rw [hfind,Option.isNone_iff_eq_none] at hnone
        obtain ⟨reader,hreader⟩ := Option.ne_none_iff_exists'.mp hnone
        rw [if_pos hother,hother,capacityOf,hreader]
        rfl
      · rw [if_neg hother]

theorem Built.addOutput (h : job.Built registry) (hres : (job.addOutput registry name).2 = .errNoError) :
    (job.addOutput registry name).1.Built registry ∧
    (∀ other, (job.addOutput registry name).1.Writes other ↔ other = name ∨ job.Writes other) ∧
    (job.addOutput registry name).1.readers = job.readers ∧ (job.addOutput registry name).1.name = job.name ∧
    (getHandleForSignal registry name).isSome = true := by
  unfold JobToStepTrigger.addOutput at hres ⊢
  rcases hhandle : getHandleForSignal registry name with _ | handle
  · rw [hhandle] at hres
    cases hres
  · have hfind := h.findWriter hhandle
    dsimp only
    by_cases hnone : (job.findWriter handle).isNone
    · rw [if_pos hnone]
      rw [Option.isNone_iff_eq_none] at hnone
      refine ⟨⟨h.readers,?_,h.readersOnce,nodup_handles_append h.once hnone,?_⟩,fun other => ?_,rfl,rfl,rfl⟩
      · intro writer hwriter
        rcases mem_append.mp hwriter with hold | hnew
        · exact h.writers writer hold
        · cases mem_singleton.mp hnew
          exact hhandle
      · intro writer hwriter
        rcases mem_append.mp hwriter with hold | hnew
        · exact h.idle writer hold
        · cases mem_singleton.mp hnew
          rfl
      · constructor
        · rintro ⟨writer,hwriter,rfl⟩
          rcases mem_append.mp hwriter with hold | hnew
          · exact .inr ⟨writer,hold,rfl⟩
          · exact .inl (congrArg HandledWriter.name (mem_singleton.mp hnew))
        · rintro (rfl | ⟨writer,hwriter,rfl⟩)
          · exact ⟨_,mem_append_right _ mem_cons_self,rfl⟩
          · exact ⟨writer,mem_append_left _ hwriter,rfl⟩
    · rw [if_neg hnone]
      refine ⟨h,fun other => (or_iff_right_of_imp ?_).symm,rfl,rfl,rfl⟩
      rintro rfl
      exact hfind.mp (Option.isSome_iff_ne_none.mpr fun heq => hnone (Option.isNone_iff_eq_none.mpr heq))

theorem addEach_spec {add : JobToStepTrigger β → String → JobToStepTrigger β × Result}
    {inv : JobToStepTrigger β → Prop} (post : List String → JobToStepTrigger β → JobToStepTrigger β → Prop)
    (hnil : ∀ job, post [] job job)
    (hcons : ∀ job name, inv job → (add job name).2 = .errNoError → inv (add job name).1 ∧
      ∀ names job', post names (add job name).1 job' → post (name::names) job job')
    (h : inv job) (hres : (addEach add job names).2 = .errNoError) :
    inv (addEach add job names).1 ∧ post names job (addEach add job names).1 := by
  induction names generalizing job with
  | nil => exact ⟨h,hnil job⟩
  | cons name names ih =>
    rw [addEach] at hres ⊢
    dsimp only at hres ⊢
    by_cases hfailed : isFailed (add job name).2
    · rw [if_pos hfailed] at hres
      exact absurd hres ((isFailed_iff _).mp hfailed)
    · rw [if_neg hfailed] at hres ⊢
      obtain ⟨hinv,hpost⟩ := hcons job name h (not_not.mp fun hne => hfailed ((isFailed_iff _).mpr hne))
      obtain ⟨hinv',hpost'⟩ := ih hinv hres
      exact ⟨hinv',hpost names _ hpost'⟩

/-- What is added for some inputs and outputs; all names have a handle then. -/
structure Added (registry : SignalRegistry) (ins outs : List String) (job job' : JobToStepTrigger β) : Prop where
  capacity : ∀ other, job'.capacityOf other =
    if other ∈ ins then some ((job.capacityOf other).getD 1) else job.capacityOf other
  writes : ∀ other, job'.Writes other ↔ other ∈ outs ∨ job.Writes other
  name : job'.name = job.name
  ins : ∀ name ∈ ins, (getHandleForSignal registry name).isSome = true
  outs : ∀ name ∈ outs, (getHandleForSignal registry name).isSome = true

theorem Added.refl (registry : SignalRegistry) (job : JobToStepTrigger β) : Added registry [] [] job job where
  capacity _ := (if_neg not_mem_nil).symm
  writes _ := (or_iff_right not_mem_nil).symm
  name := rfl
  ins _ hname := absurd hname not_mem_nil
  outs _ hname := absurd hname not_mem_nil

theorem Added.trans {ins outs ins' outs' : List String} {job' job'' : JobToStepTrigger β}
    (h : Added registry ins outs job job') (h' : Added registry ins' outs' job' job'') :
    Added registry (ins ++ ins') (outs ++ outs') job job'' where
  capacity other := by
    rw [h'.capacity,h.capacity]
    by_cases hin : other ∈ ins
    · rw [if_pos hin,if_pos (mem_append_left _ hin),Option.getD_some,ite_self]
    · rw [if_neg hin]
      simp only [mem_append,hin,false_or]
  writes other := by rw [h'.writes,h.writes,mem_append,or_left_comm,or_assoc]
  name := h'.name.trans h.name
  ins := forall_mem_append.mpr ⟨h.ins,h'.ins⟩
  outs := forall_mem_append.mpr ⟨h.outs,h'.outs⟩

theorem Built.addInputs (h : job.Built registry)
    (hres : (addEach (JobToStepTrigger.addInput registry getTypeForSignal) job names).2 = .errNoError) :
    (addEach (JobToStepTrigger.addInput registry getTypeForSignal) job names).1.Built registry ∧
    Added registry names [] job (addEach (JobToStepTrigger.addInput registry getTypeForSignal) job names).1 := by
  refine addEach_spec (fun names => Added registry names []) (fun job => Added.refl registry job) ?_ h hres
  intro job name h hres
  obtain ⟨hbuilt,hcapacity,hwriters,hname,hsome⟩ := h.addInput hres
  suffices hone : Added registry [name] [] job _ from ⟨hbuilt,fun names job' hadded => hone.trans hadded⟩
  refine ⟨fun other => ?_,fun other => ?_,hname,?_,?_⟩
  · rw [hcapacity]
    by_cases hother : other = name
    · rw [if_pos hother,if_pos (mem_singleton.mpr hother),hother]
    · rw [if_neg hother,if_neg fun hmem => hother (mem_singleton.mp hmem)]
  · rw [Writes,hwriters]
    exact (or_iff_right not_mem_nil).symm
  · exact forall_mem_singleton.mpr hsome
  · exact fun _ hname => absurd hname not_mem_nil

theorem Built.addOutputs (h : job.Built registry)
    (hres : (addEach (JobToStepTrigger.addOutput registry) job names).2 = .errNoError) :
    (addEach (JobToStepTrigger.addOutput registry) job names).1.Built registry ∧
    Added registry [] names job (addEach (JobToStepTrigger.addOutput registry) job names).1 := by
  refine addEach_spec (fun names => Added registry [] names) (fun job => Added.refl registry job) ?_ h hres
  intro job name h hres
  obtain ⟨hbuilt,hwrites,hreaders,hname,hsome⟩ := h.addOutput hres
  suffices hone : Added registry [] [name] job _ from ⟨hbuilt,fun names job' hadded => hone.trans hadded⟩
  refine ⟨fun other => ?_,fun other => ?_,hname,?_,?_⟩
  · rw [capacityOf,hreaders]
    exact (if_neg not_mem_nil).symm
  · rw [hwrites,mem_singleton]
  · exact fun _ hname => absurd hname not_mem_nil
  · exact forall_mem_singleton.mpr hsome

theorem reconfigureDataIn_spec {maxSize queueSize : Nat} {readers readers' : List (HandledReader β)} {res : Result}
    (h : reconfigureDataIn maxSize name queueSize readers = some (readers',res)) :
    readers'.map (fun reader => (reader.signalHandle,reader.name)) =
        readers.map (fun reader => (reader.signalHandle,reader.name)) ∧
    ∀ other, ((readers'.find? fun reader => reader.name == other).map fun reader => reader.backlog.capacity) =
      ((readers.find? fun reader => reader.name == other).map fun reader => reader.backlog.capacity).map
        fun capacity => if other = name then roomFor queueSize else capacity := by
  induction readers generalizing readers' with
  | nil =>
    cases h
    exact ⟨rfl,fun _ => rfl⟩
  | cons reader readers ih =>
    rw [reconfigureDataIn] at h
    by_cases hname : reader.name = name
    · rw [if_pos hname] at h
      split at h
      · cases h
      cases h
      refine ⟨rfl,fun other => ?_⟩
      rw [find?_cons,find?_cons]
      cases hother : reader.name == other with
      | true =>
        show some (reader.backlog.resize queueSize).capacity = some (if other = name then _ else _)
        rw [if_pos ((eq_of_beq hother).symm.trans hname),DataReaderBacklog.capacity_resize]
      | false =>
        have hne : other ≠ name := fun heq => ne_of_beq_false hother (hname.trans heq.symm)
        simp only [if_neg hne,Option.map_id']
    · rw [if_neg hname] at h
      obtain ⟨⟨later,res'⟩,hlater,heq⟩ := Option.map_eq_some_iff.mp h
      cases heq
      obtain ⟨hkeys,hcapacity⟩ := ih hlater
      refine ⟨congrArg ((reader.signalHandle,reader.name) :: ·) hkeys,fun other => ?_⟩
      rw [find?_cons,find?_cons]
      cases hother : reader.name == other with
      | true =>
        show some reader.backlog.capacity = some (if other = name then _ else _)
        rw [if_neg fun heq => hname ((eq_of_beq hother).trans heq)]
      | false => exact hcapacity other

/-- What the loop over the inputs of a participant makes of a job. -/
structure SizesSet (registry : SignalRegistry) (inputs : List (String × GlobalInputConfig))
    (job job' : JobToStepTrigger β) : Prop where
  capacity : ∀ other, job'.capacityOf other =
    match inputs.lookup other with
    | some input => some (roomFor (toSize input.backLogSize))
    | none => job.capacityOf other
  writers : job'.writers = job.writers
  resolved : ∀ input ∈ inputs, (getHandleForSignal registry input.1).isSome = true

theorem Built.setBacklogSizes {maxSize : Nat} {inputs : List (String × GlobalInputConfig)} {job' : JobToStepTrigger β}
    (h : job.Built registry) (hnodup : (inputs.map Prod.fst).Nodup)
    (hres : job.setBacklogSizes maxSize registry getTypeForSignal inputs = some (job',.errNoError)) :
    job'.Built registry ∧ SizesSet registry inputs job job' := by
  induction inputs generalizing job with
  | nil =>
    cases hres
    exact ⟨h,fun _ => rfl,rfl,fun input hinput => absurd hinput not_mem_nil⟩
  | cons input inputs ih =>
    rw [JobToStepTrigger.setBacklogSizes] at hres
    dsimp only at hres
    obtain ⟨hnew,hnodup⟩ := nodup_cons.mp hnodup
    obtain ⟨hok,hres⟩ := returnIfFailed_eq_some hres
    · obtain ⟨hbuilt,hcapacity,hwriters,-,hsome⟩ := h.addInput hok
      obtain ⟨⟨readers,res⟩,hreconfigured,hrest⟩ := Option.bind_eq_some_iff.mp hres
      obtain ⟨hkeys,hresized⟩ := reconfigureDataIn_spec hreconfigured
      have hbuilt' : Built registry {(job.addInput registry getTypeForSignal input.1).1 with readers := readers} := by
        refine ⟨fun reader hreader => ?_,hbuilt.writers,?_,hbuilt.once,hbuilt.idle⟩
        · obtain ⟨old,hold,hsame⟩ := mem_map.mp (hkeys ▸ mem_map_of_mem hreader)
          rw [Prod.mk.injEq] at hsame
          rw [← hsame.1,← hsame.2]
          exact hbuilt.readers old hold
        · have hhandles := congrArg (List.map Prod.fst) hkeys
          rw [map_map,map_map] at hhandles
          exact hhandles.symm ▸ hbuilt.readersOnce
      obtain ⟨hbuilt'',hset⟩ := ih hbuilt' hnodup hrest
      refine ⟨hbuilt'',fun other => ?_,hset.writers.trans hwriters,forall_mem_cons.mpr ⟨hsome,hset.resolved⟩⟩
      have hother : capacityOf {(job.addInput registry getTypeForSignal input.1).1 with readers := readers} other =
          if other = input.1 then some (roomFor (toSize input.2.backLogSize)) else job.capacityOf other := by
        refine (hresized other).trans ?_
        rw [← capacityOf,hcapacity]
        by_cases hname : other = input.1
        · simp only [if_pos hname,Option.map_some]
        · simp only [if_neg hname,Option.map_id']
      rw [hset.capacity,hother,lookup_cons]
      by_cases hname : other = input.1
      · have hlookup : inputs.lookup other = none := by
          rw [lookup_eq_none_iff]
          intro later hlater
          rw [bne_iff_ne]
          rintro rfl
          exact hnew (hname ▸ mem_map_of_mem hlater)
        rw [hlookup,if_pos hname,hname,beq_self_eq_true]
      · rw [beq_false_of_ne hname,if_neg hname]

theorem Built.reconfigure {maxSize : Nat} {participantName : String} {configuration : TimingConfiguration}
    (h : job.Built registry) (hnodup : ∀ participant ∈ configuration.participants.lookup participantName,
      (participant.inputConfigs.map Prod.fst).Nodup)
    (hres : job.reconfigureByTimingConfiguration maxSize registry getTypeForSignal participantName configuration =
      some (job',.errNoError)) :
    ∃ participant ∈ configuration.participants.lookup participantName, ∃ added : JobToStepTrigger β,
      Added registry ((participant.tasks.lookup job.name).elim [] fun task => task.inputs.map Prod.fst)
        ((participant.tasks.lookup job.name).elim [] fun task => task.outputs.map Prod.fst) job added ∧
      job'.Built registry ∧ SizesSet registry participant.inputConfigs added job' := by
  rw [reconfigureByTimingConfiguration] at hres
  rcases hparticipant : configuration.participants.lookup participantName with _ | participant
  · rw [hparticipant] at hres
    cases hres
  · refine ⟨participant,rfl,?_⟩
    have hnodup := hnodup participant hparticipant
    rw [hparticipant] at hres
    dsimp only at hres
    rcases htask : participant.tasks.lookup job.name with _ | task
    · rw [htask] at hres
      exact ⟨job,Added.refl registry job,h.setBacklogSizes hnodup hres⟩
    · rw [htask] at hres
      dsimp only at hres
      -- the cycle time has nothing to do with the readers and writers
      generalize hcycle :
        (if task.cycleTimeSimUs > 0 then {job with cycleSimTimeUs := task.cycleTimeSimUs} else job) = cycled at hres
      have hsame : cycled.readers = job.readers ∧ cycled.writers = job.writers ∧ cycled.name = job.name := by
        rw [← hcycle]
        split <;> exact ⟨rfl,rfl,rfl⟩
      have hbuilt : cycled.Built registry := by
        obtain ⟨hreaders,hwriters,-⟩ := hsame
        exact ⟨hreaders ▸ h.readers,hwriters ▸ h.writers,hreaders ▸ h.readersOnce,hwriters ▸ h.once,hwriters ▸ h.idle⟩
      obtain ⟨hok,hres⟩ := returnIfFailed_eq_some hres
      obtain ⟨hbuilt',hadded⟩ := hbuilt.addInputs hok
      obtain ⟨hok',hres⟩ := returnIfFailed_eq_some hres
      obtain ⟨hbuilt'',hadded'⟩ := hbuilt'.addOutputs hok'
      have hboth := hadded.trans hadded'
      rw [append_nil,nil_append] at hboth
      refine ⟨_,⟨fun other => ?_,fun other => ?_,hboth.name.trans hsame.2.2,hboth.ins,hboth.outs⟩,
        hbuilt''.setBacklogSizes hnodup hres⟩
      · rw [hboth.capacity,capacityOf,capacityOf,hsame.1]
        rfl
      · rw [hboth.writes,Writes,Writes,hsame.2.1]
        rfl

end JobToStepTrigger

namespace TimingInterfaceLegacy
variable {registry : SignalRegistry} {getTypeForSignal : Nat → β} {interface interface' : TimingInterfaceLegacy β}
  {name : String} {config : StepConfig} {maxSize : Nat} {addToComponents : Result}

def participantConfig (interface : TimingInterfaceLegacy β) : Option ParticipantConfig :=
  if interface.timingConfigurationFileLoaded then
    interface.timingConfiguration.participants.lookup interface.moduleName
  else none

def taskConfig (interface : TimingInterfaceLegacy β) (name : String) : Option StepConfig :=
  interface.participantConfig.bind fun participant => participant.tasks.lookup name

def stepInputs (interface : TimingInterfaceLegacy β) (name : String) (config : StepConfig) : List String :=
  config.inputs.map Prod.fst ++ (interface.taskConfig name).elim [] fun task => task.inputs.map Prod.fst

def stepOutputs (interface : TimingInterfaceLegacy β) (name : String) (config : StepConfig) : List String :=
  config.outputs.map Prod.fst ++ (interface.taskConfig name).elim [] fun task => task.outputs.map Prod.fst

def inputConfigs (interface : TimingInterfaceLegacy β) : List (String × GlobalInputConfig) :=
  interface.participantConfig.elim [] ParticipantConfig.inputConfigs

def backlogSize (interface : TimingInterfaceLegacy β) (input : String) : Int :=
  ((interface.inputConfigs.lookup input).map GlobalInputConfig.backLogSize).getD 1

/-- A job with readers and writers for all that is named. -/
structure Named (registry : SignalRegistry) (interface : TimingInterfaceLegacy β) (name : String)
    (config : StepConfig) (job : JobToStepTrigger β) : Prop where
  built : job.Built registry
  capacity : ∀ other, job.capacityOf other =
    match interface.inputConfigs.lookup other with
    | some input => some (roomFor (toSize input.backLogSize))
    | none => if other ∈ interface.stepInputs name config then some 1 else none
  writes : ∀ other, job.Writes other ↔ other ∈ interface.stepOutputs name config
  inputs : ∀ input ∈ interface.stepInputs name config, (getHandleForSignal registry input).isSome = true
  configured : ∀ input ∈ interface.inputConfigs, (getHandleForSignal registry input.1).isSome = true
  outputs : ∀ output ∈ interface.stepOutputs name config, (getHandleForSignal registry output).isSome = true

private theorem named_of_added {added job : JobToStepTrigger β}
    (h : JobToStepTrigger.Added registry (interface.stepInputs name config) (interface.stepOutputs name config)
      (.new name config) added)
    (hbuilt : job.Built registry) (hset : JobToStepTrigger.SizesSet registry interface.inputConfigs added job) :
    Named registry interface name config job where
  built := hbuilt
  capacity other := by
    rw [hset.capacity,h.capacity]
    rfl
  writes other := by
    rw [JobToStepTrigger.Writes,hset.writers]
    refine (h.writes other).trans (or_iff_left ?_)
    exact fun hwrites => hwrites.elim fun _ hwriter => not_mem_nil hwriter.1
  inputs := h.ins
  configured := hset.resolved
  outputs := h.outs

theorem named_of_registerStepListener (hnodup : (interface.inputConfigs.map Prod.fst).Nodup)
    (h : registerStepListener maxSize registry getTypeForSignal interface name config addToComponents =
      some (interface',.errNoError)) :
    ∃ job, interface'.stepTrigger = OrderedMap.assign (name,job) interface.stepTrigger ∧
      Named registry interface name config job := by
  rw [registerStepListener] at h
  dsimp only at h
  have hnew : (JobToStepTrigger.new name config : JobToStepTrigger β).Built registry :=
    ⟨fun _ hmem => absurd hmem not_mem_nil,fun _ hmem => absurd hmem not_mem_nil,nodup_nil,
      nodup_nil,fun _ hmem => absurd hmem not_mem_nil⟩
  obtain ⟨hok,h⟩ := returnIfFailed_eq_some h
  obtain ⟨hbuilt,hadded⟩ := hnew.addInputs hok
  obtain ⟨hok',h⟩ := returnIfFailed_eq_some h
  obtain ⟨hbuilt',hadded'⟩ := hbuilt.addOutputs hok'
  have hboth := hadded.trans hadded'
  rw [append_nil,nil_append] at hboth
  obtain ⟨⟨job,res⟩,hreconfigured,h⟩ := Option.bind_eq_some_iff.mp h
  obtain ⟨rfl,h⟩ := returnIfFailed_eq_some h
  obtain ⟨-,h⟩ := returnIfFailed_eq_some h
  cases h
  refine ⟨job,rfl,?_⟩
  rw [reconfigureByTimingConfiguration] at hreconfigured
  by_cases hloaded : interface.timingConfigurationFileLoaded
  · rw [if_pos hloaded] at hreconfigured
    have hconfig : interface.participantConfig =
        interface.timingConfiguration.participants.lookup interface.moduleName := if_pos hloaded
    obtain ⟨participant,hparticipant,added,hstep,hjob,hset⟩ := hbuilt'.reconfigure (by
      intro participant hparticipant
      rw [inputConfigs,hconfig,Option.mem_def.mp hparticipant] at hnodup
      exact hnodup) hreconfigured
    rw [hboth.name] at hstep
    have hall := hboth.trans hstep
    have htask : interface.taskConfig name =
        participant.tasks.lookup (JobToStepTrigger.new name config : JobToStepTrigger β).name := by
      rw [taskConfig,hconfig,Option.mem_def.mp hparticipant]
      rfl
    have hinputs : interface.inputConfigs = participant.inputConfigs := by
      rw [inputConfigs,hconfig,Option.mem_def.mp hparticipant]
      rfl
    rw [← hinputs] at hset
    rw [← htask] at hall
    exact named_of_added hall hjob hset
  · rw [if_neg hloaded] at hreconfigured
    cases hreconfigured
    have hconfig : interface.participantConfig = none := if_neg hloaded
    have hinputs : interface.inputConfigs = [] := by rw [inputConfigs,hconfig]; rfl
    refine named_of_added ?_ hbuilt' ⟨fun _ => ?_,rfl,fun input hinput => ?_⟩
    · have hall := hboth.trans (JobToStepTrigger.Added.refl registry _)
      rw [stepInputs,stepOutputs,taskConfig,hconfig]
      exact hall
    · rw [hinputs]
      rfl
    · rw [hinputs] at hinput
      exact absurd hinput not_mem_nil

end TimingInterfaceLegacy

end FepParticipant.Timing
