import FepParticipant.Signals.SignalComponents

/-! The data registry of FEP 2, with the signal registry and the data access as it sees them. -/
namespace FepParticipant.DataRegistry
open Signals (SignalDirection)

structure StreamType where
  metaTypeName : String
  properties : List (String × String)
  deriving DecidableEq

/-- `meta_type_raw`. -/
def metaTypeRaw : String := "anonymous"

def metaTypeDdl : String := "ddl"

namespace StreamType

/-- A property that is not set is empty. -/
def getProperty (type : StreamType) (name : String) : String :=
  ((type.properties.find? fun property => property.1 == name).map Prod.snd).getD ""

/-- `operator==`: the properties of the right type may be more than those of the left. -/
def isEqual (left right : StreamType) : Bool :=
  left.metaTypeName == right.metaTypeName &&
    left.properties.all fun property => property.2 == right.getProperty property.1

end StreamType

/-- `isSupportedMetaType` of the registry's types. -/
def isSupportedMetaType (type : StreamType) : Bool :=
  type.metaTypeName == metaTypeRaw || type.metaTypeName == metaTypeDdl

inductive Registrant where
  | dataRegistry
  | other
  deriving DecidableEq

structure RegisteredSignal where
  handle : Nat
  name : String
  direction : SignalDirection
  registrant : Registrant
  deriving DecidableEq

structure SignalAccess where
  bAllowRegistration : Bool
  signals : List RegisteredSignal
  listeners : List (Nat × Nat)
  deriving DecidableEq

/-- What the calls for a data signal are answered: for its description, type, registration and handle, listener,
pool samples and unregistration. -/
structure SignalAnswers where
  description : Result
  resolving : Result
  registering : Result
  handle : Nat
  listening : Result
  sample : Result
  unregistering : Result

namespace SignalAccess
variable (access : SignalAccess)

def getSignalHandleFromName (name : String) (direction : SignalDirection) : Option Nat :=
  (access.signals.find? fun signal => signal.name == name && signal.direction == direction).map (·.handle)

/-- `RegisterSignal`; no signal is given the handle of another one. -/
def registerSignal (name : String) (direction : SignalDirection) (registrant : Registrant) (answer : Result)
    (handle : Nat) : SignalAccess × Result :=
  if !access.bAllowRegistration then (access,.errInvalidState)
  else if (access.getSignalHandleFromName name direction).isSome then (access,.errResourceInUse)
  else if isFailed answer then (access,answer)
  else if handle ∈ access.signals.map (·.handle) then (access,.errUnexpected)
  else ({access with signals := access.signals ++ [⟨handle,name,direction,registrant⟩]},.errNoError)

/-- `UnregisterSignal`: the listeners of the signal are unregistered first. -/
def unregisterSignal (handle : Nat) (answer : Result) : SignalAccess × Result :=
  if !access.bAllowRegistration then (access,.errInvalidState)
  else if handle ∉ access.signals.map (·.handle) then (access,.errNotFound)
  else
    let unlistened := {access with listeners := access.listeners.filter fun listener => listener.2 != handle}
    if isFailed answer then (unlistened,answer)
    else ({unlistened with signals := unlistened.signals.filter fun signal => signal.handle != handle},.errNoError)

def registerDataListener (object handle : Nat) (answer : Result) : SignalAccess × Result :=
  if isFailed answer then (access,answer)
  else ({access with listeners := access.listeners ++ [(object,handle)]},.errNoError)

/-- `UnregisterDataListener`: the first occurrence is removed. -/
def unregisterDataListener (object handle : Nat) : SignalAccess :=
  {access with listeners := access.listeners.erase (object,handle)}

end SignalAccess

structure DataSignal where
  name : String
  type : StreamType
  signalHandle : Option Nat
  ddlWasRegisteredAlready : Bool
  itsMySignalHandle : Bool
  deriving DecidableEq

namespace DataSignal
variable (signal : DataSignal)

def new (name : String) (type : StreamType) : DataSignal := ⟨name,type,none,false,true⟩

/-- `registerDDLDescription`; a description that was registered stays registered. -/
def registerDDLDescription (answers : SignalAnswers) : DataSignal × Result :=
  if signal.type.metaTypeName != metaTypeDdl then (signal,.errInvalidType)
  else if !signal.ddlWasRegisteredAlready &&
      (signal.type.getProperty "ddldescription" != "" || signal.type.getProperty "ddlfileref" != "") then
    ({signal with ddlWasRegisteredAlready := isOk answers.description},answers.description)
  else (signal,answers.resolving)

def acquireHandle (direction : SignalDirection) (access : SignalAccess)
    (answers : SignalAnswers) : DataSignal × SignalAccess × Result :=
  match access.getSignalHandleFromName signal.name direction with
  | some handle => ({signal with signalHandle := some handle, itsMySignalHandle := false},access,.errNoError)
  | none =>
    let (access,res) := access.registerSignal signal.name direction .dataRegistry answers.registering answers.handle
    if isFailed res then ({signal with signalHandle := none, itsMySignalHandle := true},access,res)
    else ({signal with signalHandle := some answers.handle},access,res)

def releaseHandle (access : SignalAccess) (answers : SignalAnswers) :
    DataSignal × SignalAccess :=
  match signal.signalHandle with
  | none => (signal,access)
  | some handle =>
    ({signal with signalHandle := none, itsMySignalHandle := true},
      if signal.itsMySignalHandle then (access.unregisterSignal handle answers.unregistering).1 else access)

def isSupported : Bool := isSupportedMetaType signal.type

end DataSignal

/-- The loop that erases what is marked steps over the element behind an erased one. -/
def eraseMarked {α : Type} (isMarkedForDeletion : α → Bool) : List α → List α
  | [] => []
  | [item] => if isMarkedForDeletion item then [] else [item]
  | item::next::rest =>
    if isMarkedForDeletion item then next::eraseMarked isMarkedForDeletion rest
    else item::eraseMarked isMarkedForDeletion (next::rest)

/-- A reader that was created; a reference to it marks it for deletion when it is released. -/
structure DataReader where
  reference : Nat
  capacity : Nat
  preAllocSize : Nat
  markedForDeletion : Bool
  deriving DecidableEq

/-- A `DataSignalIn` at its address, with the sizes of the samples in its pool. -/
structure DataSignalIn extends DataSignal where
  object : Nat
  listeners : List Nat
  createdReaders : List DataReader
  samplePool : List Nat
  deriving DecidableEq

namespace DataSignalIn
variable (signal : DataSignalIn)

/-- How many samples the pool is to have: each queue uses one more than its capacity. -/
def poolSize : Nat := signal.createdReaders.foldl (fun count reader => count + reader.capacity + 1) 0

/-- How large the samples are; a reader without a size makes them dynamic. -/
def maxPreSize : Nat :=
  if signal.createdReaders.any fun reader => reader.preAllocSize == 0 then 0
  else
    signal.createdReaders.foldl (fun size reader => if size < reader.preAllocSize then reader.preAllocSize else size) 0

/-- `DataSampleFEP2Pool::init`. -/
def initPool (answer : Result) : DataSignalIn × Result :=
  if 0 < signal.poolSize then
    if isFailed answer then ({signal with samplePool := []},answer)
    else
      ({signal with samplePool := signal.samplePool ++ List.replicate signal.poolSize signal.maxPreSize},.errNoError)
  else (signal,.errNoError)

def listen (handle : Nat) (access : SignalAccess) (answers : SignalAnswers) :
    DataSignalIn × SignalAccess × Result :=
  let (access,res) := access.registerDataListener signal.object handle answers.listening
  if isFailed res then
    let (released,access) := signal.releaseHandle access answers
    ({signal with toDataSignal := released},access,res)
  else
    let (signal,res) := signal.initPool answers.sample
    (signal,access,res)

def registerAtSignalRegistry (access : SignalAccess) (answers : SignalAnswers) :
    DataSignalIn × SignalAccess × Result :=
  if !signal.isSupported then (signal,access,.errInvalidType)
  else
    let (acquired,access,res) := signal.acquireHandle .sdInput access answers
    let signal := {signal with toDataSignal := acquired}
    match acquired.signalHandle with
    | none => (signal,access,res)
    | some handle => signal.listen handle access answers

def unregisterFromSignalRegistry (access : SignalAccess) (answers : SignalAnswers) :
    DataSignalIn × SignalAccess :=
  let access := match signal.signalHandle with
    | none => access
    | some handle => access.unregisterDataListener signal.object handle
  let (released,access) := signal.releaseHandle access answers
  ({ signal with
      toDataSignal := released
      samplePool := []
      createdReaders := eraseMarked (·.markedForDeletion) signal.createdReaders },access)

end DataSignalIn

/-- A writer that was created; one without a queue size is dynamic. -/
structure DataWriter where
  reference : Nat
  queueSize : Option Nat
  preAllocatedSize : Nat
  signalHandle : Option Nat
  markedForDeletion : Bool
  deriving DecidableEq

/-- `init`, which never fails. -/
def DataWriter.init (writer : DataWriter) (signalHandle : Option Nat) : DataWriter × Result :=
  ({writer with signalHandle := signalHandle},.errNoError)

def DataWriter.deinit (writer : DataWriter) : DataWriter := {writer with signalHandle := none}

structure DataSignalOut extends DataSignal where
  createdWriters : List DataWriter
  deriving DecidableEq

namespace DataSignalOut

def initWriters (signalHandle : Option Nat) : List DataWriter → Result → List DataWriter × Result
  | [], res => ([],res)
  | writer::writers, _ =>
    let (writer,res) := writer.init signalHandle
    if isFailed res then (writer::writers,res)
    else
      let (writers,res) := initWriters signalHandle writers res
      (writer::writers,res)

def registerAtSignalRegistry (signal : DataSignalOut) (access : SignalAccess) (answers : SignalAnswers) :
    DataSignalOut × SignalAccess × Result :=
  if !signal.isSupported then (signal,access,.errInvalidType)
  else
    let (acquired,access,res) := signal.acquireHandle .sdOutput access answers
    let (writers,res) := initWriters acquired.signalHandle signal.createdWriters res
    ({signal with toDataSignal := acquired, createdWriters := writers},access,res)

def unregisterFromSignalRegistry (signal : DataSignalOut) (access : SignalAccess) (answers : SignalAnswers) :
    DataSignalOut × SignalAccess :=
  let (released,access) := signal.releaseHandle access answers
  ({ signal with
      toDataSignal := released
      createdWriters := eraseMarked (·.markedForDeletion) (signal.createdWriters.map DataWriter.deinit) },access)

end DataSignalOut

abbrev Answers := SignalDirection → String → SignalAnswers

/-- The two maps, what they work on, and the next address of an object. -/
structure DataRegistryFEP2 where
  ins : List DataSignalIn
  outs : List DataSignalOut
  access : SignalAccess
  nextAddress : Nat
  deriving DecidableEq

section loops
variable {α β : Type} (register : α → β → α × β × Result)

/-- A loop over a map that ends with the first failure. -/
def untilFailure : List α → β → List α × β × Result
  | [], state => ([],state,.errNoError)
  | item::items, state =>
    let (item,state,res) := register item state
    if isFailed res then (item::items,state,res)
    else
      let (items,state,res) := untilFailure items state
      (item::items,state,res)

/-- A loop over a whole map. -/
def forEach (unregister : α → β → α × β) : List α → β → List α × β
  | [], state => ([],state)
  | item::items, state =>
    let (item,state) := unregister item state
    let (items,state) := forEach unregister items state
    (item::items,state)

end loops

namespace DataRegistryFEP2
variable (registry : DataRegistryFEP2)
variable (name : String)

def new : DataRegistryFEP2 := ⟨[],[],⟨true,[],[]⟩,0⟩

def registerDescription (answers : String → SignalAnswers) (signal : DataSignal) : DataSignal × Result :=
  if signal.type.metaTypeName == metaTypeDdl then signal.registerDDLDescription (answers signal.name)
  else (signal,.errNoError)

def registerInDescriptions (answers : Answers) : DataRegistryFEP2 × Result :=
  let (ins,_,res) := untilFailure (fun (signal : DataSignalIn) (_ : Unit) =>
    let (registered,res) := registerDescription (answers .sdInput) signal.toDataSignal
    ({signal with toDataSignal := registered},(),res)) registry.ins ()
  ({registry with ins := ins},res)

def registerOutDescriptions (answers : Answers) : DataRegistryFEP2 × Result :=
  let (outs,_,res) := untilFailure (fun (signal : DataSignalOut) (_ : Unit) =>
    let (registered,res) := registerDescription (answers .sdOutput) signal.toDataSignal
    ({signal with toDataSignal := registered},(),res)) registry.outs ()
  ({registry with outs := outs},res)

def registerIns (answers : Answers) : DataRegistryFEP2 × Result :=
  let (ins,access,res) := untilFailure (fun signal access =>
    signal.registerAtSignalRegistry access (answers .sdInput signal.name)) registry.ins registry.access
  ({registry with ins := ins, access := access},res)

def registerOuts (answers : Answers) : DataRegistryFEP2 × Result :=
  let (outs,access,res) := untilFailure (fun signal access =>
    signal.registerAtSignalRegistry access (answers .sdOutput signal.name)) registry.outs registry.access
  ({registry with outs := outs, access := access},res)

/-- `unregisterFromSignalRegistry`. -/
def unregisterFromSignalRegistry (answers : Answers) : DataRegistryFEP2 :=
  let (outs,access) := forEach (fun (signal : DataSignalOut) access =>
    signal.unregisterFromSignalRegistry access (answers .sdOutput signal.name)) registry.outs registry.access
  let (ins,access) := forEach (fun (signal : DataSignalIn) access =>
    signal.unregisterFromSignalRegistry access (answers .sdInput signal.name)) registry.ins access
  {registry with ins := ins, outs := outs, access := access}

def registerSignals (answers : Answers) : DataRegistryFEP2 × Result :=
  let (inned,res) := registry.registerIns answers
  if isFailed res then (inned.unregisterFromSignalRegistry answers,res)
  else
    let (outed,res) := inned.registerOuts answers
    if isFailed res then (outed.unregisterFromSignalRegistry answers,res)
    else (outed,.errNoError)

/-- `ready`; a description that cannot be registered ends it without a rollback. -/
def ready (answers : Answers) : DataRegistryFEP2 × Result :=
  let (described,res) := registry.registerInDescriptions answers
  if isFailed res then (described,res)
  else
    let (described,res) := described.registerOutDescriptions answers
    if isFailed res then (described,res)
    else described.registerSignals answers

def deinitializing (answers : Answers) : DataRegistryFEP2 × Result :=
  (registry.unregisterFromSignalRegistry answers,.errNoError)

/-- `addDataIn`. -/
def registerDataIn (type : StreamType) : DataRegistryFEP2 × Result :=
  if !isSupportedMetaType type then (registry,.errInvalidType)
  else match registry.ins.find? fun signal => signal.name == name with
    | some found => (registry,if found.type.isEqual type then .errNoError else .errInvalidType)
    | none =>
      ({ registry with
          ins := registry.ins ++ [⟨.new name type,registry.nextAddress,[],[],[]⟩]
          nextAddress := registry.nextAddress + 1 },.errNoError)

def registerDataOut (type : StreamType) : DataRegistryFEP2 × Result :=
  if !isSupportedMetaType type then (registry,.errInvalidType)
  else match registry.outs.find? fun signal => signal.name == name with
    | some found => (registry,if found.type.isEqual type then .errNoError else .errInvalidType)
    | none => ({registry with outs := registry.outs ++ [⟨.new name type,[]⟩]},.errNoError)

/-- `removeDataIn`: the data signal is destroyed, whatever it holds. -/
def unregisterDataIn : DataRegistryFEP2 × Result :=
  if registry.ins.any fun signal => signal.name == name then
    ({registry with ins := registry.ins.filter fun signal => signal.name != name},.errNoError)
  else (registry,.errNotFound)

def unregisterDataOut : DataRegistryFEP2 × Result :=
  if registry.outs.any fun signal => signal.name == name then
    ({registry with outs := registry.outs.filter fun signal => signal.name != name},.errNoError)
  else (registry,.errNotFound)

def modifyIn (change : DataSignalIn → DataSignalIn) : DataRegistryFEP2 :=
  {registry with ins := registry.ins.map fun signal => if signal.name = name then change signal else signal}

def modifyOut (change : DataSignalOut → DataSignalOut) : DataRegistryFEP2 :=
  {registry with outs := registry.outs.map fun signal => if signal.name = name then change signal else signal}

/-- `getReader`; the reference is the address of the reader, whose queue holds at least one item. -/
def getReader (queueSize preAllocatedSize : Nat) : DataRegistryFEP2 :=
  { registry.modifyIn name fun signal => { signal with
      createdReaders := signal.createdReaders ++
        [⟨registry.nextAddress,if queueSize = 0 then 1 else queueSize,preAllocatedSize,false⟩] } with
    nextAddress := registry.nextAddress + 1 }

def getWriter (queueSize : Option Nat) (preAllocatedSize : Nat) : DataRegistryFEP2 :=
  { registry.modifyOut name fun signal => { signal with
      createdWriters :=
        signal.createdWriters ++ [⟨registry.nextAddress,queueSize,preAllocatedSize,none,false⟩] } with
    nextAddress := registry.nextAddress + 1 }

/-- The destructor of a `DataReaderFEP2Ref`. -/
def releaseReader (reference : Nat) : DataRegistryFEP2 :=
  { registry with
    ins := registry.ins.map fun signal => { signal with
      createdReaders := signal.createdReaders.map fun reader =>
        if reader.reference = reference then {reader with markedForDeletion := true} else reader } }

def releaseWriter (reference : Nat) : DataRegistryFEP2 :=
  { registry with
    outs := registry.outs.map fun signal => { signal with
      createdWriters := signal.createdWriters.map fun writer =>
        if writer.reference = reference then {writer with markedForDeletion := true} else writer } }

/-- `registerDataReceiveListener`; a listener is registered once. -/
def registerDataReceiveListener (listener : Nat) : DataRegistryFEP2 × Result :=
  if registry.ins.any fun signal => signal.name == name then
    (registry.modifyIn name fun signal => { signal with
      listeners := if listener ∈ signal.listeners then signal.listeners else signal.listeners ++ [listener] },
      .errNoError)
  else (registry,.errNotFound)

def unregisterDataReceiveListener (listener : Nat) : DataRegistryFEP2 × Result :=
  if registry.ins.any fun signal => signal.name == name then
    (registry.modifyIn name fun signal => {signal with listeners := signal.listeners.erase listener},.errNoError)
  else (registry,.errNotFound)

end DataRegistryFEP2

inductive DataRegistryCall where
  | registerDataIn (name : String) (type : StreamType)
  | registerDataOut (name : String) (type : StreamType)
  | unregisterDataIn (name : String)
  | unregisterDataOut (name : String)
  | getReader (name : String) (queueSize preAllocatedSize : Nat)
  | getWriter (name : String) (queueSize : Option Nat) (preAllocatedSize : Nat)
  | releaseReader (reference : Nat)
  | releaseWriter (reference : Nat)
  | registerDataReceiveListener (name : String) (listener : Nat)
  | unregisterDataReceiveListener (name : String) (listener : Nat)
  | ready (answers : Answers)
  | deinitializing (answers : Answers)

/-- A call on the data registry; or somebody else registers or unregisters a signal, registration is allowed or not,
or the maps are reordered. -/
inductive DataRegistryAction where
  | call (call : DataRegistryCall)
  | othersRegister (name : String) (direction : SignalDirection) (answer : Result) (handle : Nat)
  | othersUnregister (handle : Nat) (answer : Result)
  | allowRegistration (bAllow : Bool)
  | rehash (ins : List DataSignalIn) (outs : List DataSignalOut)

namespace DataRegistryFEP2

def call (registry : DataRegistryFEP2) : DataRegistryCall → DataRegistryFEP2 × Result
  | .registerDataIn name type => registry.registerDataIn name type
  | .registerDataOut name type => registry.registerDataOut name type
  | .unregisterDataIn name => registry.unregisterDataIn name
  | .unregisterDataOut name => registry.unregisterDataOut name
  | .getReader name queueSize preAllocatedSize => (registry.getReader name queueSize preAllocatedSize,.errNoError)
  | .getWriter name queueSize preAllocatedSize => (registry.getWriter name queueSize preAllocatedSize,.errNoError)
  | .releaseReader reference => (registry.releaseReader reference,.errNoError)
  | .releaseWriter reference => (registry.releaseWriter reference,.errNoError)
  | .registerDataReceiveListener name listener => registry.registerDataReceiveListener name listener
  | .unregisterDataReceiveListener name listener => registry.unregisterDataReceiveListener name listener
  | .ready answers => registry.ready answers
  | .deinitializing answers => registry.deinitializing answers

def step (registry : DataRegistryFEP2) : DataRegistryAction → Option DataRegistryFEP2
  | .call call => some (registry.call call).1
  | .othersRegister name direction answer handle =>
    some {registry with access := (registry.access.registerSignal name direction .other answer handle).1}
  | .othersUnregister handle answer =>
    some {registry with access := (registry.access.unregisterSignal handle answer).1}
  | .allowRegistration bAllow => some {registry with access := {registry.access with bAllowRegistration := bAllow}}
  | .rehash ins outs =>
    if ins.isPerm registry.ins && outs.isPerm registry.outs then some {registry with ins := ins, outs := outs}
    else none

end DataRegistryFEP2
end FepParticipant.DataRegistry
