import FepParticipant.Result
import Mathlib.Data.List.Basic

/-! What registering a signal and a data listener does to the signal registry, to the data access and
to the receivers of the transmission adapter. -/
namespace FepParticipant.Signals

/-- `tSignalDirection`. -/
inductive SignalDirection where
  | sdUndefined
  | sdInput
  | sdOutput
  deriving DecidableEq

/-- The options of `cUserSignalOptions` that decide a registration. -/
structure UserSignalOptions where
  strSignalName : String
  strSignalType : String
  eDirection : SignalDirection
  bIsRaw : Bool

/-- `CheckValidity`. -/
def UserSignalOptions.checkValidity (options : UserSignalOptions) : Bool :=
  !options.strSignalName.isEmpty &&
    (if options.bIsRaw then options.strSignalType.isEmpty else !options.strSignalType.isEmpty) &&
    options.eDirection != .sdUndefined

/-- A `tSignal` of the list, with the address of its list node. -/
structure RegisteredSignal where
  address : Nat
  strSignalName : String
  strSignalType : String
  eDirection : SignalDirection
  bIsRaw : Bool
  bIsMapped : Bool
  deriving DecidableEq

inductive UserDataListener where
  | dataAccess
  | user (number : Nat)
  deriving DecidableEq

/-- The registry's list and handle map; the data access's sample buffer handles, listener adapters and signal
counters; the receivers of the transmission adapter. -/
structure SignalComponents where
  bAllowRegistration : Bool
  lstSignals : List RegisteredSignal
  mapHandles : List (Nat × Nat)
  nextAddress : Nat
  sampleBuffers : List Nat
  listenerAdapters : List (UserDataListener × Nat)
  signalCounters : List Nat
  receivers : List Nat

/-- What a registration is answered: the type's resolution, the size's result, those of the mapping and the
transmission adapter, the handle, and the result for the data access as its listener. -/
structure SignalAnswers where
  resolved : Bool
  size : Result
  mapping : Result
  adapter : Result
  handle : Nat
  listening : Result

namespace SignalComponents
variable (options : UserSignalOptions)

/-- The components when the participant has been created. -/
def new : SignalComponents := ⟨true,[],[],0,[],[],[],[]⟩

variable (components : SignalComponents)

/-- `FindSignal` by name and direction. -/
def findSignal (strSignalName : String) (eDirection : SignalDirection) : Option RegisteredSignal :=
  components.lstSignals.find? fun signal => signal.strSignalName == strSignalName && signal.eDirection == eDirection

/-- `FindSignal` by handle. -/
def findHandle (hSignalHandle : Nat) : Option RegisteredSignal :=
  (components.mapHandles.find? fun entry => entry.1 == hSignalHandle).bind fun entry =>
    components.lstSignals.find? fun signal => signal.address == entry.2

def isMappedSignal (hSignalHandle : Nat) : Bool :=
  (components.findHandle hSignalHandle).any fun signal => signal.bIsMapped

/-- `cDataAccess::RegisterDataListener`; the transmission adapter finds its receivers only. -/
def registerDataListener (listener : UserDataListener) (hSignalHandle : Nat) (answer : Result) :
    SignalComponents × Result :=
  if components.isMappedSignal hSignalHandle then (components,answer)
  else if hSignalHandle ∉ components.receivers then (components,.errNotFound)
  else if isOk answer then
    ({components with listenerAdapters := components.listenerAdapters ++ [(listener,hSignalHandle)]},answer)
  else (components,answer)

/-- `cDataAccess::UnregisterDataListener`; the adapter is gone whatever the transmission adapter answers. -/
def unregisterDataListener (listener : UserDataListener) (hSignalHandle : Nat) (answer : Result) :
    SignalComponents × Result :=
  if components.isMappedSignal hSignalHandle then (components,answer)
  else if (listener,hSignalHandle) ∈ components.listenerAdapters then
    ({components with listenerAdapters := components.listenerAdapters.erase (listener,hSignalHandle)},answer)
  else (components,.errNotFound)

/-- `cDataAccess::SignalRegistered`: an input signal gets a sample buffer, and the data access listens to it. Only an
input signal has a sample backlog. -/
def signalRegistered (hSignal : Nat) (listening : Result) : SignalComponents :=
  if (components.findHandle hSignal).any fun signal => signal.eDirection == .sdInput then
    ({ components with
      sampleBuffers :=
        if hSignal ∈ components.sampleBuffers then components.sampleBuffers
        else hSignal::components.sampleBuffers }.registerDataListener .dataAccess hSignal listening).1
  else components

/-- `cDataAccess::SignalUnregistered`: every listener of the signal is unregistered, then its buffer deleted. -/
def signalUnregistered (hSignal : Nat) : SignalComponents :=
  let lstTemp := components.listenerAdapters.filter fun adapter => adapter.2 == hSignal
  let unregistered := lstTemp.foldl
    (fun components adapter => (components.unregisterDataListener adapter.1 hSignal .errNoError).1) components
  {unregistered with sampleBuffers := unregistered.sampleBuffers.filter fun handle => handle != hSignal}

/-- What `cDataAccess::RegisterSignal` answers for an input signal, and whether the signal is mapped. -/
def registerInput (bIsRaw : Bool) (answers : SignalAnswers) : Result × Bool :=
  if bIsRaw then (answers.adapter,false)
  else if answers.mapping = .errNotFound then (answers.adapter,false)
  else (answers.mapping,isOk answers.mapping)

/-- What `cDataAccess::RegisterSignal` answers, and whether the signal is mapped. -/
def registerResult (answers : SignalAnswers) : Result × Bool :=
  match options.eDirection with
  | .sdInput => registerInput options.bIsRaw answers
  | .sdOutput => (answers.adapter,false)
  | .sdUndefined => (.errPointer,false)

/-- `InternalRegisterSignal`, or the result with which it fails. -/
def internalRegisterSignal (size : Result) : SignalComponents × Result :=
  if (components.findSignal options.strSignalName options.eDirection).isSome then (components,.errResourceInUse)
  else if !options.bIsRaw && isFailed size then (components,size)
  else
    ({ components with
      lstSignals := components.lstSignals ++ [⟨components.nextAddress,options.strSignalName,options.strSignalType,
        options.eDirection,options.bIsRaw,false⟩]
      nextAddress := components.nextAddress + 1 },.errNoError)

/-- `InternalUnregisterSignal`: the handles and the node of the signal are erased. -/
def internalUnregisterSignal (address : Nat) : SignalComponents :=
  { components with
    mapHandles := components.mapHandles.filter fun entry => entry.2 != address
    lstSignals := components.lstSignals.eraseP fun signal => signal.address == address }

/-- `oSignal.bIsMapped = true`. -/
def setMapped (address : Nat) : SignalComponents :=
  { components with
    lstSignals := components.lstSignals.map fun signal =>
      if signal.address = address then {signal with bIsMapped := true} else signal }

/-- `RegisterAtDataAccess` of a signal that is in the list. -/
def registerAtDataAccess (address : Nat) (answers : SignalAnswers) :
    SignalComponents × Result :=
  let answered := registerResult options answers
  if isFailed answered.1 then (components.internalUnregisterSignal address,answered.1)
  else
    let kept := if answered.2 then components.setMapped address else components
    let registered := match options.eDirection, answered.2 with
      | .sdInput, false => {kept with receivers := answers.handle::kept.receivers}
      | .sdOutput, _ => {kept with signalCounters := answers.handle::kept.signalCounters}
      | _, _ => kept
    let associated := {registered with mapHandles := registered.mapHandles ++ [(answers.handle,address)]}
    (associated.signalRegistered answers.handle answers.listening,answered.1)

/-- `RegisterSignal`; distinct live signals are given distinct handles. -/
def registerSignal (answers : SignalAnswers) : Option (SignalComponents × Result) :=
  if answers.handle ∈ components.mapHandles.map Prod.fst then none
  else if !components.bAllowRegistration then some (components,.errInvalidState)
  else if !options.checkValidity then some (components,.errInvalidArg)
  else if !options.bIsRaw && !answers.resolved then some (components,.errInvalidType)
  else
    let (internal,nResult) := components.internalRegisterSignal options answers.size
    match internal.findSignal options.strSignalName options.eDirection with
    | none => some (internal,.errUnexpected)
    | some signal =>
      if isFailed nResult then some (internal,nResult)
      else some (internal.registerAtDataAccess options signal.address answers)

/-- `cDataAccess::UnregisterSignal`; the answer is that of the mapping or of the transmission adapter. -/
def unregisterAtDataAccess (signal : RegisteredSignal) (hSignalHandle : Nat) (answer : Result) :
    SignalComponents × Result :=
  match signal.eDirection with
  | .sdOutput =>
    ({components with signalCounters := components.signalCounters.filter fun handle => handle != hSignalHandle},
      .errNoError)
  | .sdInput =>
    let unregistered := components.signalUnregistered hSignalHandle
    if !signal.bIsMapped && isOk answer then
      ({unregistered with receivers := unregistered.receivers.filter fun handle => handle != hSignalHandle},answer)
    else (unregistered,answer)
  | .sdUndefined => (components,.errNoError)

/-- `UnregisterSignal`. -/
def unregisterSignal (hSignalHandle : Nat) (answer : Result) : SignalComponents × Result :=
  if !components.bAllowRegistration then (components,.errInvalidState)
  else match components.findHandle hSignalHandle with
    | none => (components,.errNotFound)
    | some signal =>
      if signal.eDirection = .sdUndefined then (components,.errUnexpected)
      else
        let (unregistered,nResult) := components.unregisterAtDataAccess signal hSignalHandle answer
        if isFailed nResult then (unregistered,nResult)
        else (unregistered.internalUnregisterSignal signal.address,.errNoError)

end SignalComponents

inductive SignalCall where
  | registerSignal (options : UserSignalOptions) (answers : SignalAnswers)
  | unregisterSignal (hSignalHandle : Nat) (answer : Result)
  | registerDataListener (number : Nat) (hSignalHandle : Nat) (answer : Result)
  | unregisterDataListener (number : Nat) (hSignalHandle : Nat) (answer : Result)
  | setRegistrationAllowed (bAllow : Bool)

namespace SignalComponents

def call (components : SignalComponents) : SignalCall → Option (SignalComponents × Result)
  | .registerSignal options answers => components.registerSignal options answers
  | .unregisterSignal hSignalHandle answer => some (components.unregisterSignal hSignalHandle answer)
  | .registerDataListener number hSignalHandle answer =>
    some (components.registerDataListener (.user number) hSignalHandle answer)
  | .unregisterDataListener number hSignalHandle answer =>
    some (components.unregisterDataListener (.user number) hSignalHandle answer)
  | .setRegistrationAllowed bAllow => some ({components with bAllowRegistration := bAllow},.errNoError)

def step (components : SignalComponents) (call : SignalCall) : Option SignalComponents :=
  (components.call call).map Prod.fst

end SignalComponents
end FepParticipant.Signals
