import FepParticipant.DataRegistry.MarkedForDeletion
import FepParticipant.DataRegistry.SignalOwnership

/-! The registration of one data signal in a call for all of them: what it adds to the signal registry and which
listeners it adds, when the handles that the signal registry gives are new. -/
namespace FepParticipant.DataRegistry
open Library Signals List Bool Option

/-- The elements that a loop with a first failure comes to. -/
def upToFailure {α : Type} (fails : α → Bool) : List α → List α
  | [] => []
  | item::items => if fails item then [item] else item::upToFailure fails items

namespace SignalAccess
variable (access : SignalAccess) (direction : SignalDirection)

def registersNew (name : String) (answers : SignalAnswers) : Bool :=
  (access.getSignalHandleFromName name direction).isNone && access.bAllowRegistration && isOk answers.registering

def acquires (name : String) (answers : SignalAnswers) : Bool :=
  (access.getSignalHandleFromName name direction).isSome || access.registersNew direction name answers

end SignalAccess

namespace DataSignalIn

def fails (access : SignalAccess) (answers : String → SignalAnswers) (signal : DataSignalIn) : Bool :=
  !signal.isSupported || !access.acquires .sdInput signal.name (answers signal.name) ||
    isFailed (answers signal.name).listening || (0 < signal.poolSize && isFailed (answers signal.name).sample)

def registration (signal : DataSignalIn) : String × Option Nat × List Nat × List DataReader :=
  (signal.name,signal.signalHandle,signal.samplePool,
    signal.createdReaders.filter fun reader => !reader.markedForDeletion)

/-- The data signal holds a signal of its name, listens to it and has samples for its readers. -/
def IsRegistered (signal : DataSignalIn) (access : SignalAccess) : Prop :=
  ∃ handle registrant, signal.signalHandle = some handle ∧
    ⟨handle,signal.name,.sdInput,registrant⟩ ∈ access.signals ∧ (signal.object,handle) ∈ access.listeners ∧
    signal.poolSize ≤ signal.samplePool.length

end DataSignalIn

namespace DataSignalOut

/-- A writer hides that there is no handle. -/
def fails (access : SignalAccess) (answers : String → SignalAnswers) (signal : DataSignalOut) : Bool :=
  !signal.isSupported ||
    (!access.acquires .sdOutput signal.name (answers signal.name) && signal.createdWriters.isEmpty)

def registration (signal : DataSignalOut) : String × Option Nat × List DataWriter :=
  (signal.name,signal.signalHandle,signal.createdWriters.filter fun writer => !writer.markedForDeletion)

def IsRegistered (signal : DataSignalOut) (access : SignalAccess) : Prop :=
  ∃ handle registrant, signal.signalHandle = some handle ∧
    ⟨handle,signal.name,.sdOutput,registrant⟩ ∈ access.signals ∧
    ∀ writer ∈ signal.createdWriters, writer.signalHandle = some handle

end DataSignalOut

namespace DataRegistryFEP2
variable (registry : DataRegistryFEP2) (answers : Answers)

/-- An error leaves what was registered before, and without one all is registered. -/
structure AllOrNothing (after : DataRegistryFEP2) (res : Result) : Prop where
  signals : isFailed res = true → after.access.signals = registry.access.signals
  listeners : isFailed res = true → after.access.listeners.Perm registry.access.listeners
  ins : isFailed res = true → after.ins.map DataSignalIn.registration = registry.ins.map DataSignalIn.registration
  outs : isFailed res = true → after.outs.map DataSignalOut.registration = registry.outs.map DataSignalOut.registration
  registeredIns : isOk res = true → ∀ signal ∈ after.ins, signal.IsRegistered after.access
  registeredOuts : isOk res = true → ∀ signal ∈ after.outs, signal.IsRegistered after.access

def DescriptionFails : Prop :=
  (∃ signal ∈ registry.ins, isFailed (registerDescription (answers .sdInput) signal.toDataSignal).2 = true) ∨
  ∃ signal ∈ registry.outs, isFailed (registerDescription (answers .sdOutput) signal.toDataSignal).2 = true

def insFail : Bool := registry.ins.any (DataSignalIn.fails registry.access (answers .sdInput))

def outsFail : Bool := registry.outs.any (DataSignalOut.fails registry.access (answers .sdOutput))

structure Unregistered : Prop where
  ins : ∀ signal ∈ registry.ins, signal.signalHandle = none ∧ signal.samplePool = []
  outs : ∀ signal ∈ registry.outs, signal.signalHandle = none ∧
    ∀ writer ∈ signal.createdWriters, writer.markedForDeletion = false → writer.signalHandle = none

structure Undoable : Prop where
  ins : ∀ signal ∈ upToFailure (DataSignalIn.fails registry.access (answers .sdInput)) registry.ins,
    signal.isSupported = true →
    registry.access.registersNew .sdInput signal.name (answers .sdInput signal.name) = true →
    isOk (answers .sdInput signal.name).unregistering = true
  outs : registry.insFail answers = false →
    ∀ signal ∈ upToFailure (DataSignalOut.fails registry.access (answers .sdOutput)) registry.outs,
      signal.isSupported = true →
      registry.access.registersNew .sdOutput signal.name (answers .sdOutput signal.name) = true →
      isOk (answers .sdOutput signal.name).unregistering = true

structure Registrable : Prop where
  failure : registry.insFail answers = true ∨ registry.outsFail answers = true →
    registry.Unregistered ∧ registry.Undoable answers
  success : registry.insFail answers = false → registry.outsFail answers = false → ∀ signal ∈ registry.outs,
    registry.access.acquires .sdOutput signal.name (answers .sdOutput signal.name) = true

structure NewHandles (access : SignalAccess) (answers : Answers) : Prop where
  unused : ∀ direction name, (answers direction name).handle ∉ access.signals.map (·.handle)
  distinct : ∀ direction name direction' name', (answers direction name).handle = (answers direction' name').handle →
    direction = direction' ∧ name = name'

/-- The handles are new, and nobody listens to them yet. -/
structure FreshHandles (access : SignalAccess) (answers : Answers) : Prop extends NewHandles access answers where
  unheard : ∀ direction name, ∀ listener ∈ access.listeners, listener.2 ≠ (answers direction name).handle

end DataRegistryFEP2

section loops
variable {α β : Type}

/-- A loop with a first failure keeps what a step keeps of the elements tried, their outcome, and the rest. -/
theorem untilFailure_spec (register : α → β → α × β × Result) {fails : α → Bool}
    (inv : List α → List α → List α → β → Prop)
    (hstep : ∀ tried done item rest state, tried.any fails = false → inv tried done (item::rest) state →
      isFailed (register item state).2.2 = fails item ∧
        inv (tried ++ [item]) (done ++ [(register item state).1]) rest (register item state).2.1)
    (items tried done : List α) (state : β) (htried : tried.any fails = false) (hinv : inv tried done items state) :
    ∃ later rest, (untilFailure register items state).1 = later ++ rest ∧
      inv (tried ++ upToFailure fails items) (done ++ later) rest (untilFailure register items state).2.1 ∧
      isFailed (untilFailure register items state).2.2 = items.any fails := by
  induction items generalizing tried done state with
  | nil =>
    refine ⟨[],[],rfl,?_,rfl⟩
    rw [upToFailure,append_nil,append_nil]
    exact hinv
  | cons item items ih =>
    obtain ⟨hfails,hnext⟩ := hstep tried done item items state htried hinv
    rw [untilFailure,upToFailure,any_cons,← hfails]
    dsimp only
    split
    · rename_i hfailed
      exact ⟨[(register item state).1],items,rfl,hnext,by rw [hfailed,Bool.true_or]⟩
    · rename_i hok
      have hfine : (tried ++ [item]).any fails = false := by
        rw [any_append,htried,Bool.false_or,any_cons,← hfails,eq_false_of_ne_true hok]
        rfl
      obtain ⟨later,rest,hsplit,hlater,hany⟩ := ih _ _ _ hfine hnext
      refine ⟨(register item state).1::later,rest,by rw [hsplit,cons_append],?_,?_⟩
      · rw [append_assoc,append_assoc] at hlater
        exact hlater
      · rw [eq_false_of_ne_true hok,Bool.false_or]
        exact hany

theorem map_untilFailure {γ : Type} {register : α → β → α × β × Result} {f : α → γ}
    (h : ∀ item state, f (register item state).1 = f item) (items : List α) (state : β) :
    (untilFailure register items state).1.map f = items.map f := by
  induction items generalizing state with
  | nil => rfl
  | cons item items ih =>
    rw [untilFailure]
    dsimp only
    split
    · rw [map_cons,map_cons,h]
    · rw [map_cons,map_cons,h,ih]

theorem upToFailure_of_none {fails : α → Bool} {items : List α} (h : items.any fails = false) :
    upToFailure fails items = items := by
  induction items with
  | nil => rfl
  | cons item items ih =>
    rw [any_cons,or_eq_false_iff] at h
    rw [upToFailure,h.1,ih h.2]
    rfl

end loops

structure Progress (base : SignalAccess) (answers : Answers) (tried : List (SignalDirection × String))
    (access : SignalAccess) (added : List RegisteredSignal) : Prop where
  allowed : access.bAllowRegistration = base.bAllowRegistration
  signals : access.signals = base.signals ++ added
  known : ∀ signal ∈ added, (signal.direction,signal.name) ∈ tried ∧
    signal.handle = (answers signal.direction signal.name).handle

inductive Obtains (base access : SignalAccess) (answers : SignalAnswers) (direction : SignalDirection)
    (signal : DataSignal) : DataSignal → SignalAccess → Nat → Prop where
  | found {handle : Nat} (h : base.getSignalHandleFromName signal.name direction = some handle) :
    Obtains base access answers direction signal
      {signal with signalHandle := some handle, itsMySignalHandle := false} access handle
  | registered (h : base.registersNew direction signal.name answers = true) :
    Obtains base access answers direction signal {signal with signalHandle := some answers.handle}
      {access with signals := access.signals ++ [⟨answers.handle,signal.name,direction,.dataRegistry⟩]}
      answers.handle

namespace Progress
variable {base access : SignalAccess} {answers : Answers} {tried : List (SignalDirection × String)}
  {added : List RegisteredSignal} {direction : SignalDirection} {signal : DataSignal}

theorem getSignalHandleFromName_eq (h : Progress base answers tried access added) {name : String}
    (hnew : (direction,name) ∉ tried) :
    access.getSignalHandleFromName name direction = base.getSignalHandleFromName name direction := by
  have hnone : (added.find? fun signal => signal.name == name && signal.direction == direction) = none := by
    rw [find?_eq_none]
    intro signal hsignal hmatch
    simp only [and_eq_true,beq_iff_eq] at hmatch
    exact hnew (hmatch.1 ▸ hmatch.2 ▸ (h.known signal hsignal).1)
  rw [SignalAccess.getSignalHandleFromName,h.signals,find?_append,hnone,or_none]
  rfl

theorem handle_free (h : Progress base answers tried access added) (hfresh : DataRegistryFEP2.FreshHandles base answers)
    {name : String} (hnew : (direction,name) ∉ tried) :
    (answers direction name).handle ∉ access.signals.map (·.handle) := by
  intro hmem
  rw [h.signals,map_append] at hmem
  rcases mem_append.mp hmem with hold | hadded
  · exact hfresh.unused direction name hold
  · obtain ⟨signal,hsignal,hsame⟩ := mem_map.mp hadded
    obtain ⟨hmem,hhandle⟩ := h.known signal hsignal
    obtain ⟨hdirection,hname⟩ := hfresh.distinct _ _ _ _ (hhandle.symm.trans hsame)
    exact hnew (hdirection ▸ hname ▸ hmem)

private theorem registerSignal_cases {name : String} {answer : Result} {handle : Nat}
    (hmissing : access.getSignalHandleFromName name direction = none) (hfree : handle ∉ access.signals.map (·.handle)) :
    ((access.bAllowRegistration && isOk answer) = true ∧
      access.registerSignal name direction .dataRegistry answer handle =
        ({access with signals := access.signals ++ [⟨handle,name,direction,.dataRegistry⟩]},.errNoError)) ∨
    ((access.bAllowRegistration && isOk answer) = false ∧ ∃ res, isFailed res = true ∧
      access.registerSignal name direction .dataRegistry answer handle = (access,res)) := by
  rw [SignalAccess.registerSignal,hmissing]
  cases hallowed : access.bAllowRegistration with
  | false => exact .inr ⟨rfl,_,rfl,rfl⟩
  | true =>
    cases hok : isOk answer with
    | false =>
      have hfailed : isFailed answer = true := by rw [isFailed,hok]; rfl
      refine .inr ⟨rfl,answer,hfailed,?_⟩
      simp [hfailed]
    | true =>
      have hfailed : isFailed answer = false := by rw [isFailed,hok]; rfl
      refine .inl ⟨rfl,?_⟩
      simp [hfailed,hfree]

theorem acquireHandle_cases (h : Progress base answers tried access added)
    (hfresh : DataRegistryFEP2.FreshHandles base answers) (hnew : (direction,signal.name) ∉ tried) :
    (∃ acquired middle handle,
      Obtains base access (answers direction signal.name) direction signal acquired middle handle ∧
      signal.acquireHandle direction access (answers direction signal.name) = (acquired,middle,.errNoError)) ∨
    (base.acquires direction signal.name (answers direction signal.name) = false ∧ ∃ res, isFailed res = true ∧
      signal.acquireHandle direction access (answers direction signal.name) =
        ({signal with signalHandle := none, itsMySignalHandle := true},access,res)) := by
  have hget := h.getSignalHandleFromName_eq hnew
  have hfree := h.handle_free hfresh hnew
  rw [DataSignal.acquireHandle,hget]
  cases hfound : base.getSignalHandleFromName signal.name direction with
  | some handle => exact .inl ⟨_,_,_,.found hfound,rfl⟩
  | none =>
    have hmissing := hget.trans hfound
    have hregistersNew : base.registersNew direction signal.name (answers direction signal.name) =
        (access.bAllowRegistration && isOk (answers direction signal.name).registering) := by
      rw [SignalAccess.registersNew,hfound,h.allowed]
      rfl
    rw [SignalAccess.acquires,hregistersNew,hfound]
    rcases registerSignal_cases hmissing hfree with ⟨hregisters,hregister⟩ | ⟨hregisters,res,hfailed,hregister⟩
    · rw [hregister]
      exact .inl ⟨_,_,_,.registered (hregistersNew.trans hregisters),rfl⟩
    · refine .inr ⟨by rw [hregisters]; rfl,res,hfailed,?_⟩
      rw [hregister]
      dsimp only
      rw [if_pos hfailed]

end Progress

namespace Obtains
variable {base access middle : SignalAccess} {answers : SignalAnswers} {direction : SignalDirection}
  {signal acquired : DataSignal} {handle : Nat}

section
variable (h : Obtains base access answers direction signal acquired middle handle)
include h

theorem signalHandle : acquired.signalHandle = some handle := by
  cases h <;> rfl

theorem acquires : base.acquires direction signal.name answers = true := by
  cases h with
  | found hfound =>
    rw [SignalAccess.acquires,hfound]
    rfl
  | registered hnew => rw [SignalAccess.acquires,hnew,Bool.or_true]

end

end Obtains

theorem initPool_cases (signal : DataSignalIn) (answer : Result) : ∃ samplePool,
    (signal.initPool answer).1 = {signal with samplePool := samplePool} ∧
    isFailed (signal.initPool answer).2 = (decide (0 < signal.poolSize) && isFailed answer) ∧
    (isFailed (signal.initPool answer).2 = false → signal.poolSize ≤ samplePool.length) := by
  rw [DataSignalIn.initPool]
  by_cases hpool : 0 < signal.poolSize
  · rw [if_pos hpool,decide_eq_true hpool,Bool.true_and]
    cases hfailed : isFailed answer with
    | true => exact ⟨[],rfl,hfailed,fun hok => absurd (hfailed.symm.trans hok) (by decide)⟩
    | false =>
      refine ⟨_,rfl,rfl,fun _ => ?_⟩
      rw [length_append,length_replicate]
      exact Nat.le_add_left _ _
  · rw [if_neg hpool,decide_eq_false hpool,Bool.false_and]
    exact ⟨signal.samplePool,rfl,rfl,fun _ => by omega⟩

inductive TriedIn (base access : SignalAccess) (answers : SignalAnswers) (signal : DataSignalIn) :
    DataSignalIn → SignalAccess → Bool → Prop where
  | unsupported (h : signal.isSupported = false) : TriedIn base access answers signal signal access true
  | unobtained (h : signal.isSupported = true) (hacquires : base.acquires .sdInput signal.name answers = false) :
    TriedIn base access answers signal
      {signal with signalHandle := none, itsMySignalHandle := true} access true
  | unheard {acquired : DataSignal} {middle : SignalAccess} {handle : Nat} (h : signal.isSupported = true)
    (hobtains : Obtains base access answers .sdInput signal.toDataSignal acquired middle handle) :
    TriedIn base access answers signal
      {signal with toDataSignal := (acquired.releaseHandle middle answers).1}
      (acquired.releaseHandle middle answers).2 true
  | listening {acquired : DataSignal} {middle : SignalAccess} {handle : Nat} {samplePool : List Nat} {failed : Bool}
    (h : signal.isSupported = true)
    (hobtains : Obtains base access answers .sdInput signal.toDataSignal acquired middle handle)
    (hpool : failed = false → signal.poolSize ≤ samplePool.length) :
    TriedIn base access answers signal {signal with toDataSignal := acquired, samplePool := samplePool}
      {middle with listeners := middle.listeners ++ [(signal.object,handle)]} failed

inductive TriedOut (base access : SignalAccess) (answers : SignalAnswers) (signal : DataSignalOut) :
    DataSignalOut → SignalAccess → Prop where
  | unsupported (h : signal.isSupported = false) : TriedOut base access answers signal signal access
  | unobtained (h : signal.isSupported = true) (hacquires : base.acquires .sdOutput signal.name answers = false) :
    TriedOut base access answers signal
      { signal with
          signalHandle := none
          itsMySignalHandle := true
          createdWriters := signal.createdWriters.map fun writer => {writer with signalHandle := none} } access
  | obtained {acquired : DataSignal} {middle : SignalAccess} {handle : Nat} (h : signal.isSupported = true)
    (hobtains : Obtains base access answers .sdOutput signal.toDataSignal acquired middle handle) :
    TriedOut base access answers signal
      { signal with
          toDataSignal := acquired
          createdWriters := signal.createdWriters.map fun writer => {writer with signalHandle := some handle} } middle

theorem initWriters_eq (signalHandle : Option Nat) (writers : List DataWriter) (res : Result) :
    DataSignalOut.initWriters signalHandle writers res =
      (writers.map fun writer => {writer with signalHandle := signalHandle},
        if writers.isEmpty then res else .errNoError) := by
  induction writers generalizing res with
  | nil => rfl
  | cons writer writers ih =>
    rw [DataSignalOut.initWriters]
    dsimp only [DataWriter.init]
    rw [if_neg (by decide),ih]
    cases writers <;> rfl

namespace Progress
variable {base access : SignalAccess} {answers : Answers} {tried : List (SignalDirection × String)}
  {added : List RegisteredSignal}

theorem triedIn (h : Progress base answers tried access added) (hfresh : DataRegistryFEP2.FreshHandles base answers)
    {signal : DataSignalIn} (hnew : signal.isSupported = true → (.sdInput,signal.name) ∉ tried) :
    ∃ failed, isFailed (signal.registerAtSignalRegistry access (answers .sdInput signal.name)).2.2 = failed ∧
      signal.fails base (answers .sdInput) = failed ∧
      TriedIn base access (answers .sdInput signal.name) signal
        (signal.registerAtSignalRegistry access (answers .sdInput signal.name)).1
        (signal.registerAtSignalRegistry access (answers .sdInput signal.name)).2.1 failed := by
  rw [DataSignalIn.registerAtSignalRegistry,DataSignalIn.fails]
  cases hsupported : signal.isSupported with
  | false => exact ⟨true,rfl,rfl,.unsupported hsupported⟩
  | true =>
    rcases h.acquireHandle_cases hfresh (hnew hsupported) with
      ⟨acquired,middle,handle,hobtains,hacquire⟩ | ⟨hacquires,res,hfailed,hacquire⟩
    · dsimp only
      rw [hacquire]
      rw [hobtains.signalHandle,hobtains.acquires]
      dsimp only
      rw [DataSignalIn.listen,SignalAccess.registerDataListener]
      cases hlistening : isFailed (answers .sdInput signal.name).listening with
      | true =>
        simp only [if_true,hlistening,Bool.not_true,Bool.false_eq_true,if_false]
        exact ⟨true,rfl,rfl,.unheard hsupported hobtains⟩
      | false =>
        obtain ⟨samplePool,hpool,hres,hsize⟩ :=
          initPool_cases {signal with toDataSignal := acquired} (answers .sdInput signal.name).sample
        simp only [Bool.false_eq_true,if_false,show isFailed .errNoError = false from rfl,Bool.not_true,Bool.false_or]
        refine ⟨_,rfl,hres.symm,?_⟩
        rw [hpool]
        exact .listening hsupported hobtains hsize
    · dsimp only
      rw [hacquire,hacquires]
      exact ⟨true,hfailed,rfl,.unobtained hsupported hacquires⟩

theorem triedOut (h : Progress base answers tried access added) (hfresh : DataRegistryFEP2.FreshHandles base answers)
    {signal : DataSignalOut} (hnew : signal.isSupported = true → (.sdOutput,signal.name) ∉ tried) :
    isFailed (signal.registerAtSignalRegistry access (answers .sdOutput signal.name)).2.2 =
        signal.fails base (answers .sdOutput) ∧
      TriedOut base access (answers .sdOutput signal.name) signal
        (signal.registerAtSignalRegistry access (answers .sdOutput signal.name)).1
        (signal.registerAtSignalRegistry access (answers .sdOutput signal.name)).2.1 := by
  rw [DataSignalOut.registerAtSignalRegistry,DataSignalOut.fails]
  cases hsupported : signal.isSupported with
  | false => exact ⟨rfl,.unsupported hsupported⟩
  | true =>
    rcases h.acquireHandle_cases hfresh (hnew hsupported) with
      ⟨acquired,middle,handle,hobtains,hacquire⟩ | ⟨hacquires,res,hfailed,hacquire⟩
    · dsimp only
      rw [hacquire]
      rw [initWriters_eq,hobtains.signalHandle,hobtains.acquires]
      refine ⟨?_,.obtained hsupported hobtains⟩
      cases signal.createdWriters <;> rfl
    · dsimp only
      rw [hacquire]
      rw [initWriters_eq,hacquires]
      refine ⟨?_,.unobtained hsupported hacquires⟩
      cases signal.createdWriters with
      | nil => exact hfailed
      | cons writer writers => rfl

end Progress

structure Extends (base access after : SignalAccess) (answers : SignalAnswers) (direction : SignalDirection)
    (next : DataSignal) (new : List RegisteredSignal) : Prop where
  allowed : after.bAllowRegistration = access.bAllowRegistration
  signals : after.signals = access.signals ++ new
  added : ∀ signal ∈ new, signal = ⟨answers.handle,next.name,direction,.dataRegistry⟩ ∧
    base.registersNew direction next.name answers = true ∧
    (isOk answers.unregistering = true → next.signalHandle = some answers.handle ∧ next.itsMySignalHandle = true)
  left : base.registersNew direction next.name answers = true → isOk answers.unregistering = false → new ≠ []
  held : ∀ handle, next.signalHandle = some handle →
    next.itsMySignalHandle = true ∧ handle = answers.handle ∨
    next.itsMySignalHandle = false ∧ handle ∈ base.signals.map (·.handle)

namespace Obtains
variable {base access middle : SignalAccess} {answers : SignalAnswers} {direction : SignalDirection}
  {signal acquired : DataSignal} {handle : Nat}

private theorem mem_handles {name : String} (h : base.getSignalHandleFromName name direction = some handle) :
    handle ∈ base.signals.map (·.handle) := by
  obtain ⟨found,hfind,rfl⟩ := map_eq_some_iff.mp h
  exact mem_map_of_mem (mem_of_find?_eq_some hfind)

theorem registersNew_of_found {name : String} (h : base.getSignalHandleFromName name direction = some handle) :
    base.registersNew direction name answers = false := by
  rw [SignalAccess.registersNew,h]
  rfl

section
variable (h : Obtains base access answers direction signal acquired middle handle)
include h

theorem extends_of_mine
    (hmine : signal.itsMySignalHandle = true) : ∃ new, Extends base access middle answers direction acquired new := by
  cases h with
  | found hfound =>
    refine ⟨[],rfl,(append_nil _).symm,nofun,?_,?_⟩
    · intro hnew
      exact absurd ((registersNew_of_found hfound).symm.trans hnew) (by decide)
    · intro other hother
      cases hother
      exact .inr ⟨rfl,mem_handles hfound⟩
  | registered hnew =>
    refine ⟨_,rfl,rfl,?_,fun _ _ => cons_ne_nil _ _,?_⟩
    · intro registered hregistered
      exact ⟨mem_singleton.mp hregistered,hnew,fun _ => ⟨rfl,hmine⟩⟩
    · intro other hother
      exact .inl ⟨hmine,(some.inj hother).symm⟩

theorem extends_released
    (hmine : signal.itsMySignalHandle = true) (hallowed : access.bAllowRegistration = base.bAllowRegistration)
    (hfree : answers.handle ∉ access.signals.map (·.handle)) :
    ∃ new, Extends base access (acquired.releaseHandle middle answers).2 answers direction
      (acquired.releaseHandle middle answers).1 new := by
  cases h with
  | found hfound =>
    refine ⟨[],rfl,(append_nil _).symm,forall_mem_nil _,?_,fun _ h => absurd h (some_ne_none _).symm⟩
    intro hnew
    exact absurd ((registersNew_of_found hfound).symm.trans hnew) (by decide)
  | registered hnew =>
    have hnew' := hnew
    rw [SignalAccess.registersNew,and_eq_true,and_eq_true] at hnew'
    have hallows : access.bAllowRegistration = true := hallowed.trans hnew'.1.2
    have hknown : answers.handle ∈ (access.signals ++ [(⟨answers.handle,signal.name,direction,.dataRegistry⟩ :
        RegisteredSignal)]).map (·.handle) :=
      mem_map.mpr ⟨_,mem_append_right _ mem_cons_self,rfl⟩
    rw [DataSignal.releaseHandle]
    dsimp only
    rw [if_pos hmine,SignalAccess.unregisterSignal]
    simp only [hallows,Bool.not_true,Bool.false_eq_true,if_false,hknown,not_true_eq_false]
    cases hfailed : isFailed answers.unregistering with
    | true =>
      have hnotOk : isOk answers.unregistering = false := by
        rw [isFailed,not_eq_true'] at hfailed
        exact hfailed
      refine ⟨_,hallows.symm,rfl,?_,fun _ _ => cons_ne_nil _ _,fun _ h => absurd h (some_ne_none _).symm⟩
      intro registered hregistered
      exact ⟨mem_singleton.mp hregistered,hnew,fun hok => absurd (hnotOk.symm.trans hok) (by decide)⟩
    | false =>
      have hok : isOk answers.unregistering = true := by
        rw [isFailed,not_eq_false'] at hfailed
        exact hfailed
      simp only [false_eq_true,if_false]
      refine ⟨[],hallows.symm,?_,forall_mem_nil _,fun _ hnotOk => absurd (hok.symm.trans hnotOk) (by decide),
        fun _ h => absurd h (some_ne_none _).symm⟩
      have hself : ([(⟨answers.handle,signal.name,direction,.dataRegistry⟩ : RegisteredSignal)].filter
          fun signal => signal.handle != answers.handle) = [] := by
        simp
      simp only [filter_append,hself]
      congr 1
      refine filter_eq_self.mpr fun registered hregistered => ?_
      rw [bne_iff_ne]
      rintro hsame
      exact hfree (hsame ▸ mem_map_of_mem hregistered)

end

end Obtains

variable {base access after : SignalAccess}

theorem extends_unobtained {answers : SignalAnswers} {direction : SignalDirection}
    {next : DataSignal} (hacquires : base.acquires direction next.name answers = false)
    (hnone : next.signalHandle = none) : Extends base access access answers direction next [] where
  allowed := rfl
  signals := (append_nil _).symm
  added := nofun
  left := by
    intro hnew
    rw [SignalAccess.acquires,hnew,Bool.or_true] at hacquires
    cases hacquires
  held := by
    intro handle hhandle
    rw [hnone] at hhandle
    cases hhandle

theorem TriedIn.extends_of_unregistered {answers : SignalAnswers}
    {signal next : DataSignalIn} {failed : Bool} (h : TriedIn base access answers signal next after failed)
    (hmine : signal.itsMySignalHandle = true) (hallowed : access.bAllowRegistration = base.bAllowRegistration)
    (hfree : answers.handle ∉ access.signals.map (·.handle)) :
    signal.isSupported = false ∧ next = signal ∧ after = access ∨
    signal.isSupported = true ∧ ∃ new, Extends base access after answers .sdInput next.toDataSignal new := by
  cases h with
  | unsupported hunsupported => exact .inl ⟨hunsupported,rfl,rfl⟩
  | unobtained hsupported hacquires => exact .inr ⟨hsupported,[],extends_unobtained hacquires rfl⟩
  | unheard hsupported hobtains => exact .inr ⟨hsupported,hobtains.extends_released hmine hallowed hfree⟩
  | listening hsupported hobtains hpool =>
    obtain ⟨new,hextends⟩ := hobtains.extends_of_mine hmine
    exact .inr ⟨hsupported,new,hextends.allowed,hextends.signals,hextends.added,hextends.left,hextends.held⟩

theorem TriedOut.extends_of_unregistered {answers : SignalAnswers}
    {signal next : DataSignalOut} (h : TriedOut base access answers signal next after)
    (hmine : signal.itsMySignalHandle = true) : signal.isSupported = false ∧ next = signal ∧ after = access ∨
    signal.isSupported = true ∧ ∃ new, Extends base access after answers .sdOutput next.toDataSignal new := by
  cases h with
  | unsupported hunsupported => exact .inl ⟨hunsupported,rfl,rfl⟩
  | unobtained hsupported hacquires => exact .inr ⟨hsupported,[],extends_unobtained hacquires rfl⟩
  | obtained hsupported hobtains => exact .inr ⟨hsupported,hobtains.extends_of_mine hmine⟩

structure Registering (base : SignalAccess) (answers : Answers) (tried : List (SignalDirection × String))
    (holders : List Holder) (access : SignalAccess) (added : List RegisteredSignal) : Prop
    extends Progress base answers tried access added where
  new : ∀ signal ∈ added, base.registersNew signal.direction signal.name (answers signal.direction signal.name) = true
  holding : ∀ signal ∈ added, isOk (answers signal.direction signal.name).unregistering = true →
    ∃ holder ∈ holders, holder.signalHandle = some signal.handle ∧ holder.mine = true
  left : ∀ key ∈ tried, base.registersNew key.1 key.2 (answers key.1 key.2) = true →
    isOk (answers key.1 key.2).unregistering = false → ∃ signal ∈ added, signal.handle = (answers key.1 key.2).handle
  held : ∀ holder ∈ holders, ∀ handle, holder.signalHandle = some handle →
    holder.mine = true ∧ handle = (answers holder.direction holder.name).handle ∨
    holder.mine = false ∧ handle ∈ base.signals.map (·.handle)

theorem Registering.next {answers : Answers}
    {tried : List (SignalDirection × String)} {holders holders' : List Holder} {added new : List RegisteredSignal}
    (h : Registering base answers tried holders access added) {signal next : DataSignal} {direction : SignalDirection}
    (hextends : Extends base access after (answers direction next.name) direction next new)
    (hnone : signal.signalHandle = none)
    (hkept : ∀ holder ∈ holders, holder = signal.holder direction ∨ holder ∈ holders')
    (hcome : ∀ holder ∈ holders', holder = next.holder direction ∨ holder ∈ holders)
    (hnext : next.holder direction ∈ holders') :
    Registering base answers (tried ++ [(direction,next.name)]) holders' after (added ++ new) where
  allowed := hextends.allowed.trans h.allowed
  signals := by rw [hextends.signals,h.signals,append_assoc]
  known := by
    intro registered hregistered
    rcases mem_append.mp hregistered with hold | hnew
    · exact ⟨mem_append_left _ (h.known registered hold).1,(h.known registered hold).2⟩
    · rw [(hextends.added registered hnew).1]
      exact ⟨mem_append_right _ mem_cons_self,rfl⟩
  new := by
    intro registered hregistered
    rcases mem_append.mp hregistered with hold | hnew
    · exact h.new registered hold
    · obtain ⟨rfl,hregisters,-⟩ := hextends.added registered hnew
      exact hregisters
  holding := by
    intro registered hregistered hok
    rcases mem_append.mp hregistered with hold | hnew
    · obtain ⟨holder,hholder,hhandle,hmine⟩ := h.holding registered hold hok
      refine ⟨holder,(hkept holder hholder).resolve_left ?_,hhandle,hmine⟩
      rintro rfl
      rw [DataSignal.holder,hnone] at hhandle
      cases hhandle
    · obtain ⟨rfl,-,hheld⟩ := hextends.added registered hnew
      exact ⟨next.holder direction,hnext,(hheld hok).1,(hheld hok).2⟩
  left := by
    intro key hkey hregisters hfails
    rcases mem_append.mp hkey with hold | hnew
    · obtain ⟨registered,hregistered,hhandle⟩ := h.left key hold hregisters hfails
      exact ⟨registered,mem_append_left _ hregistered,hhandle⟩
    · obtain rfl := mem_singleton.mp hnew
      obtain ⟨registered,hregistered⟩ := exists_mem_of_ne_nil _ (hextends.left hregisters hfails)
      refine ⟨registered,mem_append_right _ hregistered,?_⟩
      rw [(hextends.added registered hregistered).1]
  held := by
    intro holder hholder handle hhandle
    rcases hcome holder hholder with rfl | hold
    · exact hextends.held handle hhandle
    · exact h.held holder hold handle hhandle

def DataSignalIn.heldEntry (signal : DataSignalIn) : Option (Nat × Nat) :=
  signal.signalHandle.map fun handle => (signal.object,handle)

theorem releaseHandle_listeners {signal : DataSignal} {answers : SignalAnswers}
    (h : ∀ handle, signal.signalHandle = some handle → signal.itsMySignalHandle = true →
      ∀ listener ∈ access.listeners, listener.2 ≠ handle) :
    (signal.releaseHandle access answers).2.listeners = access.listeners := by
  rw [DataSignal.releaseHandle]
  cases hhandle : signal.signalHandle with
  | none => rfl
  | some handle =>
    dsimp only
    by_cases hmine : signal.itsMySignalHandle = true
    · have hfilter : (access.listeners.filter fun listener => listener.2 != handle) = access.listeners := by
        refine filter_eq_self.mpr fun listener hlistener => ?_
        rw [bne_iff_ne]
        exact h handle hhandle hmine listener hlistener
      rw [if_pos hmine,SignalAccess.unregisterSignal]
      split
      · rfl
      · split
        · rfl
        · dsimp only
          split
          · exact hfilter
          · exact hfilter
    · rw [if_neg hmine]

theorem TriedIn.listeners {answers : SignalAnswers} {signal next : DataSignalIn}
    {failed : Bool} (h : TriedIn base access answers signal next after failed) (hnone : signal.signalHandle = none)
    (hunheard : ∀ listener ∈ access.listeners, listener.2 ≠ answers.handle) :
    after.listeners = access.listeners ++ next.heldEntry.toList := by
  cases h with
  | unsupported hunsupported =>
    rw [DataSignalIn.heldEntry,hnone]
    exact (append_nil _).symm
  | unobtained hsupported hacquires => exact (append_nil _).symm
  | @unheard acquired middle handle hsupported hobtains =>
    have hreleased : (acquired.releaseHandle middle answers).1.signalHandle = none := by
      rw [DataSignal.releaseHandle,hobtains.signalHandle]
    have hsame : middle.listeners = access.listeners := by
      cases hobtains <;> rfl
    rw [DataSignalIn.heldEntry,hreleased,releaseHandle_listeners,hsame]
    · exact (append_nil _).symm
    · intro other hother hmine
      cases hobtains with
      | found hfound => cases hmine
      | registered hnew =>
        cases hother
        exact hunheard
  | @listening acquired middle handle samplePool failed hsupported hobtains hpool =>
    have hsame : middle.listeners = access.listeners := by
      cases hobtains <;> rfl
    rw [DataSignalIn.heldEntry,hobtains.signalHandle,hsame]
    rfl

theorem TriedOut.listeners {answers : SignalAnswers} {signal next : DataSignalOut}
    (h : TriedOut base access answers signal next after) : after.listeners = access.listeners := by
  cases h with
  | unsupported hunsupported => rfl
  | unobtained hsupported hacquires => rfl
  | obtained hsupported hobtains => cases hobtains <;> rfl

theorem TriedIn.name {answers : SignalAnswers} {signal next : DataSignalIn}
    {failed : Bool} (h : TriedIn base access answers signal next after failed) : next.name = signal.name := by
  cases h with
  | unsupported hunsupported => rfl
  | unobtained hsupported hacquires => rfl
  | unheard hsupported hobtains => cases hobtains <;> rfl
  | listening hsupported hobtains hpool => cases hobtains <;> rfl

theorem TriedOut.name {answers : SignalAnswers} {signal next : DataSignalOut}
    (h : TriedOut base access answers signal next after) : next.name = signal.name := by
  cases h with
  | unsupported hunsupported => rfl
  | unobtained hsupported hacquires => rfl
  | obtained hsupported hobtains => cases hobtains <;> rfl

namespace Progress
variable {base access middle : SignalAccess} {answers : Answers} {tried : List (SignalDirection × String)}
  {added : List RegisteredSignal} {direction : SignalDirection} {signal acquired : DataSignal} {handle : Nat}

theorem more (h : Progress base answers tried access added) (keys : List (SignalDirection × String)) :
    Progress base answers (tried ++ keys) access added :=
  ⟨h.allowed,h.signals,fun signal hsignal =>
    ⟨mem_append_left _ (h.known signal hsignal).1,(h.known signal hsignal).2⟩⟩

theorem obtains (h : Progress base answers tried access added)
    (hobtains : Obtains base access (answers direction signal.name) direction signal acquired middle handle) :
    (∃ more, Progress base answers (tried ++ [(direction,signal.name)]) middle more) ∧
    (∃ registrant, ⟨handle,acquired.name,direction,registrant⟩ ∈ middle.signals) ∧
    (∀ registered ∈ access.signals, registered ∈ middle.signals) ∧ middle.listeners = access.listeners := by
  cases hobtains with
  | found hfound =>
    obtain ⟨found,hfind,rfl⟩ := map_eq_some_iff.mp hfound
    have hmatch := find?_some hfind
    simp only [and_eq_true,beq_iff_eq] at hmatch
    refine ⟨⟨added,h.more _⟩,⟨found.registrant,?_⟩,fun _ hregistered => hregistered,rfl⟩
    rw [h.signals]
    refine mem_append_left _ ?_
    have hmem := mem_of_find?_eq_some hfind
    obtain ⟨handle,name,foundDirection,registrant⟩ := found
    obtain ⟨rfl,rfl⟩ := hmatch
    exact hmem
  | registered hnew =>
    refine ⟨⟨added ++ [⟨(answers direction signal.name).handle,signal.name,direction,.dataRegistry⟩],
      h.allowed,?_,?_⟩,⟨.dataRegistry,mem_append_right _ mem_cons_self⟩,
      fun _ hregistered => mem_append_left _ hregistered,rfl⟩
    · rw [h.signals,append_assoc]
    · intro registered hregistered
      rcases mem_append.mp hregistered with hold | hlast
      · exact ⟨mem_append_left _ (h.known registered hold).1,(h.known registered hold).2⟩
      · rw [mem_singleton.mp hlast]
        exact ⟨mem_append_right _ mem_cons_self,rfl⟩

end Progress

theorem DataSignalIn.IsRegistered.mono {signal : DataSignalIn} {access after : SignalAccess}
    (h : signal.IsRegistered access) (hsignals : ∀ registered ∈ access.signals, registered ∈ after.signals)
    (hlisteners : ∀ listener ∈ access.listeners, listener ∈ after.listeners) : signal.IsRegistered after := by
  obtain ⟨handle,registrant,hhandle,hmem,hlistens,hpool⟩ := h
  exact ⟨handle,registrant,hhandle,hsignals _ hmem,hlisteners _ hlistens,hpool⟩

theorem DataSignalOut.IsRegistered.mono {signal : DataSignalOut} {access after : SignalAccess}
    (h : signal.IsRegistered access) (hsignals : ∀ registered ∈ access.signals, registered ∈ after.signals) :
    signal.IsRegistered after := by
  obtain ⟨handle,registrant,hhandle,hmem,hwriters⟩ := h
  exact ⟨handle,registrant,hhandle,hsignals _ hmem,hwriters⟩

end FepParticipant.DataRegistry
