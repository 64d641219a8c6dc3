import FepParticipant.Signals.SignalReceivers

/-! The entries of the distributed data buffer, each of which is a signal, a data listener and a buffer, and when
they come and go as a whole. -/
namespace FepParticipant.DistributedDataBuffer
open Library Signals List Nat Option OrderedMap SignalComponents

/-- The signals, whether the transmission adapter is initialized, the buffers that listen to its receivers, and the
module's entries by signal handle; a buffer is the number of its construction. -/
structure DDBEntries where
  components : SignalComponents
  bInitialized : Bool
  listeners : List (Nat × Nat)
  mapDDBEntries : List (Nat × Nat)
  nextDDB : Nat

/-- The arguments of `InitDDBEntry`: names that may be null, the depth, the handle's value before the call, and
whether there is a pointer for the access. -/
structure DDBArguments where
  strSignalName : Option String
  strSignalType : Option String
  szMaxDepth : Nat
  hSignal : Nat
  ppoDDBAccess : Bool

namespace DDBArguments

/-- The check of the arguments, which has no result if it reads a name through a null pointer. -/
def check (arguments : DDBArguments) : Option Result :=
  match arguments.strSignalName with
  | none => none
  | some strSignalName =>
    if strSignalName = "" then some .errEmpty
    else match arguments.strSignalType with
      | none => none
      | some strSignalType =>
        if strSignalType = "" ∨ arguments.szMaxDepth = 0 ∨ arguments.ppoDDBAccess = false then some .errEmpty
        else some .errNoError

def options (arguments : DDBArguments) : UserSignalOptions :=
  ⟨arguments.strSignalName.getD "",arguments.strSignalType.getD "",.sdInput,false⟩

end DDBArguments

/-- A call reads or writes through a null pointer, or it returns. -/
inductive DDBOutcome where
  | nullPointer
  | returned (entries : DDBEntries) (hSignal : Nat) (nResult : Result)

/-- The entries that a call leaves, if it returns. -/
def DDBOutcome.entries? : DDBOutcome → Option DDBEntries
  | .nullPointer => none
  | .returned entries _ _ => some entries

namespace DDBEntries

/-- `cTransmissionAdapter::RegisterDataListener`. -/
def registerDataListener (entries : DDBEntries) (poDDBEntry hSignal : Nat) : DDBEntries × Result :=
  if !entries.bInitialized then (entries,.errNotInitialised)
  else if hSignal ∉ entries.components.receivers then (entries,.errNotFound)
  else if (hSignal,poDDBEntry) ∈ entries.listeners then (entries,.errFailed)
  else ({entries with listeners := entries.listeners ++ [(hSignal,poDDBEntry)]},.errNoError)

/-- `cTransmissionAdapter::UnregisterDataListener`. -/
def unregisterDataListener (entries : DDBEntries) (poDDBEntry hSignal : Nat) : DDBEntries × Result :=
  if !entries.bInitialized then (entries,.errNotInitialised)
  else if hSignal ∉ entries.components.receivers then (entries,.errNotFound)
  else if (hSignal,poDDBEntry) ∈ entries.listeners then
    ({entries with listeners := entries.listeners.erase (hSignal,poDDBEntry)},.errNoError)
  else (entries,.errNotFound)

/-- The listeners of a receiver are gone with it. -/
def withComponents (entries : DDBEntries) (components : SignalComponents) : DDBEntries :=
  { entries with
    components := components
    listeners := entries.listeners.filter fun listener => decide (listener.1 ∈ components.receivers) }

/-- `UnregisterSignal`. -/
def unregisterSignal (entries : DDBEntries) (hSignal : Nat) (unregistering : Result) : DDBEntries × Result :=
  let (components,nResult) := entries.components.unregisterSignal hSignal unregistering
  (entries.withComponents components,nResult)

/-- The end of an `InitDDBEntry` that failed. -/
def rollBack (entries : DDBEntries) (poDDBEntry hSignal : Nat) (unregistering nResult : Result) : DDBOutcome :=
  let (unlistened,_) := entries.unregisterDataListener poDDBEntry hSignal
  let (unregistered,_) := unlistened.unregisterSignal hSignal unregistering
  .returned unregistered hSignal nResult

/-- `InitDDBEntry` from the registered signal on. -/
def initRegistered (entries : DDBEntries) (poDDBEntry hSignal szMaxDepth : Nat) (unregistering : Result) :
    DDBOutcome :=
  if hSignal ∈ entries.mapDDBEntries.map Prod.fst then
    entries.rollBack poDDBEntry hSignal unregistering .errInvalidHandle
  -- `CreateEntry`
  else if hSignal = 0 ∨ szMaxDepth = 0 then entries.rollBack poDDBEntry hSignal unregistering .errInvalidArg
  else
    let (listening,nResult) := entries.registerDataListener poDDBEntry hSignal
    if isOk nResult then
      .returned {listening with mapDDBEntries := listening.mapDDBEntries ++ [(hSignal,poDDBEntry)]} hSignal nResult
    else listening.rollBack poDDBEntry hSignal unregistering nResult

/-- `InitDDBEntry`, with what the registration of the signal is answered and what its unregistration. -/
def initDDBEntry (entries : DDBEntries) (arguments : DDBArguments) (answers : SignalAnswers)
    (unregistering : Result) : Option DDBOutcome :=
  match arguments.check with
  | none => some .nullPointer
  | some nResult =>
    -- `*ppoDDBAccess = NULL`
    if !arguments.ppoDDBAccess then some .nullPointer
    else
      let poDDBEntry := entries.nextDDB
      let created := {entries with nextDDB := entries.nextDDB + 1}
      if isFailed nResult then some (created.rollBack poDDBEntry arguments.hSignal unregistering nResult)
      else
        (created.components.registerSignal arguments.options answers).map fun (components,nResult) =>
          let registered := {created with components := components}
          if isOk nResult then registered.initRegistered poDDBEntry answers.handle arguments.szMaxDepth unregistering
          else registered.rollBack poDDBEntry arguments.hSignal unregistering nResult

/-- `DestroyDDBEntry`. -/
def destroyDDBEntry (entries : DDBEntries) (hSignal : Nat) (unregistering : Result) : DDBEntries × Result :=
  match entries.mapDDBEntries.find? fun entry => entry.1 == hSignal with
  | none => (entries,.errNotFound)
  | some entry =>
    let (unlistened,nResult) := entries.unregisterDataListener entry.2 hSignal
    let (unregistered,nResult) :=
      if isOk nResult then unlistened.unregisterSignal hSignal unregistering else (unlistened,nResult)
    ({unregistered with mapDDBEntries := unregistered.mapDDBEntries.eraseP fun entry => entry.1 == hSignal},nResult)

end DDBEntries

/-- The two calls, with what the registration and the unregistration of the signal are answered. -/
inductive DDBCall where
  | initDDBEntry (arguments : DDBArguments) (answers : SignalAnswers) (unregistering : Result)
  | destroyDDBEntry (hSignal : Nat) (unregistering : Result)

namespace DDBEntries

def call (entries : DDBEntries) : DDBCall → Option DDBOutcome
  | .initDDBEntry arguments answers unregistering => entries.initDDBEntry arguments answers unregistering
  | .destroyDDBEntry hSignal unregistering =>
    let (entries,nResult) := entries.destroyDDBEntry hSignal unregistering
    some (.returned entries hSignal nResult)

/-- The signals, the listeners and the entries are as they were. -/
structure Same (before after : DDBEntries) : Prop where
  signals : after.components.lstSignals = before.components.lstSignals
  handles : after.components.mapHandles = before.components.mapHandles
  adapters : after.components.listenerAdapters = before.components.listenerAdapters
  listeners : after.listeners = before.listeners
  entries : after.mapDDBEntries = before.mapDDBEntries

/-- The second state has one signal, one listener and one entry more; the data access listens to the signal as to
every other one. -/
structure OneMore (before after : DDBEntries) (hSignal : Nat) (signal : RegisteredSignal) (poDDBEntry : Nat) :
    Prop where
  signals : after.components.lstSignals.Perm (signal::before.components.lstSignals)
  handles : after.components.mapHandles.Perm ((hSignal,signal.address)::before.components.mapHandles)
  adapters : (after.components.listenerAdapters.filter fun adapter => adapter != (.dataAccess,hSignal)) =
    before.components.listenerAdapters
  listeners : after.listeners.Perm ((hSignal,poDDBEntry)::before.listeners)
  entries : after.mapDDBEntries.Perm ((hSignal,poDDBEntry)::before.mapDDBEntries)

/-- What a call has to leave: all or nothing, and no null pointer is used. -/
def Whole (before : DDBEntries) : DDBCall → DDBOutcome → Prop
  | _, .nullPointer => False
  | .initDDBEntry arguments _ _, .returned after hSignal nResult =>
    if isOk nResult then ∃ signal poDDBEntry, before.OneMore after hSignal signal poDDBEntry ∧
      some signal.strSignalName = arguments.strSignalName
    else before.Same after
  | .destroyDDBEntry hSignal _, .returned after _ nResult =>
    if isOk nResult then ∃ signal poDDBEntry, after.OneMore before hSignal signal poDDBEntry else before.Same after

/-- Only receivers have listeners, each at most one buffer, and the handles of the entries differ. -/
structure Consistent (entries : DDBEntries) : Prop extends entries.components.Attached where
  listeners : ∀ listener ∈ entries.listeners, listener.1 ∈ entries.components.receivers ∧ listener.2 < entries.nextDDB
  single : (entries.listeners.map Prod.fst).Nodup
  keys : (entries.mapDDBEntries.map Prod.fst).Nodup

variable {entries : DDBEntries} {poDDBEntry hSignal : Nat} {unregistering : Result}

/-- To unregister the signal of a handle changes something: registration is allowed, and it is an output, or its
unregistration is not refused, or it is listened to. -/
def Disturbed (components : SignalComponents) (hSignal : Nat) (unregistering : Result) : Prop :=
  components.bAllowRegistration = true ∧ ∃ signal ∈ components.findHandle hSignal,
    signal.eDirection = .sdOutput ∨ isOk unregistering = true ∨
      ∃ adapter ∈ components.listenerAdapters, adapter.2 = hSignal

theorem Consistent.withComponents_of_receivers (h : entries.Consistent) {components : SignalComponents}
    (hreceivers : components.receivers = entries.components.receivers) :
    entries.withComponents components = {entries with components := components} := by
  rw [withComponents,filter_eq_self.mpr]
  intro listener hlistener
  rw [hreceivers]
  exact decide_eq_true (h.listeners listener hlistener).1

theorem unregisterDataListener_of_not (h : ¬(entries.bInitialized = true ∧ (hSignal,poDDBEntry) ∈ entries.listeners)) :
    ∃ nResult, isOk nResult = false ∧ entries.unregisterDataListener poDDBEntry hSignal = (entries,nResult) := by
  rw [unregisterDataListener]
  split
  · exact ⟨_,rfl,rfl⟩
  · rename_i hinitialized
    split
    · exact ⟨_,rfl,rfl⟩
    · rw [if_neg fun hlistener => h ⟨by simpa using hinitialized,hlistener⟩]
      exact ⟨_,rfl,rfl⟩

theorem registerDataListener_of_not (h : ¬(entries.bInitialized = true ∧ hSignal ∈ entries.components.receivers)) :
    ∃ nResult, isOk nResult = false ∧ entries.registerDataListener poDDBEntry hSignal = (entries,nResult) := by
  rw [registerDataListener]
  split
  · exact ⟨_,rfl,rfl⟩
  · rename_i hinitialized
    split
    · exact ⟨_,rfl,rfl⟩
    · rename_i hreceiver
      exact absurd ⟨by simpa using hinitialized,not_not.mp hreceiver⟩ h

theorem registerDataListener_of_receiver (hinitialized : entries.bInitialized = true)
    (hreceiver : hSignal ∈ entries.components.receivers) (hfresh : (hSignal,poDDBEntry) ∉ entries.listeners) :
    entries.registerDataListener poDDBEntry hSignal =
      ({entries with listeners := entries.listeners ++ [(hSignal,poDDBEntry)]},.errNoError) := by
  rw [registerDataListener,hinitialized,if_neg (by decide),if_neg (not_not.mpr hreceiver),if_neg hfresh]

theorem rollBack_eq (h : (hSignal,poDDBEntry) ∉ entries.listeners) (nResult : Result) :
    entries.rollBack poDDBEntry hSignal unregistering nResult =
      .returned (entries.unregisterSignal hSignal unregistering).1 hSignal nResult := by
  obtain ⟨_,-,hlistener⟩ := unregisterDataListener_of_not fun hboth => h hboth.2
  rw [rollBack,hlistener]

private theorem eraseP_ne {signals : List RegisteredSignal} {signal : RegisteredSignal} (hsignal : signal ∈ signals) :
    (signals.eraseP fun other => other.address == signal.address) ≠ signals := by
  intro hsame
  have hlength := length_eraseP_of_mem hsignal (p := fun other => other.address == signal.address) (by simp)
  rw [hsame] at hlength
  have hpositive := length_pos_of_mem hsignal
  omega

theorem same_unregisterSignal_iff (h : entries.Consistent) (hSignal : Nat) (unregistering : Result) :
    entries.Same (entries.unregisterSignal hSignal unregistering).1 ↔
      ¬Disturbed entries.components hSignal unregistering := by
  rw [unregisterSignal]
  dsimp only
  by_cases hnothing : entries.components.bAllowRegistration = true → entries.components.findHandle hSignal = none
  · rw [(unregisterSignal_of_nothing hnothing).1,h.withComponents_of_receivers rfl]
    refine iff_of_true ⟨rfl,rfl,rfl,rfl,rfl⟩ ?_
    rintro ⟨hallowed,signal,hsignal,-⟩
    rw [hnothing hallowed] at hsignal
    cases hsignal
  · obtain ⟨hallowed,hfound⟩ := Classical.not_imp.mp hnothing
    obtain ⟨signal,hfound⟩ := ne_none_iff_exists'.mp hfound
    obtain ⟨hsignal,hentry⟩ := h.findHandle_eq_some.mp hfound
    have hdisturbed : Disturbed entries.components hSignal unregistering ↔
        signal.eDirection = .sdOutput ∨ isOk unregistering = true ∨
          ∃ adapter ∈ entries.components.listenerAdapters, adapter.2 = hSignal := by
      simp [Disturbed,hallowed,hfound]
    rw [hdisturbed]
    cases hdirection : signal.eDirection with
    | sdUndefined => exact absurd hdirection (h.direction signal hsignal)
    | sdOutput =>
      refine iff_of_false (fun hsame => ?_) (fun hnot => hnot (.inl rfl))
      refine eraseP_ne hsignal ?_
      rw [← unregisterSignal_output hallowed hfound hdirection]
      exact hsame.signals
    | sdInput =>
      rw [unregisterSignal_input hallowed hfound hdirection]
      cases hok : isOk unregistering with
      | true => exact iff_of_false (fun hsame => eraseP_ne hsignal hsame.signals) (fun hnot => hnot (.inr (.inl rfl)))
      | false =>
        rw [if_neg Bool.false_ne_true,signalUnregistered_eq,h.withComponents_of_receivers]
        · simp only [reduceCtorEq,Bool.false_eq_true,false_or]
          constructor
          · rintro hsame ⟨adapter,hadapter,rfl⟩
            have hadapters := hsame.adapters
            -- a handle that is listened to is that of a receiver, so its signal is not mapped
            obtain ⟨found,hfoundMem,hpair,hunmapped,-⟩ := h.receivers _ (h.adapters adapter hadapter)
            have hsameSignal := h.findHandle_eq_some.mpr ⟨hfoundMem,hpair⟩
            rw [SignalComponents.isMappedSignal,hsameSignal] at hadapters
            simp only [any_some,hunmapped,Bool.false_eq_true,if_false] at hadapters
            rw [← hadapters] at hadapter
            exact absurd (mem_filter.mp hadapter).2 (by simp)
          · intro hnone
            refine ⟨rfl,rfl,?_,rfl,rfl⟩
            split
            · rfl
            · refine filter_eq_self.mpr fun adapter hadapter => ?_
              simpa using fun hsame => hnone ⟨adapter,hadapter,hsame⟩
        · rfl

/-- The state after the registration of the signal of a new entry. -/
private def registered (entries : DDBEntries) (options : UserSignalOptions) (answers : SignalAnswers) : DDBEntries :=
  {entries with nextDDB := entries.nextDDB + 1, components := entries.components.withInput options answers}

variable {options : UserSignalOptions} {answers : SignalAnswers}

theorem Consistent.registered (h : entries.Consistent) (hinput : options.eDirection = .sdInput)
    (hhandle : answers.handle ∉ entries.components.mapHandles.map Prod.fst)
    (hnew : entries.components.findSignal options.strSignalName options.eDirection = none) :
    (entries.registered options answers).Consistent := by
  refine ⟨h.toAttached.withInput hinput hhandle hnew,fun listener hlistener => ?_,h.single,h.keys⟩
  obtain ⟨hreceiver,hlt⟩ := h.listeners listener hlistener
  refine ⟨?_,lt_succ_of_lt hlt⟩
  show listener.1 ∈ if _ then _ else _
  split
  · exact hreceiver
  · exact mem_cons_of_mem _ hreceiver

theorem same_unregister_registered_iff (h : entries.Consistent) (hinput : options.eDirection = .sdInput)
    (hreg : entries.components.Registrable options answers)
    (hhandle : answers.handle ∉ entries.components.mapHandles.map Prod.fst) :
    entries.Same ((entries.registered options answers).unregisterSignal answers.handle unregistering).1 ↔
      isOk unregistering = true := by
  have hregistered : (entries.registered options answers).Consistent := h.registered hinput hhandle hreg.new
  have hfound := hregistered.findHandle_eq_some.mpr ⟨mem_append_right _ (mem_singleton_self _),
      mem_append_right _ (mem_singleton_self _)⟩
  have hallowed : (entries.registered options answers).components.bAllowRegistration = true := hreg.allowed
  rw [unregisterSignal,unregisterSignal_input hallowed hfound hinput,
    signalUnregistered_eq]
  cases hok : isOk unregistering with
  | false =>
    refine iff_of_false (fun hsame => ?_) Bool.false_ne_true
    have hlength := congrArg List.length hsame.signals
    simp [withComponents,registered,SignalComponents.withInput] at hlength
  | true =>
    refine iff_of_true ?_ rfl
    have hmapped : (entries.registered options answers).components.isMappedSignal answers.handle =
        (SignalComponents.registerResult options answers).2 := by
      rw [SignalComponents.isMappedSignal,hfound]
      rfl
    have hnone := h.not_mem_receivers hhandle
    have hadapters : entries.components.listenerAdapters.filter (fun adapter => adapter.2 != answers.handle) =
        entries.components.listenerAdapters := by
      refine filter_eq_self.mpr fun adapter hadapter => ?_
      have hne : adapter.2 ≠ answers.handle := fun hsame => hnone (hsame ▸ h.adapters adapter hadapter)
      simpa using hne
    have hreceivers : entries.components.receivers.filter (fun handle => handle != answers.handle) =
        entries.components.receivers := by
      refine filter_eq_self.mpr fun handle hmem => ?_
      have hne : handle ≠ answers.handle := fun hsame => hnone (hsame ▸ hmem)
      simpa using hne
    have hlisteners := filter_eq_self.mpr fun listener hlistener => decide_eq_true (h.listeners listener hlistener).1
    rw [if_pos rfl,hmapped]
    refine ⟨h.toListed.eraseP_append options _,?_,?_,?_,rfl⟩
    · refine (filter_append ..).trans ?_
      rw [show (entries.components.newSignal options (SignalComponents.registerResult options answers).2).address =
        entries.components.nextAddress from rfl,h.toListed.filter_mapHandles]
      simp
    · cases hkind : (SignalComponents.registerResult options answers).2 with
      | true => simp [withComponents,registered,SignalComponents.withInput,hkind]
      | false =>
        cases hlistening : isOk answers.listening <;>
          simp [withComponents,registered,SignalComponents.withInput,hkind,hlistening,hadapters]
    · cases hkind : (SignalComponents.registerResult options answers).2 with
      | true =>
        simpa [withComponents,registered,SignalComponents.withInput,SignalComponents.newSignal,hkind] using hlisteners
      | false =>
        simpa [withComponents,registered,SignalComponents.withInput,SignalComponents.newSignal,hkind,hreceivers]
          using hlisteners

/-- The listener and the entry can be added for the new signal. -/
structure Listenable (entries : DDBEntries) (options : UserSignalOptions) (answers : SignalAnswers) : Prop where
  initialized : entries.bInitialized = true
  unmapped : (SignalComponents.registerResult options answers).2 = false
  handle : answers.handle ≠ 0
  unused : answers.handle ∉ entries.mapDDBEntries.map Prod.fst

theorem whole_initRegistered_iff (h : entries.Consistent) {arguments : DDBArguments}
    (hreg : entries.components.Registrable arguments.options answers)
    (hhandle : answers.handle ∉ entries.components.mapHandles.map Prod.fst) (hdepth : arguments.szMaxDepth ≠ 0)
    (hname : arguments.strSignalName.isSome) : entries.Whole (.initDDBEntry arguments answers unregistering)
        ((entries.registered arguments.options answers).initRegistered entries.nextDDB answers.handle
          arguments.szMaxDepth unregistering) ↔
      entries.Listenable arguments.options answers ∨ isOk unregistering = true := by
  have hfresh : (answers.handle,entries.nextDDB) ∉ (entries.registered arguments.options answers).listeners :=
    fun hmem => lt_irrefl _ (h.listeners _ hmem).2
  have hback (nResult : Result) (hfailed : isOk nResult = false) :
      entries.Whole (.initDDBEntry arguments answers unregistering)
          ((entries.registered arguments.options answers).rollBack entries.nextDDB answers.handle unregistering
            nResult) ↔ isOk unregistering = true := by
    rw [rollBack_eq hfresh,Whole,if_neg (Bool.eq_false_iff.mp hfailed)]
    exact same_unregister_registered_iff h rfl hreg hhandle
  have hnot {p : Prop} (hp : ¬p) (himp : entries.Listenable arguments.options answers → p) :
      isOk unregistering = true ↔ entries.Listenable arguments.options answers ∨ isOk unregistering = true :=
    (or_iff_right fun hlistenable => hp (himp hlistenable)).symm
  have hreceiver : answers.handle ∈ (entries.registered arguments.options answers).components.receivers ↔
      (SignalComponents.registerResult arguments.options answers).2 = false := by
    show answers.handle ∈ (if _ then _ else _) ↔ _
    cases (SignalComponents.registerResult arguments.options answers).2 with
    | true => simpa using h.not_mem_receivers hhandle
    | false => simp
  rw [initRegistered]
  by_cases hused : answers.handle ∈ entries.mapDDBEntries.map Prod.fst
  · rw [if_pos (show answers.handle ∈ (entries.registered arguments.options answers).mapDDBEntries.map Prod.fst
      from hused),hback _ rfl]
    exact hnot (not_not.mpr hused) Listenable.unused
  · rw [if_neg (show answers.handle ∉ (entries.registered arguments.options answers).mapDDBEntries.map Prod.fst
      from hused)]
    by_cases hzero : answers.handle = 0
    · rw [if_pos (.inl hzero),hback _ rfl]
      exact hnot (not_not.mpr hzero) Listenable.handle
    · rw [if_neg (not_or.mpr ⟨hzero,hdepth⟩)]
      by_cases hlistenable : entries.bInitialized = true ∧
          answers.handle ∈ (entries.registered arguments.options answers).components.receivers
      · have hunmapped := hreceiver.mp hlistenable.2
        refine iff_of_true ?_ (.inl ⟨hlistenable.1,hunmapped,hzero,hused⟩)
        obtain ⟨strSignalName,hstrSignalName⟩ := isSome_iff_exists.mp hname
        have hinitialized : (entries.registered arguments.options answers).bInitialized = true := hlistenable.1
        rw [registerDataListener_of_receiver hinitialized hlistenable.2 hfresh]
        refine ⟨entries.components.newSignal arguments.options false,entries.nextDDB,⟨?_,?_,?_,?_,?_⟩,?_⟩
        · simp only [registered,SignalComponents.withInput,hunmapped]
          exact perm_append_singleton _ _
        · exact perm_append_singleton _ _
        · have hadapters : entries.components.listenerAdapters.filter
              (fun adapter => adapter != (.dataAccess,answers.handle)) = entries.components.listenerAdapters := by
            refine filter_eq_self.mpr fun adapter hadapter => ?_
            have hne : adapter ≠ (.dataAccess,answers.handle) := by
              rintro rfl
              exact h.not_mem_receivers hhandle (h.adapters _ hadapter)
            simpa using hne
          cases hlistening : isOk answers.listening <;>
            simp [registered,SignalComponents.withInput,hunmapped,hlistening,hadapters]
        · exact perm_append_singleton _ _
        · exact perm_append_singleton _ _
        · rw [hstrSignalName]
          simp [SignalComponents.newSignal,DDBArguments.options,hstrSignalName]
      · obtain ⟨nResult,hfailed,hlistener⟩ :=
          @registerDataListener_of_not (entries.registered arguments.options answers) entries.nextDDB answers.handle
            hlistenable
        rw [hlistener]
        dsimp only
        rw [if_neg (Bool.eq_false_iff.mp hfailed),hback _ hfailed]
        exact hnot hlistenable fun hlistenable => ⟨hlistenable.initialized,hreceiver.mpr hlistenable.unmapped⟩

end DDBEntries

namespace DDBArguments
variable {arguments : DDBArguments}

/-- No name is read through a null pointer. -/
def Readable (arguments : DDBArguments) : Prop :=
  ∃ strSignalName, arguments.strSignalName = some strSignalName ∧
    (strSignalName = "" ∨ arguments.strSignalType.isSome)

/-- The names and the depth of an entry. -/
structure Valid (arguments : DDBArguments) : Prop where
  name : ∃ strSignalName, arguments.strSignalName = some strSignalName ∧ strSignalName ≠ ""
  type : ∃ strSignalType, arguments.strSignalType = some strSignalType ∧ strSignalType ≠ ""
  depth : arguments.szMaxDepth ≠ 0

theorem check_eq_none_iff : arguments.check = none ↔ ¬arguments.Readable := by
  rw [check,Readable]
  cases arguments.strSignalName with
  | none => simp
  | some strSignalName =>
    by_cases hempty : strSignalName = ""
    · simp [hempty]
    · cases arguments.strSignalType with
      | none => simp [hempty]
      | some strSignalType => simp [hempty,ite_eq_iff]

theorem check_of_readable (hppo : arguments.ppoDDBAccess = true) (h : arguments.Readable) :
    (arguments.Valid ∧ arguments.check = some .errNoError) ∨ (¬arguments.Valid ∧ arguments.check = some .errEmpty) := by
  obtain ⟨strSignalName,hname,htype⟩ := h
  rw [check,hname]
  dsimp only
  by_cases hempty : strSignalName = ""
  · refine .inr ⟨fun hvalid => ?_,if_pos hempty⟩
    obtain ⟨other,hother,hne⟩ := hvalid.name
    rw [hname,some.injEq] at hother
    exact hne (hother ▸ hempty)
  · obtain ⟨strSignalType,htype⟩ := isSome_iff_exists.mp (htype.resolve_left hempty)
    rw [if_neg hempty,htype,hppo]
    by_cases hinvalid : strSignalType = "" ∨ arguments.szMaxDepth = 0
    · refine .inr ⟨fun hvalid => ?_,if_pos (by tauto)⟩
      obtain ⟨other,hother,hne⟩ := hvalid.type
      rw [htype,some.injEq] at hother
      exact hinvalid.elim (fun h => hne (hother ▸ h)) hvalid.depth
    · obtain ⟨htypeNe,hdepth⟩ := not_or.mp hinvalid
      exact .inl ⟨⟨⟨strSignalName,hname,hempty⟩,⟨strSignalType,htype,htypeNe⟩,hdepth⟩,if_neg (by tauto)⟩

end DDBArguments

namespace DDBEntries
variable {entries : DDBEntries} {poDDBEntry hSignal : Nat} {unregistering : Result}

/-- To begin an entry, no pointer may be null; where the signal is registered, its listener can be added or its
unregistration is not refused; else the handle passed in is not that of a signal. To end one, only the buffer listens
to the signal, whose unregistration is allowed and not refused. -/
def Careful (entries : DDBEntries) : DDBCall → Prop
  | .initDDBEntry arguments answers unregistering =>
    arguments.Readable ∧ arguments.ppoDDBAccess = true ∧
      ((arguments.Valid ∧ entries.components.Registrable arguments.options answers ∧
          (entries.Listenable arguments.options answers ∨ isOk unregistering = true)) ∨
        (¬(arguments.Valid ∧ entries.components.Registrable arguments.options answers) ∧
          ¬Disturbed entries.components arguments.hSignal unregistering))
  | .destroyDDBEntry hSignal unregistering => ∀ entry ∈ entries.mapDDBEntries, entry.1 = hSignal →
    entries.bInitialized = true ∧ entry ∈ entries.listeners ∧ entries.components.bAllowRegistration = true ∧
      isOk unregistering = true ∧ ∀ adapter ∈ entries.components.listenerAdapters, adapter.2 = hSignal →
        adapter.1 = .dataAccess

/-- The numbers that are given out next do not matter. -/
private def later (entries : DDBEntries) (nextDDB nextAddress : Nat) : DDBEntries :=
  {entries with nextDDB := nextDDB, components := {entries.components with nextAddress := nextAddress}}

theorem Consistent.later (h : entries.Consistent) {nextDDB nextAddress : Nat}
    (hnextDDB : entries.nextDDB ≤ nextDDB) (hnextAddress : entries.components.nextAddress ≤ nextAddress) :
    (entries.later nextDDB nextAddress).Consistent :=
  ⟨⟨h.toListed.setNextAddress hnextAddress,h.direction,h.receivers,h.adapters⟩,fun listener hlistener =>
    ⟨(h.listeners listener hlistener).1,lt_of_lt_of_le (h.listeners listener hlistener).2 hnextDDB⟩,
    h.single,h.keys⟩

variable {arguments : DDBArguments} {answers : SignalAnswers}

section
variable (h : entries.Consistent)
include h

private theorem whole_rollBack_iff {nResult : Result} (hfailed : isOk nResult = false) {nextAddress : Nat}
    (hnextAddress : entries.components.nextAddress ≤ nextAddress) :
    entries.Whole (.initDDBEntry arguments answers unregistering)
        ((entries.later (entries.nextDDB + 1) nextAddress).rollBack entries.nextDDB arguments.hSignal unregistering
          nResult) ↔
      ¬Disturbed entries.components arguments.hSignal unregistering := by
  have hfresh : (arguments.hSignal,entries.nextDDB) ∉ entries.listeners := fun hmem =>
    lt_irrefl _ (h.listeners _ hmem).2
  have hlater := h.later (le_succ _) hnextAddress
  rw [@rollBack_eq (entries.later (entries.nextDDB + 1) nextAddress) _ _ _ hfresh,Whole,
    if_neg (Bool.eq_false_iff.mp hfailed)]
  refine Iff.trans ?_ (same_unregisterSignal_iff hlater arguments.hSignal unregistering)
  exact ⟨fun hsame => ⟨hsame.signals,hsame.handles,hsame.adapters,hsame.listeners,hsame.entries⟩,
    fun hsame => ⟨hsame.signals,hsame.handles,hsame.adapters,hsame.listeners,hsame.entries⟩⟩

theorem whole_initDDBEntry_iff
    {outcome : DDBOutcome} (hcall : entries.initDDBEntry arguments answers unregistering = some outcome) :
    entries.Whole (.initDDBEntry arguments answers unregistering) outcome ↔
      entries.Careful (.initDDBEntry arguments answers unregistering) := by
  rw [initDDBEntry] at hcall
  by_cases hreadable : arguments.Readable
  · cases hppo : arguments.ppoDDBAccess with
    | false =>
      obtain ⟨nResult,hcheck⟩ := ne_none_iff_exists'.mp
        (mt DDBArguments.check_eq_none_iff.mp (not_not.mpr hreadable))
      rw [hcheck,hppo] at hcall
      cases hcall
      exact iff_of_false id fun hcareful => Bool.false_ne_true (hppo.symm.trans hcareful.2.1)
    | true =>
      rw [hppo] at hcall
      rcases DDBArguments.check_of_readable hppo hreadable with ⟨hvalid,hcheck⟩ | ⟨hinvalid,hcheck⟩
      · rw [hcheck] at hcall
        obtain ⟨⟨components,nResult⟩,hregister,houtcome⟩ := map_eq_some_iff.mp hcall
        obtain ⟨hhandle,⟨hreg,hok,rfl⟩ | ⟨hnot,hfailed,nextAddress,hnextAddress,rfl⟩⟩ :=
          registerSignal_cases h.toListed hregister
        · dsimp only at houtcome
          rw [if_pos hok,registerAtDataAccess_input h.toListed rfl hhandle hreg.new hreg.accepted]
            at houtcome
          obtain ⟨strSignalName,hname,-⟩ := hvalid.name
          rw [← houtcome]
          refine (whole_initRegistered_iff h hreg hhandle hvalid.depth (by rw [hname]; rfl)).trans ?_
          simp only [Careful,hreadable,hppo,hvalid,hreg,true_and,and_self,not_true_eq_false,false_and,or_false]
        · have hfailed : isOk nResult = false := by simpa [isFailed] using hfailed
          dsimp only at houtcome
          rw [if_neg (Bool.eq_false_iff.mp hfailed)] at houtcome
          rw [← houtcome]
          refine (whole_rollBack_iff h hfailed hnextAddress).trans ?_
          simp only [Careful,hreadable,hppo,hvalid,hnot,true_and,and_false,false_and,not_false_eq_true,false_or]
      · rw [hcheck] at hcall
        cases hcall
        refine (whole_rollBack_iff h rfl (le_refl _)).trans ?_
        simp only [Careful,hreadable,hppo,hinvalid,true_and,false_and,not_false_eq_true,false_or]
  · rw [DDBArguments.check_eq_none_iff.mpr hreadable] at hcall
    cases hcall
    exact iff_of_false id fun hcareful => hreadable hcareful.1

theorem unregisterDataListener_of_mem (hinitialized : entries.bInitialized = true)
    (hlistener : (hSignal,poDDBEntry) ∈ entries.listeners) : entries.unregisterDataListener poDDBEntry hSignal =
      ({entries with listeners := entries.listeners.erase (hSignal,poDDBEntry)},.errNoError) := by
  rw [unregisterDataListener,hinitialized,if_neg (by decide),if_neg (not_not.mpr (h.listeners _ hlistener).1),
    if_pos hlistener]

theorem oneMore_destroyed_iff {entry : Nat × Nat}
    (hentry : entry ∈ entries.mapDDBEntries) (hlistener : entry ∈ entries.listeners) {signal : RegisteredSignal}
    (hsignal : signal ∈ entries.components.lstSignals)
    (hpair : (entry.1,signal.address) ∈ entries.components.mapHandles) {components : SignalComponents}
    (hsignals : components.lstSignals =
      entries.components.lstSignals.eraseP fun other => other.address == signal.address)
    (hhandles : components.mapHandles = entries.components.mapHandles.filter fun other => other.2 != signal.address)
    (hadapters : components.listenerAdapters =
      entries.components.listenerAdapters.filter fun adapter => adapter.2 != entry.1)
    (hreceivers : components.receivers = entries.components.receivers.filter fun handle => handle != entry.1) :
    (∃ signal poDDBEntry, OneMore
        { ({entries with listeners := entries.listeners.erase entry} : DDBEntries).withComponents components with
          mapDDBEntries := entries.mapDDBEntries.eraseP fun other => other.1 == entry.1 }
        entries entry.1 signal poDDBEntry) ↔
      ∀ adapter ∈ entries.components.listenerAdapters, adapter.2 = entry.1 → adapter.1 = .dataAccess := by
  constructor
  · rintro ⟨_,_,hmore⟩ adapter hadapter hsame
    by_contra hother
    have hkept : adapter ∈ components.listenerAdapters := by
      refine hmore.adapters ▸ mem_filter.mpr ⟨hadapter,?_⟩
      simpa using fun h => hother (congrArg Prod.fst h)
    rw [hadapters] at hkept
    exact absurd hsame (by simpa using (mem_filter.mp hkept).2)
  · intro hnobody
    have hsnd : (entries.components.mapHandles.map Prod.snd).Nodup := h.aligned ▸ h.addresses
    refine ⟨signal,entry.2,⟨?_,?_,?_,?_,perm_cons_eraseP_key h.keys hentry⟩⟩
    · show entries.components.lstSignals.Perm (signal::components.lstSignals)
      rw [hsignals]
      exact perm_cons_eraseP_key h.addresses hsignal
    · show entries.components.mapHandles.Perm ((entry.1,signal.address)::components.mapHandles)
      rw [hhandles,← eraseP_key_eq_filter hsnd]
      exact perm_cons_eraseP_key hsnd hpair
    · show _ = components.listenerAdapters
      rw [hadapters]
      refine filter_congr fun adapter hadapter => ?_
      by_cases hsame : adapter.2 = entry.1
      · have haccess : adapter = (.dataAccess,entry.1) := Prod.ext (hnobody adapter hadapter hsame) hsame
        simp [haccess]
      · have hne : adapter ≠ (.dataAccess,entry.1) := fun h => hsame (congrArg Prod.snd h)
        rw [bne_iff_ne.mpr hne,bne_iff_ne.mpr hsame]
    · have hlisteners : ((entries.listeners.erase entry).filter
          fun listener => decide (listener.1 ∈ components.receivers)) = entries.listeners.erase entry := by
        refine filter_eq_self.mpr fun listener hmem => decide_eq_true ?_
        obtain ⟨hne,hold⟩ := (h.single.of_map.mem_erase_iff).mp hmem
        rw [hreceivers]
        refine mem_filter.mpr ⟨(h.listeners listener hold).1,?_⟩
        have hother : listener.1 ≠ entry.1 := fun hsame => hne (inj_on_of_nodup_map h.single hold hlistener hsame)
        simpa using hother
      show entries.listeners.Perm (entry::(entries.listeners.erase entry).filter _)
      rw [hlisteners]
      exact perm_cons_erase hlistener

theorem whole_destroyDDBEntry_iff : entries.Whole (.destroyDDBEntry hSignal unregistering)
        (.returned (entries.destroyDDBEntry hSignal unregistering).1 hSignal
          (entries.destroyDDBEntry hSignal unregistering).2) ↔
      entries.Careful (.destroyDDBEntry hSignal unregistering) := by
  rw [destroyDDBEntry]
  cases hfind : entries.mapDDBEntries.find? fun entry => entry.1 == hSignal with
  | none =>
    refine iff_of_true ⟨rfl,rfl,rfl,rfl,rfl⟩ fun entry hentry hsame => ?_
    exact absurd hsame (by simpa using find?_eq_none.mp hfind entry hentry)
  | some entry =>
    obtain ⟨hentry,rfl⟩ := (OrderedMap.find?_key_eq_some_iff h.keys).mp hfind
    have hcareful : entries.Careful (.destroyDDBEntry entry.1 unregistering) ↔
        entries.bInitialized = true ∧ entry ∈ entries.listeners ∧ entries.components.bAllowRegistration = true ∧
          isOk unregistering = true ∧ ∀ adapter ∈ entries.components.listenerAdapters, adapter.2 = entry.1 →
            adapter.1 = .dataAccess := by
      constructor
      · exact fun hall => hall entry hentry rfl
      · intro hone other hother hsame
        rwa [inj_on_of_nodup_map h.keys hother hentry hsame]
    -- an entry that is gone although the call failed
    have hlost {after : DDBEntries} {nResult : Result} (hmap : after.mapDDBEntries = entries.mapDDBEntries)
        (hfailed : isOk nResult = false) :
        ¬entries.Whole (.destroyDDBEntry entry.1 unregistering) (.returned { after with
            mapDDBEntries := after.mapDDBEntries.eraseP fun other => other.1 == entry.1 } entry.1 nResult) := by
      rw [Whole,if_neg (Bool.eq_false_iff.mp hfailed),hmap]
      intro hsame
      have hlength := (perm_cons_eraseP_key h.keys hentry).length_eq
      rw [show (entries.mapDDBEntries.eraseP fun other => other.1 == entry.1) = entries.mapDDBEntries
        from hsame.entries] at hlength
      exact absurd hlength (by simp)
    rw [hcareful]
    dsimp only
    by_cases hlistens : entries.bInitialized = true ∧ entry ∈ entries.listeners
    · obtain ⟨hinitialized,hlistener⟩ := hlistens
      obtain ⟨signal,hsignal,hpair,hunmapped,hinput⟩ := h.receivers _ (h.listeners entry hlistener).1
      have hfound := h.findHandle_eq_some.mpr ⟨hsignal,hpair⟩
      have hmapped : entries.components.isMappedSignal entry.1 = false := by
        rw [SignalComponents.isMappedSignal,hfound]
        exact hunmapped
      rw [unregisterDataListener_of_mem h hinitialized hlistener]
      rw [if_pos (show isOk .errNoError = true from rfl),unregisterSignal]
      by_cases hallowed : entries.components.bAllowRegistration = true
      · rw [unregisterSignal_input hallowed hfound hinput,
          signalUnregistered_eq,hmapped,hunmapped]
        cases hok : isOk unregistering with
        | true =>
          refine Iff.trans ?_ ⟨fun hall => ⟨hinitialized,hlistener,hallowed,rfl,hall⟩,fun hall => hall.2.2.2.2⟩
          refine oneMore_destroyed_iff h hentry hlistener hsignal hpair ?_ ?_ ?_ ?_ <;> rfl
        | false => refine iff_of_false (hlost rfl hok) fun hall => Bool.false_ne_true hall.2.2.2.1
      · refine iff_of_false ?_ fun hall => hallowed hall.2.2.1
        have hnothing : entries.components.bAllowRegistration = true → entries.components.findHandle entry.1 = none :=
          fun h => absurd h hallowed
        exact hlost rfl (unregisterSignal_of_nothing hnothing).2
    · refine iff_of_false ?_ fun hall => hlistens ⟨hall.1,hall.2.1⟩
      obtain ⟨nResult,hfailed,hunlistened⟩ := @unregisterDataListener_of_not entries entry.2 entry.1 hlistens
      rw [hunlistened]
      rw [if_neg (Bool.eq_false_iff.mp hfailed)]
      exact hlost rfl hfailed

theorem Consistent.withComponents {components : SignalComponents}
    (hattached : components.Attached) : (entries.withComponents components).Consistent := by
  refine ⟨hattached,fun listener hlistener => ?_,?_,h.keys⟩
  · obtain ⟨hmem,hreceiver⟩ := mem_filter.mp hlistener
    exact ⟨of_decide_eq_true hreceiver,(h.listeners listener hmem).2⟩
  · exact h.single.sublist (List.Sublist.map _ filter_sublist)

theorem Consistent.unregisterSignal (hSignal : Nat) (unregistering : Result) :
    (entries.unregisterSignal hSignal unregistering).1.Consistent :=
  h.withComponents (h.toAttached.unregisterSignal hSignal unregistering)

theorem Consistent.unregisterDataListener (poDDBEntry hSignal : Nat) :
    (entries.unregisterDataListener poDDBEntry hSignal).1.Consistent := by
  rw [DDBEntries.unregisterDataListener]
  repeat' split
  · exact h
  · exact h
  · exact ⟨h.toAttached,fun listener hmem => h.listeners listener (mem_of_mem_erase hmem),
      h.single.sublist (List.Sublist.map _ erase_sublist),h.keys⟩
  · exact h

theorem Consistent.destroyDDBEntry (hSignal : Nat) (unregistering : Result) :
    (entries.destroyDDBEntry hSignal unregistering).1.Consistent := by
  have herase {after : DDBEntries} (hafter : after.Consistent) : ({ after with
      mapDDBEntries := after.mapDDBEntries.eraseP fun entry => entry.1 == hSignal } : DDBEntries).Consistent :=
    ⟨hafter.toAttached,hafter.listeners,hafter.single,hafter.keys.sublist (List.Sublist.map _ eraseP_sublist)⟩
  rw [DDBEntries.destroyDDBEntry]
  split
  · exact h
  · rename_i entry _
    have hunlistened := h.unregisterDataListener entry.2 hSignal
    dsimp only
    split
    · exact herase (hunlistened.unregisterSignal hSignal unregistering)
    · exact herase hunlistened

theorem Consistent.rollBack (poDDBEntry hSignal : Nat) (unregistering nResult : Result) :
    ∀ after ∈ (entries.rollBack poDDBEntry hSignal unregistering nResult).entries?, after.Consistent := by
  rintro after hafter
  cases hafter
  exact (h.unregisterDataListener poDDBEntry hSignal).unregisterSignal hSignal unregistering

theorem consistent_initRegistered (hreg : entries.components.Registrable arguments.options answers)
    (hhandle : answers.handle ∉ entries.components.mapHandles.map Prod.fst) :
    ∀ after ∈ ((entries.registered arguments.options answers).initRegistered entries.nextDDB answers.handle
      arguments.szMaxDepth unregistering).entries?, after.Consistent := by
  have hregistered : (entries.registered arguments.options answers).Consistent := h.registered rfl hhandle hreg.new
  have hfresh : (answers.handle,entries.nextDDB) ∉ (entries.registered arguments.options answers).listeners :=
    fun hmem => lt_irrefl _ (h.listeners _ hmem).2
  have hnone : answers.handle ∉ entries.listeners.map Prod.fst := fun hmem => by
    obtain ⟨listener,hlistener,hsame⟩ := mem_map.mp hmem
    exact h.not_mem_receivers hhandle (hsame ▸ (h.listeners listener hlistener).1)
  have hnodup {pairs : List (Nat × Nat)} (hpairs : (pairs.map Prod.fst).Nodup)
      (hnew : answers.handle ∉ pairs.map Prod.fst) :
      ((pairs ++ [(answers.handle,entries.nextDDB)]).map Prod.fst).Nodup := by
    rw [map_append,map_singleton,← concat_eq_append]
    exact List.Nodup.concat hnew hpairs
  rw [initRegistered]
  split
  · exact hregistered.rollBack _ _ _ _
  · rename_i hused
    split
    · exact hregistered.rollBack _ _ _ _
    · by_cases hlistenable : (entries.registered arguments.options answers).bInitialized = true ∧
          answers.handle ∈ (entries.registered arguments.options answers).components.receivers
      · rw [registerDataListener_of_receiver hlistenable.1 hlistenable.2 hfresh]
        rintro after hafter
        cases hafter
        refine ⟨hregistered.toAttached,fun listener hmem => ?_,hnodup h.single hnone,hnodup h.keys hused⟩
        rcases mem_append.mp hmem with hold | hlast
        · exact hregistered.listeners listener hold
        · obtain rfl := mem_singleton.mp hlast
          exact ⟨hlistenable.2,lt_succ_self _⟩
      · obtain ⟨nResult,hfailed,hlistener⟩ :=
          @registerDataListener_of_not (entries.registered arguments.options answers) entries.nextDDB answers.handle
            hlistenable
        rw [hlistener]
        dsimp only
        rw [if_neg (Bool.eq_false_iff.mp hfailed)]
        exact hregistered.rollBack _ _ _ _

theorem Consistent.initDDBEntry
    {outcome : DDBOutcome} (hcall : entries.initDDBEntry arguments answers unregistering = some outcome) :
    ∀ after ∈ outcome.entries?, after.Consistent := by
  have hback {nextAddress : Nat} (hnextAddress : entries.components.nextAddress ≤ nextAddress) (nResult : Result) :
      ∀ after ∈ ((entries.later (entries.nextDDB + 1) nextAddress).rollBack entries.nextDDB arguments.hSignal
        unregistering nResult).entries?, after.Consistent :=
    (h.later (le_succ _) hnextAddress).rollBack _ _ _ _
  rw [DDBEntries.initDDBEntry] at hcall
  cases hcheck : arguments.check with
  | none =>
    rw [hcheck] at hcall
    cases hcall
    nofun
  | some nResult =>
    rw [hcheck] at hcall
    dsimp only at hcall
    split at hcall
    · cases hcall
      nofun
    · split at hcall
      · cases hcall
        exact hback (le_refl _) nResult
      · obtain ⟨⟨components,nResult⟩,hregister,rfl⟩ := map_eq_some_iff.mp hcall
        obtain ⟨hhandle,⟨hreg,hok,rfl⟩ | ⟨-,hfailed,nextAddress,hnextAddress,rfl⟩⟩ :=
          registerSignal_cases h.toListed hregister
        · rw [if_pos hok,registerAtDataAccess_input h.toListed rfl hhandle hreg.new hreg.accepted]
          exact consistent_initRegistered h hreg hhandle
        · have hfailed : isOk nResult = false := by simpa [isFailed] using hfailed
          rw [if_neg (Bool.eq_false_iff.mp hfailed)]
          exact hback hnextAddress nResult

end

end DDBEntries

/-- Calls for the signals and for the entries, and the life of the transmission adapter. -/
inductive EntriesAction where
  | signals (call : SignalCall)
  | entries (call : DDBCall)
  | setInitialized (bInitialized : Bool)

namespace DDBEntries
variable {entries : DDBEntries}

/-- When the module has been created. -/
def new : DDBEntries := ⟨.new,true,[],[],0⟩

def step (entries : DDBEntries) : EntriesAction → Option DDBEntries
  | .signals call => (entries.components.call call).map fun called => entries.withComponents called.1
  | .entries call => (entries.call call).bind DDBOutcome.entries?
  | .setInitialized bInitialized => some {entries with bInitialized := bInitialized}

theorem consistent_of_reaches (h : Reaches step anyAction new entries) : entries.Consistent := by
  have hnew : new.Consistent := by
    refine ⟨new_attached,fun listener hlistener => ?_,nodup_nil,nodup_nil⟩
    cases hlistener
  refine h.invariant hnew fun before action after hbefore _ hstep => ?_
  cases action with
  | signals call =>
    obtain ⟨⟨components,nResult⟩,hcall,rfl⟩ := map_eq_some_iff.mp hstep
    exact hbefore.withComponents (hbefore.toAttached.call hcall)
  | entries call =>
    obtain ⟨outcome,hcall,hafter⟩ := bind_eq_some_iff.mp hstep
    cases call with
    | initDDBEntry arguments answers unregistering => exact hbefore.initDDBEntry hcall after hafter
    | destroyDDBEntry hSignal unregistering =>
      cases hcall
      cases hafter
      exact hbefore.destroyDDBEntry hSignal unregistering
  | setInitialized bInitialized =>
    cases hstep
    exact ⟨hbefore.toAttached,hbefore.listeners,hbefore.single,hbefore.keys⟩

/-- An entry comes and goes as a whole exactly if the call is careful. -/
theorem entries_as_a_whole (h : entries.Consistent) {call : DDBCall} {outcome : DDBOutcome}
    (hcall : entries.call call = some outcome) : entries.Whole call outcome ↔ entries.Careful call := by
  cases call with
  | initDDBEntry arguments answers unregistering => exact whole_initDDBEntry_iff h hcall
  | destroyDDBEntry hSignal unregistering =>
    cases hcall
    exact whole_destroyDDBEntry_iff h

/-- `InitDDBEntry` for the signal `s`, whose registration is accepted. -/
private def initSignal (hSignal handle : Nat) : DDBCall :=
  .initDDBEntry ⟨some "s",some "t",1,hSignal,true⟩ ⟨true,.errNoError,.errNotFound,.errNoError,handle,
    .errNoError⟩ .errNoError

/-- The first entry of a module. -/
theorem first_entry_as_a_whole : ∃ outcome, new.call (initSignal 0 1) = some outcome ∧
    (new.Whole (initSignal 0 1) outcome ↔ new.Careful (initSignal 0 1)) :=
  ⟨_,rfl,entries_as_a_whole (consistent_of_reaches .refl) rfl⟩

/-- A second entry for the signal of the first one, whose handle is passed in, unregisters that signal. -/
theorem second_entry_unregisters : ∃ entries call outcome, Reaches step anyAction new entries ∧
    entries.call call = some outcome ∧ ¬entries.Whole call outcome := by
  refine ⟨_,initSignal 1 2,_,.head trivial (a := .entries (initSignal 0 1)) rfl .refl,rfl,fun hwhole => ?_⟩
  exact absurd hwhole.signals (by decide)

end DDBEntries
end FepParticipant.DistributedDataBuffer
