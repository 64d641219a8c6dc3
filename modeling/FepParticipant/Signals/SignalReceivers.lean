import FepParticipant.Signals.SignalBookkeeping

/-! Registrations and unregistrations one by one, and which signals have receivers whatever is called. -/
namespace FepParticipant.Signals
open Library List Bool

namespace SignalComponents
variable {components : SignalComponents} {options : UserSignalOptions} {answers : SignalAnswers}
variable {answer : Result}

def withInput (components : SignalComponents) (options : UserSignalOptions) (answers : SignalAnswers) :
    SignalComponents :=
  let bIsMapped := (registerResult options answers).2
  { components with
    lstSignals := components.lstSignals ++ [components.newSignal options bIsMapped]
    mapHandles := components.mapHandles ++ [(answers.handle,components.nextAddress)]
    nextAddress := components.nextAddress + 1
    sampleBuffers :=
      if answers.handle ∈ components.sampleBuffers then components.sampleBuffers
      else answers.handle::components.sampleBuffers
    listenerAdapters :=
      if !bIsMapped && isOk answers.listening then components.listenerAdapters ++ [(.dataAccess,answers.handle)]
      else components.listenerAdapters
    receivers := if bIsMapped then components.receivers else answers.handle::components.receivers }

theorem Listed.withInput (h : components.Listed) (hhandle : answers.handle ∉ components.mapHandles.map Prod.fst)
    (hnew : components.findSignal options.strSignalName options.eDirection = none) :
    (components.withInput options answers).Listed :=
  have hlisted : (components.associate (components.newSignal options (registerResult options answers).2)
      answers.handle components.receivers components.signalCounters).Listed := h.associate rfl hhandle hnew
  ⟨hlisted.aligned,hlisted.addresses,hlisted.fresh,hlisted.handles,hlisted.unique⟩

theorem registerAtDataAccess_input (h : components.Listed)
    (hinput : options.eDirection = .sdInput) (hhandle : answers.handle ∉ components.mapHandles.map Prod.fst)
    (hnew : components.findSignal options.strSignalName options.eDirection = none)
    (haccepted : isOk (registerResult options answers).1 = true) :
    ((components.internal options).registerAtDataAccess options components.nextAddress answers).1 =
      components.withInput options answers := by
  have hlisted : (components.withInput options answers).Listed := h.withInput hhandle hnew
  have hfound (registered : SignalComponents)
      (hsignals : registered.lstSignals = (components.withInput options answers).lstSignals)
      (hhandles : registered.mapHandles = (components.withInput options answers).mapHandles) :
      registered.findHandle answers.handle =
        some (components.newSignal options (registerResult options answers).2) := by
    rw [findHandle,hsignals,hhandles]
    exact hlisted.findHandle_eq_some.mpr ⟨mem_append_right _ (mem_singleton_self _),
      mem_append_right _ (mem_singleton_self _)⟩
  have hnot : ¬isFailed (registerResult options answers).1 = true := by
    rw [isFailed,haccepted]
    exact false_ne_true
  rw [registerAtDataAccess,if_neg hnot]
  dsimp only
  rw [hinput,signalRegistered]
  cases hmapped : (registerResult options answers).2 with
  | true =>
    rw [hmapped] at hfound
    rw [if_pos rfl,setMapped_internal h,if_pos,registerDataListener,if_pos]
    · simp only [withInput,hmapped,internal,Bool.not_true,Bool.false_and,Bool.false_eq_true,if_false,if_true]
      rfl
    · rw [isMappedSignal,hfound]
      · rfl
      · simp [withInput,hmapped]
      · simp [withInput,hmapped,internal]
    · rw [hfound]
      · exact beq_iff_eq.mpr hinput
      · simp [withInput,hmapped]
      · simp [withInput,hmapped,internal]
  | false =>
    rw [hmapped] at hfound
    rw [if_neg Bool.false_ne_true,if_pos,registerDataListener,if_neg,if_neg]
    · simp only [withInput,hmapped,internal,Bool.not_false,Bool.true_and,Bool.false_eq_true,if_false]
      split <;> rfl
    · simp
    · rw [isMappedSignal,hfound]
      · exact false_ne_true
      · simp [withInput,hmapped,internal]
      · simp [withInput,hmapped,internal]
    · rw [hfound]
      · exact beq_iff_eq.mpr hinput
      · simp [withInput,hmapped,internal]
      · simp [withInput,hmapped,internal]

theorem unregisterSignal_of_nothing {hSignalHandle : Nat}
    (h : components.bAllowRegistration = true → components.findHandle hSignalHandle = none) :
    (components.unregisterSignal hSignalHandle answer).1 = components ∧
      isOk (components.unregisterSignal hSignalHandle answer).2 = false := by
  rw [unregisterSignal]
  cases hallowed : components.bAllowRegistration with
  | false => exact ⟨rfl,rfl⟩
  | true =>
    rw [h hallowed]
    exact ⟨rfl,rfl⟩

variable {signal : RegisteredSignal} {next : SignalComponents}

theorem unregisterSignal_input {hSignalHandle : Nat}
    (hallowed : components.bAllowRegistration = true) (hfound : components.findHandle hSignalHandle = some signal)
    (hinput : signal.eDirection = .sdInput) : components.unregisterSignal hSignalHandle answer =
      let unregistered := components.signalUnregistered hSignalHandle
      if isOk answer then
        ({ unregistered with
            receivers := if signal.bIsMapped then components.receivers
              else components.receivers.filter fun handle => handle != hSignalHandle
            lstSignals := components.lstSignals.eraseP fun other => other.address == signal.address
            mapHandles := components.mapHandles.filter fun entry => entry.2 != signal.address },.errNoError)
      else (unregistered,answer) := by
  simp only [unregisterSignal,hallowed,hfound,unregisterAtDataAccess,hinput,signalUnregistered_eq,Bool.not_true,
    false_eq_true,if_false,reduceCtorEq]
  cases hok : isOk answer with
  | true =>
    have hfailed : isFailed answer = false := by rw [isFailed,hok]; rfl
    cases signal.bIsMapped <;>
      simp [hfailed,internalUnregisterSignal]
  | false =>
    have hfailed : isFailed answer = true := by rw [isFailed,hok]; rfl
    cases signal.bIsMapped <;> simp [hfailed]

theorem unregisterSignal_output {hSignalHandle : Nat}
    (hallowed : components.bAllowRegistration = true) (hfound : components.findHandle hSignalHandle = some signal)
    (houtput : signal.eDirection = .sdOutput) : (components.unregisterSignal hSignalHandle answer).1.lstSignals =
      components.lstSignals.eraseP fun other => other.address == signal.address := by
  simp only [unregisterSignal,hallowed,hfound,unregisterAtDataAccess,houtput,Bool.not_true,Bool.false_eq_true,
    if_false,reduceCtorEq]
  rfl

/-- The registry lists its signals as it should; only unmapped input signals have receivers, and only receivers
adapters. -/
structure Attached (components : SignalComponents) : Prop extends Listed components where
  direction : ∀ signal ∈ components.lstSignals, signal.eDirection ≠ .sdUndefined
  receivers : ∀ handle ∈ components.receivers, ∃ signal ∈ components.lstSignals,
    (handle,signal.address) ∈ components.mapHandles ∧ signal.bIsMapped = false ∧ signal.eDirection = .sdInput
  adapters : ∀ adapter ∈ components.listenerAdapters, adapter.2 ∈ components.receivers

section
variable (h : components.Attached)
include h

theorem Attached.not_mem_receivers {handle : Nat}
    (hhandle : handle ∉ components.mapHandles.map Prod.fst) : handle ∉ components.receivers := by
  intro hmem
  obtain ⟨signal,-,hpair,-⟩ := h.receivers _ hmem
  exact hhandle (mem_map_of_mem hpair)

theorem Attached.append {handle : Nat} (hlisted : next.Listed)
    (hsignals : next.lstSignals = components.lstSignals ++ [signal])
    (hhandles : next.mapHandles = components.mapHandles ++ [(handle,signal.address)])
    (hdirection : signal.eDirection ≠ .sdUndefined)
    (hreceivers : ∀ other ∈ next.receivers, other ∈ components.receivers ∨
      other = handle ∧ signal.bIsMapped = false ∧ signal.eDirection = .sdInput)
    (hadapters : ∀ adapter ∈ next.listenerAdapters, adapter.2 ∈ next.receivers) : next.Attached := by
  refine ⟨hlisted,fun other hother => ?_,fun other hother => ?_,hadapters⟩
  · rw [hsignals] at hother
    rcases mem_append.mp hother with hold | hlast
    · exact h.direction other hold
    · rwa [mem_singleton.mp hlast]
  · rw [hsignals,hhandles]
    rcases hreceivers other hother with hold | ⟨rfl,hkind⟩
    · obtain ⟨found,hfound,hpair,hkind⟩ := h.receivers other hold
      exact ⟨found,mem_append_left _ hfound,mem_append_left _ hpair,hkind⟩
    · exact ⟨signal,mem_append_right _ (mem_singleton_self _),mem_append_right _ (mem_singleton_self _),hkind⟩

theorem Attached.withInput (hinput : options.eDirection = .sdInput)
    (hhandle : answers.handle ∉ components.mapHandles.map Prod.fst)
    (hnew : components.findSignal options.strSignalName options.eDirection = none) :
    (components.withInput options answers).Attached := by
  have hsubset : components.receivers ⊆ (components.withInput options answers).receivers := by
    intro handle hmem
    show handle ∈ if _ then _ else _
    split
    · exact hmem
    · exact mem_cons_of_mem _ hmem
  refine h.append (h.toListed.withInput hhandle hnew) rfl rfl ?_ ?_ ?_
  · show options.eDirection ≠ _
    rw [hinput]
    decide
  · intro handle hmem
    change handle ∈ if _ then _ else _ at hmem
    split at hmem
    · exact .inl hmem
    · rename_i hunmapped
      rcases mem_cons.mp hmem with rfl | hold
      · exact .inr ⟨rfl,Bool.eq_false_iff.mpr hunmapped,hinput⟩
      · exact .inl hold
  · intro adapter hadapter
    change adapter ∈ if _ then _ else _ at hadapter
    split at hadapter
    · rename_i hlistening
      rcases mem_append.mp hadapter with hold | hlast
      · exact hsubset (h.adapters adapter hold)
      · obtain rfl := mem_singleton.mp hlast
        rw [and_eq_true,not_eq_true'] at hlistening
        show answers.handle ∈ if _ then _ else _
        rw [hlistening.1,if_neg Bool.false_ne_true]
        exact mem_cons_self
    · exact hsubset (h.adapters adapter hadapter)

theorem Attached.setAdapters {adapters : List (UserDataListener × Nat)}
    (hadapters : ∀ adapter ∈ adapters, adapter.2 ∈ components.receivers) :
    {components with listenerAdapters := adapters}.Attached :=
  ⟨⟨h.aligned,h.addresses,h.fresh,h.handles,h.unique⟩,h.direction,h.receivers,hadapters⟩

theorem Attached.registerDataListener (listener : UserDataListener) (hSignalHandle : Nat)
    (answer : Result) : (components.registerDataListener listener hSignalHandle answer).1.Attached := by
  obtain ⟨adapters,heq,hadapters⟩ := registerDataListener_spec components listener hSignalHandle answer
  rw [heq]
  exact h.setAdapters fun adapter hadapter => (hadapters adapter hadapter).elim (h.adapters adapter) id

theorem Attached.unregisterDataListener (listener : UserDataListener) (hSignalHandle : Nat)
    (answer : Result) : (components.unregisterDataListener listener hSignalHandle answer).1.Attached := by
  rw [unregisterDataListener_spec]
  split
  · exact h
  · exact h.setAdapters fun adapter hadapter => h.adapters adapter (mem_of_mem_erase hadapter)

theorem Attached.registerSignal {nResult : Result}
    (hcall : components.registerSignal options answers = some (next,nResult)) : next.Attached := by
  obtain ⟨hhandle,⟨hreg,-,rfl⟩ | ⟨-,-,later,hlater,rfl⟩⟩ := registerSignal_cases h.toListed hcall
  · cases hdirection : options.eDirection with
    | sdUndefined =>
      have haccepted := hreg.accepted
      rw [registerResult,hdirection] at haccepted
      cases haccepted
    | sdInput =>
      rw [registerAtDataAccess_input h.toListed hdirection hhandle hreg.new hreg.accepted]
      exact h.withInput hdirection hhandle hreg.new
    | sdOutput =>
      have haccepted := hreg.accepted
      rw [registerResult,hdirection] at haccepted
      have hok : isFailed answers.adapter = false := by
        rw [isFailed,haccepted]
        rfl
      have hattached (sampleBuffers : List Nat) :
          { components.associate (components.newSignal options false) answers.handle components.receivers
              (answers.handle::components.signalCounters) with sampleBuffers := sampleBuffers }.Attached := by
        have hlisted : (components.associate (components.newSignal options false) answers.handle components.receivers
            (answers.handle::components.signalCounters)).Listed := h.toListed.associate rfl hhandle hreg.new
        refine h.append ⟨hlisted.aligned,hlisted.addresses,hlisted.fresh,hlisted.handles,hlisted.unique⟩ rfl rfl ?_
          (fun other hother => .inl hother) h.adapters
        show options.eDirection ≠ _
        rw [hdirection]
        decide
      simp only [registerAtDataAccess,registerResult,hdirection,hok,false_eq_true,if_false]
      rw [signalRegistered]
      split
      · exact (hattached _).registerDataListener _ _ _
      · exact hattached components.sampleBuffers
  · exact ⟨h.toListed.setNextAddress hlater,h.direction,h.receivers,h.adapters⟩

theorem Attached.erase {handle : Nat} (hpair : (handle,signal.address) ∈ components.mapHandles)
    (hsignals : next.lstSignals = components.lstSignals.eraseP fun other => other.address == signal.address)
    (hhandles : next.mapHandles = components.mapHandles.filter fun entry => entry.2 != signal.address)
    (hnext : next.nextAddress = components.nextAddress)
    (hreceivers : ∀ other ∈ next.receivers, other ∈ components.receivers ∧ other ≠ handle)
    (hadapters : ∀ adapter ∈ next.listenerAdapters, adapter.2 ∈ next.receivers) : next.Attached := by
  refine ⟨h.toListed.erase hsignals hhandles hnext,fun other hother => ?_,fun other hother => ?_,hadapters⟩
  · rw [hsignals] at hother
    exact h.direction other (mem_of_mem_eraseP hother)
  · obtain ⟨hold,hne⟩ := hreceivers other hother
    obtain ⟨found,hfound,hfoundPair,hkind⟩ := h.receivers other hold
    have hsnd : (components.mapHandles.map Prod.snd).Nodup := h.aligned ▸ h.addresses
    have haddress : found.address ≠ signal.address := fun hsame =>
      hne (congrArg Prod.fst (inj_on_of_nodup_map hsnd hfoundPair hpair hsame))
    rw [hsignals,hhandles]
    exact ⟨found,(OrderedMap.mem_eraseP_key_iff h.addresses).mpr ⟨hfound,haddress⟩,
      mem_filter.mpr ⟨hfoundPair,by simpa using haddress⟩,hkind⟩

private theorem Attached.kind {handle : Nat}
    (hfound : components.findHandle handle = some signal) (hmem : handle ∈ components.receivers) :
    signal.bIsMapped = false ∧ signal.eDirection = .sdInput := by
  obtain ⟨found,hlisted,hpair,hkind⟩ := h.receivers handle hmem
  have hsame := h.findHandle_eq_some.mpr ⟨hlisted,hpair⟩
  rw [hfound] at hsame
  cases hsame
  exact hkind

theorem Attached.unregisterSignal (hSignalHandle : Nat) (answer : Result) :
    (components.unregisterSignal hSignalHandle answer).1.Attached := by
  by_cases hnothing : components.bAllowRegistration = true → components.findHandle hSignalHandle = none
  · rw [(unregisterSignal_of_nothing hnothing).1]
    exact h
  · obtain ⟨hallowed,hfound⟩ := Classical.not_imp.mp hnothing
    obtain ⟨signal,hfound⟩ := Option.ne_none_iff_exists'.mp hfound
    obtain ⟨hsignal,hpair⟩ := h.findHandle_eq_some.mp hfound
    have hmapped : components.isMappedSignal hSignalHandle = signal.bIsMapped := by
      rw [isMappedSignal,hfound]
      rfl
    cases hdirection : signal.eDirection with
    | sdUndefined => exact absurd hdirection (h.direction signal hsignal)
    | sdOutput =>
      have hnot : hSignalHandle ∉ components.receivers := fun hmem => by
        have hinput := (h.kind hfound hmem).2
        rw [hdirection] at hinput
        cases hinput
      simp only [SignalComponents.unregisterSignal,hallowed,hfound,unregisterAtDataAccess,hdirection,Bool.not_true,
        false_eq_true,if_false,reduceCtorEq]
      exact h.erase hpair rfl rfl rfl (fun other hother => ⟨hother,fun hsame => hnot (hsame ▸ hother)⟩) h.adapters
    | sdInput =>
      rw [unregisterSignal_input hallowed hfound hdirection,signalUnregistered_eq,hmapped]
      have hkept : ∀ adapter ∈ (if signal.bIsMapped then components.listenerAdapters
          else components.listenerAdapters.filter fun adapter => adapter.2 != hSignalHandle),
          adapter ∈ components.listenerAdapters ∧ (signal.bIsMapped = false → adapter.2 ≠ hSignalHandle) := by
        intro adapter hadapter
        split at hadapter
        · rename_i hkind
          exact ⟨hadapter,fun hunmapped => absurd hkind (Bool.eq_false_iff.mp hunmapped)⟩
        · exact ⟨mem_of_mem_filter hadapter,fun _ => by simpa using (mem_filter.mp hadapter).2⟩
      by_cases hok : isOk answer = true
      · rw [if_pos hok]
        refine h.erase hpair rfl rfl rfl (fun other hother => ?_) fun adapter hadapter => ?_
        · change other ∈ if _ then _ else _ at hother
          split at hother
          · rename_i hkind
            refine ⟨hother,fun hsame => ?_⟩
            exact absurd hkind (Bool.eq_false_iff.mp (h.kind hfound (hsame ▸ hother)).1)
          · obtain ⟨hold,hne⟩ := mem_filter.mp hother
            exact ⟨hold,by simpa using hne⟩
        · obtain ⟨hold,hne⟩ := hkept adapter hadapter
          split
          · exact h.adapters adapter hold
          · rename_i hkind
            exact mem_filter.mpr ⟨h.adapters adapter hold,by simpa using hne (Bool.eq_false_iff.mpr hkind)⟩
      · rw [if_neg hok]
        exact ⟨⟨h.aligned,h.addresses,h.fresh,h.handles,h.unique⟩,h.direction,h.receivers,
          fun adapter hadapter => h.adapters adapter (hkept adapter hadapter).1⟩

theorem Attached.call {call : SignalCall} {nResult : Result}
    (hcall : components.call call = some (next,nResult)) : next.Attached := by
  cases call with
  | registerSignal options answers => exact h.registerSignal hcall
  | unregisterSignal hSignalHandle answer =>
    obtain ⟨rfl,-⟩ := Prod.mk.inj (Option.some.inj hcall)
    exact h.unregisterSignal hSignalHandle answer
  | registerDataListener number hSignalHandle answer =>
    obtain ⟨rfl,-⟩ := Prod.mk.inj (Option.some.inj hcall)
    exact h.registerDataListener _ _ _
  | unregisterDataListener number hSignalHandle answer =>
    obtain ⟨rfl,-⟩ := Prod.mk.inj (Option.some.inj hcall)
    exact h.unregisterDataListener _ _ _
  | setRegistrationAllowed bAllow =>
    cases hcall
    exact ⟨⟨h.aligned,h.addresses,h.fresh,h.handles,h.unique⟩,h.direction,h.receivers,h.adapters⟩

end

theorem new_attached : new.Attached := by
  refine ⟨⟨rfl,nodup_nil,?_,nodup_nil,List.Pairwise.nil⟩,?_,?_,?_⟩ <;>
  · intro _ hmem
    cases hmem

end SignalComponents
end FepParticipant.Signals
