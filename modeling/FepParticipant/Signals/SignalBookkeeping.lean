import FepParticipant.Library.OrderedMap
import FepParticipant.Library.Reachability
import FepParticipant.Signals.SignalComponents
import Mathlib.Data.List.Dedup

/-! When the signal registry and the data access stay in step. -/
namespace FepParticipant.Signals
open Library List Option Nat

namespace SignalComponents
variable {signal : RegisteredSignal} {answer : Result} {answers : SignalAnswers} {nResult : Result}

/-- The registry and the data access are in step. -/
structure InStep (components : SignalComponents) : Prop where
  unique : components.lstSignals.Pairwise fun a b => ¬(a.strSignalName = b.strSignalName ∧ a.eDirection = b.eDirection)
  oneHandle : ∀ signal ∈ components.lstSignals, ∃! handle, (handle,signal.address) ∈ components.mapHandles
  handles : ∀ entry ∈ components.mapHandles, ∃ signal ∈ components.lstSignals, signal.address = entry.2
  buffered : ∀ signal ∈ components.lstSignals, signal.eDirection = .sdInput →
    ∀ handle, (handle,signal.address) ∈ components.mapHandles → handle ∈ components.sampleBuffers
  buffers : ∀ handle ∈ components.sampleBuffers, handle ∈ components.mapHandles.map Prod.fst
  adapters : ∀ adapter ∈ components.listenerAdapters, adapter.2 ∈ components.mapHandles.map Prod.fst

/-- The mapping or the transmission adapter does not refuse to unregister an input signal. -/
def Careful (components : SignalComponents) : SignalCall → Prop
  | .unregisterSignal hSignalHandle answer => components.bAllowRegistration = true →
      ∀ signal ∈ components.findHandle hSignalHandle, signal.eDirection = .sdInput → isOk answer = true
  | _ => True

/-- The handle map holds the addresses of the list, each once, under handles that differ. -/
structure Listed (components : SignalComponents) : Prop where
  aligned : components.mapHandles.map Prod.snd = components.lstSignals.map (·.address)
  addresses : (components.lstSignals.map (·.address)).Nodup
  fresh : ∀ signal ∈ components.lstSignals, signal.address < components.nextAddress
  handles : (components.mapHandles.map Prod.fst).Nodup
  unique : components.lstSignals.Pairwise fun a b => ¬(a.strSignalName = b.strSignalName ∧ a.eDirection = b.eDirection)

def IsInput (components : SignalComponents) (handle : Nat) (signal : RegisteredSignal) : Prop :=
  signal ∈ components.lstSignals ∧ (handle,signal.address) ∈ components.mapHandles ∧ signal.eDirection = .sdInput

/-- The data access has a buffer for each input signal, and listener adapters only for those of receivers. -/
structure Aligned (components : SignalComponents) : Prop extends Listed components where
  buffers : ∀ handle, handle ∈ components.sampleBuffers ↔ ∃ signal, components.IsInput handle signal
  adapters : ∀ adapter ∈ components.listenerAdapters, adapter.2 ∈ components.receivers
  receivers : ∀ handle ∈ components.receivers, ∃ signal, components.IsInput handle signal ∧ signal.bIsMapped = false

variable {components : SignalComponents}

theorem Listed.findHandle_eq_some (h : components.Listed) {handle : Nat} {signal : RegisteredSignal} :
    components.findHandle handle = some signal ↔
      signal ∈ components.lstSignals ∧ (handle,signal.address) ∈ components.mapHandles := by
  simp only [findHandle,bind_eq_some_iff,OrderedMap.find?_key_eq_some_iff h.handles,
    OrderedMap.find?_key_eq_some_iff h.addresses]
  constructor
  · rintro ⟨⟨key,address⟩,⟨hentry,rfl⟩,hsignal,rfl⟩
    exact ⟨hsignal,hentry⟩
  · rintro ⟨hsignal,hentry⟩
    exact ⟨_,⟨hentry,rfl⟩,hsignal,rfl⟩

theorem Aligned.inStep (h : components.Aligned) : components.InStep := by
  have hsnd : (components.mapHandles.map Prod.snd).Nodup := h.aligned ▸ h.addresses
  refine ⟨h.unique,?_,?_,?_,?_,?_⟩
  · intro signal hsignal
    have hmem : signal.address ∈ components.mapHandles.map Prod.snd := h.aligned ▸ mem_map_of_mem hsignal
    obtain ⟨entry,hentry,haddress⟩ := mem_map.mp hmem
    refine ⟨entry.1,haddress ▸ hentry,fun other hother => ?_⟩
    have hsame := inj_on_of_nodup_map hsnd hother hentry haddress.symm
    rw [← hsame]
  · intro entry hentry
    have hmem : entry.2 ∈ components.lstSignals.map (·.address) := h.aligned ▸ mem_map_of_mem hentry
    exact mem_map.mp hmem
  · intro signal hsignal hinput handle hentry
    exact (h.buffers handle).mpr ⟨signal,hsignal,hentry,hinput⟩
  · intro handle hmem
    obtain ⟨signal,-,hentry,-⟩ := (h.buffers handle).mp hmem
    exact mem_map_of_mem hentry
  · intro adapter hadapter
    obtain ⟨signal,⟨-,hentry,-⟩,-⟩ := h.receivers adapter.2 (h.adapters adapter hadapter)
    exact mem_map_of_mem hentry

theorem Aligned.setAdapters (h : components.Aligned) {adapters : List (UserDataListener × Nat)}
    (hadapters : ∀ adapter ∈ adapters, adapter.2 ∈ components.receivers) :
    {components with listenerAdapters := adapters}.Aligned :=
  ⟨⟨h.aligned,h.addresses,h.fresh,h.handles,h.unique⟩,h.buffers,hadapters,h.receivers⟩

theorem registerDataListener_spec (components : SignalComponents) (listener : UserDataListener)
    (hSignalHandle : Nat) (answer : Result) :
    ∃ adapters, (components.registerDataListener listener hSignalHandle answer).1 =
        {components with listenerAdapters := adapters} ∧
      ∀ adapter ∈ adapters, adapter ∈ components.listenerAdapters ∨ adapter.2 ∈ components.receivers := by
  rw [registerDataListener]
  split
  · exact ⟨_,rfl,fun adapter hadapter => .inl hadapter⟩
  · split
    · exact ⟨_,rfl,fun adapter hadapter => .inl hadapter⟩
    · rename_i hreceiver
      split
      · refine ⟨_,rfl,fun adapter hadapter => ?_⟩
        rcases mem_append.mp hadapter with hbefore | hnew
        · exact .inl hbefore
        · obtain rfl := mem_singleton.mp hnew
          exact .inr (not_not.mp hreceiver)
      · exact ⟨_,rfl,fun adapter hadapter => .inl hadapter⟩

theorem unregisterDataListener_spec (listener : UserDataListener) (hSignalHandle : Nat) :
    (components.unregisterDataListener listener hSignalHandle answer).1 =
      if components.isMappedSignal hSignalHandle then components
      else {components with listenerAdapters := components.listenerAdapters.erase (listener,hSignalHandle)} := by
  rw [unregisterDataListener]
  split
  · rfl
  · split
    · rfl
    · rename_i hmem
      rw [erase_of_not_mem hmem]

theorem registerDataListener_aligned (h : components.Aligned) (listener : UserDataListener)
    (hSignalHandle : Nat) : (components.registerDataListener listener hSignalHandle answer).1.Aligned := by
  obtain ⟨adapters,heq,hadapters⟩ := registerDataListener_spec components listener hSignalHandle answer
  rw [heq]
  exact h.setAdapters fun adapter hadapter => (hadapters adapter hadapter).elim (h.adapters adapter) id

theorem unregisterDataListener_aligned (h : components.Aligned) (listener : UserDataListener)
    (hSignalHandle : Nat) : (components.unregisterDataListener listener hSignalHandle answer).1.Aligned := by
  rw [unregisterDataListener_spec]
  split
  · exact h
  · exact h.setAdapters fun adapter hadapter => h.adapters adapter (mem_of_mem_erase hadapter)

private theorem diff_filter {α : Type} [BEq α] [LawfulBEq α] (p : α → Bool) (l : List α) :
    l.diff (l.filter p) = l.filter fun x => !p x := by
  induction l with
  | nil => rfl
  | cons x l ih =>
    by_cases hx : p x = true
    · rw [filter_cons_of_pos hx,diff_cons,erase_cons_head,ih,filter_cons_of_neg (by simp [hx])]
    · have hnot : x ∉ l.filter p := fun hmem => hx (mem_filter.mp hmem).2
      rw [filter_cons_of_neg hx,cons_diff_of_not_mem hnot,ih,filter_cons_of_pos (by simp [hx])]

private theorem foldl_unregister {hSignal : Nat} (hunmapped : components.isMappedSignal hSignal = false)
    {lstTemp : List (UserDataListener × Nat)} (htemp : ∀ adapter ∈ lstTemp, adapter.2 = hSignal) :
    lstTemp.foldl (fun components adapter => (components.unregisterDataListener adapter.1 hSignal .errNoError).1)
        components =
      {components with listenerAdapters := components.listenerAdapters.diff lstTemp} := by
  induction lstTemp generalizing components with
  | nil => rfl
  | cons adapter lstTemp ih =>
    rw [forall_mem_cons] at htemp
    obtain rfl := htemp.1
    rw [foldl_cons,unregisterDataListener_spec,hunmapped,if_neg Bool.false_ne_true,diff_cons]
    exact ih hunmapped htemp.2

/-- What is left when a signal is unregistered at the data access: no adapter of an unmapped signal and no buffer. -/
theorem signalUnregistered_eq (components : SignalComponents) (hSignal : Nat) :
    components.signalUnregistered hSignal = { components with
        listenerAdapters :=
          if components.isMappedSignal hSignal then components.listenerAdapters
          else components.listenerAdapters.filter fun adapter => adapter.2 != hSignal
        sampleBuffers := components.sampleBuffers.filter fun handle => handle != hSignal } := by
  have htemp : ∀ adapter ∈ components.listenerAdapters.filter fun adapter => adapter.2 == hSignal,
      adapter.2 = hSignal := by
    intro adapter hadapter
    exact beq_iff_eq.mp (mem_filter.mp hadapter).2
  rw [signalUnregistered]
  by_cases hmapped : components.isMappedSignal hSignal = true
  · have hkeeps : ∀ lstTemp : List (UserDataListener × Nat), lstTemp.foldl
        (fun components adapter => (components.unregisterDataListener adapter.1 hSignal .errNoError).1)
        components = components := by
      intro lstTemp
      induction lstTemp with
      | nil => rfl
      | cons adapter lstTemp ih => rw [foldl_cons,unregisterDataListener_spec,if_pos hmapped,ih]
    rw [hkeeps,if_pos hmapped]
  · rw [foldl_unregister (Bool.eq_false_iff.mpr hmapped) htemp,diff_filter,if_neg hmapped]
    rfl

variable {next : SignalComponents} {options : UserSignalOptions}

theorem Listed.erase (h : components.Listed) {address : Nat}
    (hsignals : next.lstSignals = components.lstSignals.eraseP fun signal => signal.address == address)
    (hhandles : next.mapHandles = components.mapHandles.filter fun entry => entry.2 != address)
    (hnext : next.nextAddress = components.nextAddress) : next.Listed := by
  have hlist : next.lstSignals.map (·.address) =
      (components.lstSignals.map (·.address)).filter fun other => other != address := by
    rw [hsignals,OrderedMap.eraseP_key_eq_filter h.addresses,List.filter_map]
    rfl
  refine ⟨?_,?_,?_,?_,?_⟩
  · rw [hlist,hhandles,← h.aligned,List.filter_map]
    rfl
  · rw [hlist]
    exact h.addresses.filter _
  · intro other hother
    rw [hsignals] at hother
    rw [hnext]
    exact h.fresh other (mem_of_mem_eraseP hother)
  · rw [hhandles]
    exact h.handles.sublist (List.Sublist.map _ filter_sublist)
  · rw [hsignals]
    exact h.unique.sublist eraseP_sublist

theorem internalUnregister_aligned (h : components.Aligned) {handle : Nat}
    (hfound : components.findHandle handle = some signal) {adapters : List (UserDataListener × Nat)}
    {receivers : List Nat} (counters : List Nat)
    (hreceivers : ∀ other ∈ receivers, other ∈ components.receivers ∧ other ≠ handle)
    (hadapters : ∀ adapter ∈ adapters, adapter.2 ∈ receivers) : ({ components with
        listenerAdapters := adapters
        signalCounters := counters
        sampleBuffers := components.sampleBuffers.filter fun other => other != handle
        receivers := receivers }.internalUnregisterSignal signal.address).Aligned := by
  obtain ⟨hsignal,hentry⟩ := h.findHandle_eq_some.mp hfound
  have hsnd : (components.mapHandles.map Prod.snd).Nodup := h.aligned ▸ h.addresses
  have hlisted : ({ components with
      listenerAdapters := adapters
      signalCounters := counters
      sampleBuffers := components.sampleBuffers.filter fun other => other != handle
      receivers := receivers }.internalUnregisterSignal signal.address).Listed := h.toListed.erase rfl rfl rfl
  -- the input signals left are those under another handle
  have hinputs (other : Nat) (found : RegisteredSignal) : ({ components with
      listenerAdapters := adapters
      signalCounters := counters
      sampleBuffers := components.sampleBuffers.filter fun other => other != handle
      receivers := receivers }.internalUnregisterSignal signal.address).IsInput other found ↔
        components.IsInput other found ∧ other ≠ handle := by
    have haddress (hpair : (other,found.address) ∈ components.mapHandles) :
        found.address = signal.address ↔ other = handle := by
      constructor
      · exact fun hsame => congrArg Prod.fst (inj_on_of_nodup_map hsnd hpair hentry hsame)
      · exact fun hsame => congrArg Prod.snd (inj_on_of_nodup_map h.handles hpair hentry hsame)
    unfold IsInput internalUnregisterSignal
    dsimp only
    rw [mem_filter,bne_iff_ne]
    constructor
    · rintro ⟨hmem,⟨hpair,hne⟩,hinput⟩
      exact ⟨⟨mem_of_mem_eraseP hmem,hpair,hinput⟩,(haddress hpair).not.mp hne⟩
    · rintro ⟨⟨hmem,hpair,hinput⟩,hne⟩
      have hne' := (haddress hpair).not.mpr hne
      exact ⟨(mem_eraseP_of_neg (by simpa using hne')).mpr hmem,⟨hpair,hne'⟩,hinput⟩
  refine ⟨hlisted,?_,hadapters,?_⟩
  · intro other
    simp only [hinputs,exists_and_right,← h.buffers]
    simp [internalUnregisterSignal]
  · intro other hother
    obtain ⟨hbefore,hne⟩ := hreceivers other hother
    obtain ⟨found,hinput,hunmapped⟩ := h.receivers other hbefore
    exact ⟨found,(hinputs other found).mpr ⟨hinput,hne⟩,hunmapped⟩

/-- A signal that is mapped, or no input signal, has no receiver. -/
theorem Aligned.not_receiver (h : components.Aligned) {hSignalHandle : Nat}
    (hfound : components.findHandle hSignalHandle = some signal)
    (hother : signal.bIsMapped = true ∨ signal.eDirection ≠ .sdInput) : hSignalHandle ∉ components.receivers := by
  intro hmem
  obtain ⟨found,⟨hlisted,hpair,hinput⟩,hunmapped⟩ := h.receivers hSignalHandle hmem
  have hsame := h.findHandle_eq_some.mpr ⟨hlisted,hpair⟩
  rw [hfound] at hsame
  cases hsame
  rcases hother with hmapped | houtput
  · cases hmapped.symm.trans hunmapped
  · exact houtput hinput

theorem unregisterOutput_aligned (h : components.Aligned) {hSignalHandle : Nat}
    (hfound : components.findHandle hSignalHandle = some signal) (houtput : signal.eDirection ≠ .sdInput)
    (counters : List Nat) :
    ({components with signalCounters := counters}.internalUnregisterSignal signal.address).Aligned := by
  have hbuffers : components.sampleBuffers.filter (fun other => other != hSignalHandle) = components.sampleBuffers := by
    refine filter_eq_self.mpr fun other hother => bne_iff_ne.mpr ?_
    rintro rfl
    obtain ⟨found,hlisted,hpair,hinput⟩ := (h.buffers other).mp hother
    have hsame := h.findHandle_eq_some.mpr ⟨hlisted,hpair⟩
    rw [hfound] at hsame
    cases hsame
    exact houtput hinput
  have haligned := internalUnregister_aligned h hfound counters
    (fun other hother => ⟨hother,fun hsame => h.not_receiver hfound (.inr houtput) (hsame ▸ hother)⟩) h.adapters
  rw [hbuffers] at haligned
  exact haligned

theorem unregisterInput_aligned (h : components.Aligned) {hSignalHandle : Nat} {answer : Result}
    (hfound : components.findHandle hSignalHandle = some signal) (hinput : signal.eDirection = .sdInput)
    (hok : isOk answer = true) : ((components.unregisterAtDataAccess signal hSignalHandle
      answer).1.internalUnregisterSignal signal.address).Aligned := by
  have hmapped : components.isMappedSignal hSignalHandle = signal.bIsMapped := by
    rw [isMappedSignal,hfound]
    rfl
  have hunregistered := signalUnregistered_eq components hSignalHandle
  rw [hmapped] at hunregistered
  cases hcase : signal.bIsMapped with
  | false =>
    simp only [unregisterAtDataAccess,hinput,hunregistered,hcase,hok,Bool.not_false,Bool.and_self,if_true,
      Bool.false_eq_true,if_false]
    refine internalUnregister_aligned h hfound _ ?_ ?_
    · intro other hother
      obtain ⟨hmem,hne⟩ := mem_filter.mp hother
      exact ⟨hmem,by simpa using hne⟩
    · intro adapter hadapter
      obtain ⟨hmem,hne⟩ := mem_filter.mp hadapter
      exact mem_filter.mpr ⟨h.adapters adapter hmem,hne⟩
  | true =>
    simp only [unregisterAtDataAccess,hinput,hunregistered,hcase,Bool.not_true,Bool.false_and,
      Bool.false_eq_true,if_false]
    refine internalUnregister_aligned h hfound _ (fun other hother => ⟨hother,fun hsame => ?_⟩) h.adapters
    exact h.not_receiver hfound (.inl hcase) (hsame ▸ hother)

theorem unregisterSignal_aligned (h : components.Aligned) {hSignalHandle : Nat} {answer : Result}
    (hcareful : components.Careful (.unregisterSignal hSignalHandle answer)) :
    (components.unregisterSignal hSignalHandle answer).1.Aligned ∧
      (isFailed (components.unregisterSignal hSignalHandle answer).2 = true →
        (components.unregisterSignal hSignalHandle answer).1 = components) := by
  rw [unregisterSignal]
  split
  · exact ⟨h,fun _ => rfl⟩
  · rename_i hallowed
    split
    · exact ⟨h,fun _ => rfl⟩
    · rename_i signal hfound
      have hanswer := hcareful (by simpa using hallowed) signal hfound
      cases hdirection : signal.eDirection with
      | sdUndefined => exact ⟨h,fun _ => rfl⟩
      | sdOutput =>
        have houtput : signal.eDirection ≠ .sdInput := by rw [hdirection]; decide
        have haligned := unregisterOutput_aligned h hfound houtput
        simp only [unregisterAtDataAccess,hdirection]
        exact ⟨haligned _,fun hfail => by cases hfail⟩
      | sdInput =>
        have hok := hanswer hdirection
        have haligned := unregisterInput_aligned h hfound hdirection hok
        have hresult : (components.unregisterAtDataAccess signal hSignalHandle answer).2 = answer := by
          simp only [unregisterAtDataAccess,hdirection]
          split <;> rfl
        have hnotFailed : ¬isFailed answer = true := by
          rw [isFailed,hok]
          exact Bool.false_ne_true
        simp only [hresult,hnotFailed]
        exact ⟨haligned,fun hfail => by cases hfail⟩

/-- The new signal at the end of the list, and its handle in the map. -/
def associate (components : SignalComponents) (signal : RegisteredSignal) (handle : Nat)
    (receivers counters : List Nat) : SignalComponents :=
  { components with
    lstSignals := components.lstSignals ++ [signal]
    nextAddress := components.nextAddress + 1
    mapHandles := components.mapHandles ++ [(handle,signal.address)]
    signalCounters := counters
    receivers := receivers }

variable {handle : Nat} {receivers counters : List Nat}

theorem Listed.associate {signal : RegisteredSignal} (h : components.Listed)
    (haddress : signal.address = components.nextAddress) (hhandle : handle ∉ components.mapHandles.map Prod.fst)
    (hnew : components.findSignal signal.strSignalName signal.eDirection = none) :
    (components.associate signal handle receivers counters).Listed := by
  refine ⟨?_,?_,?_,?_,?_⟩
  · simp only [SignalComponents.associate,map_append,h.aligned,map_cons,map_nil]
  · simp only [SignalComponents.associate,map_append,nodup_append]
    refine ⟨h.addresses,nodup_singleton _,fun address hmem other hother => ?_⟩
    obtain ⟨before,hbefore,rfl⟩ := mem_map.mp hmem
    obtain rfl := mem_singleton.mp hother
    have hne := Nat.ne_of_lt (h.fresh before hbefore)
    rwa [← haddress] at hne
  · intro other hother
    rcases mem_append.mp hother with hbefore | hlast
    · exact lt_succ_of_lt (h.fresh other hbefore)
    · obtain rfl := mem_singleton.mp hlast
      rw [haddress]
      exact lt_succ_self _
  · simp only [SignalComponents.associate,map_append,nodup_append]
    refine ⟨h.handles,nodup_singleton _,fun key hmem other hother hsame => ?_⟩
    obtain rfl := mem_singleton.mp hother
    exact hhandle (hsame ▸ hmem)
  · refine pairwise_append.mpr ⟨h.unique,pairwise_singleton _ _,fun other hother last hlast => ?_⟩
    obtain rfl := mem_singleton.mp hlast
    simpa using find?_eq_none.mp hnew other hother

theorem associate_isInput
    (hlisted : (components.associate signal handle receivers counters).Listed) (other : Nat)
    (found : RegisteredSignal) : (components.associate signal handle receivers counters).IsInput other found ↔
      components.IsInput other found ∨ other = handle ∧ found = signal ∧ signal.eDirection = .sdInput := by
  have hlast : signal ∈ (components.associate signal handle receivers counters).lstSignals ∧
      (handle,signal.address) ∈ (components.associate signal handle receivers counters).mapHandles :=
    ⟨mem_append_right _ (mem_singleton_self _),mem_append_right _ (mem_singleton_self _)⟩
  constructor
  · rintro ⟨hmem,hpair,hinput⟩
    by_cases hsame : other = handle
    · subst hsame
      have hfound := hlisted.findHandle_eq_some.mpr ⟨hmem,hpair⟩
      obtain rfl := some_inj.mp (hfound.symm.trans (hlisted.findHandle_eq_some.mpr hlast))
      exact .inr ⟨rfl,rfl,hinput⟩
    · have hsnd : ((components.associate signal handle receivers counters).mapHandles.map Prod.snd).Nodup :=
        hlisted.aligned ▸ hlisted.addresses
      refine .inl ⟨?_,?_,hinput⟩
      · refine (mem_append.mp hmem).resolve_right fun hnew => hsame ?_
        obtain rfl := mem_singleton.mp hnew
        exact congrArg Prod.fst (inj_on_of_nodup_map hsnd hpair hlast.2 rfl)
      · refine (mem_append.mp hpair).resolve_right fun hnew => hsame ?_
        exact congrArg Prod.fst (mem_singleton.mp hnew)
  · rintro (⟨hmem,hpair,hinput⟩ | ⟨rfl,rfl,hinput⟩)
    · exact ⟨mem_append_left _ hmem,mem_append_left _ hpair,hinput⟩
    · exact ⟨hlast.1,hlast.2,hinput⟩

/-- With its buffer, if it is an input signal, and with its receiver a new signal is accounted for. -/
theorem associate_aligned (h : components.Aligned)
    (hlisted : (components.associate signal handle receivers counters).Listed)
    (hreceivers : receivers = components.receivers ∨
      receivers = handle::components.receivers ∧ signal.bIsMapped = false ∧ signal.eDirection = .sdInput)
    {buffers : List Nat} (hbuffers : ∀ other, other ∈ buffers ↔
      other ∈ components.sampleBuffers ∨ other = handle ∧ signal.eDirection = .sdInput)
    {adapters : List (UserDataListener × Nat)}
    (hadapters : ∀ adapter ∈ adapters, adapter ∈ components.listenerAdapters ∨ adapter.2 ∈ receivers) :
    { components.associate signal handle receivers counters with
      sampleBuffers := buffers
      listenerAdapters := adapters }.Aligned := by
  have hinputs := associate_isInput hlisted
  have hsubset : components.receivers ⊆ receivers := by
    rcases hreceivers with rfl | ⟨rfl,-⟩
    · exact List.Subset.refl _
    · exact subset_cons_self _ _
  refine ⟨⟨hlisted.aligned,hlisted.addresses,hlisted.fresh,hlisted.handles,hlisted.unique⟩,fun other => ?_,?_,?_⟩
  · refine (hbuffers other).trans (Iff.trans ?_ (exists_congr fun found => (hinputs other found).symm))
    rw [h.buffers other,exists_or]
    refine or_congr_right ⟨fun hnew => ⟨signal,hnew.1,rfl,hnew.2⟩,?_⟩
    rintro ⟨-,hsame,-,hinput⟩
    exact ⟨hsame,hinput⟩
  · intro adapter hadapter
    exact (hadapters adapter hadapter).elim (fun hbefore => hsubset (h.adapters adapter hbefore)) id
  · intro other hother
    have hcases : other ∈ components.receivers ∨
        other = handle ∧ signal.bIsMapped = false ∧ signal.eDirection = .sdInput := by
      rcases hreceivers with rfl | ⟨rfl,hunmapped⟩
      · exact .inl hother
      · exact (mem_cons.mp hother).symm.imp_right fun hsame => ⟨hsame,hunmapped⟩
    rcases hcases with hbefore | ⟨hsame,hunmapped,hinput⟩
    · obtain ⟨found,hinput,hunmapped⟩ := h.receivers other hbefore
      exact ⟨found,(hinputs other found).mpr (.inl hinput),hunmapped⟩
    · exact ⟨signal,(hinputs other signal).mpr (.inr ⟨hsame,rfl,hinput⟩),hunmapped⟩

theorem associate_registered (signal : RegisteredSignal) (counters : List Nat) (h : components.Aligned)
    (haddress : signal.address = components.nextAddress) (hhandle : handle ∉ components.mapHandles.map Prod.fst)
    (hnew : components.findSignal signal.strSignalName signal.eDirection = none)
    (hreceivers : receivers = components.receivers ∨
      receivers = handle::components.receivers ∧ signal.bIsMapped = false ∧ signal.eDirection = .sdInput)
    (listening : Result) :
    ((components.associate signal handle receivers counters).signalRegistered handle listening).Aligned := by
  have hlisted : (components.associate signal handle receivers counters).Listed :=
    h.toListed.associate haddress hhandle hnew
  have hfound : (components.associate signal handle receivers counters).findHandle handle = some signal :=
    hlisted.findHandle_eq_some.mpr
      ⟨mem_append_right _ (mem_singleton_self _),mem_append_right _ (mem_singleton_self _)⟩
  rw [signalRegistered,hfound,any_some]
  by_cases hinput : signal.eDirection = .sdInput
  · have hnone : handle ∉ (components.associate signal handle receivers counters).sampleBuffers := fun hmem => by
      obtain ⟨found,-,hpair,-⟩ := (h.buffers handle).mp hmem
      exact hhandle (mem_map_of_mem hpair)
    rw [if_pos (beq_iff_eq.mpr hinput),if_neg hnone]
    obtain ⟨adapters,heq,hadapters⟩ := registerDataListener_spec
      { components.associate signal handle receivers counters with
        sampleBuffers := handle::(components.associate signal handle receivers counters).sampleBuffers }
      .dataAccess handle listening
    rw [heq]
    refine associate_aligned h hlisted hreceivers (fun other => ?_) hadapters
    rw [mem_cons,or_comm]
    exact or_congr_right (and_iff_left hinput).symm
  · rw [if_neg (by rw [beq_iff_eq]; exact hinput)]
    have hnothing : ∀ other, other ∈ components.sampleBuffers ↔
        other ∈ components.sampleBuffers ∨ other = handle ∧ signal.eDirection = .sdInput := fun other =>
      (or_iff_left fun hnew => hinput hnew.2).symm
    exact associate_aligned h hlisted hreceivers hnothing fun adapter hadapter => .inl hadapter

/-- The entry of the list that a registration makes. -/
def newSignal (components : SignalComponents) (options : UserSignalOptions) (bIsMapped : Bool) :
    RegisteredSignal :=
  ⟨components.nextAddress,options.strSignalName,options.strSignalType,options.eDirection,options.bIsRaw,bIsMapped⟩

/-- The components between the registration in the list and that at the data access. -/
def internal (components : SignalComponents) (options : UserSignalOptions) : SignalComponents :=
  { components with
    lstSignals := components.lstSignals ++ [components.newSignal options false]
    nextAddress := components.nextAddress + 1 }

theorem findSignal_internal (hnew : components.findSignal options.strSignalName options.eDirection = none) :
    (components.internal options).findSignal options.strSignalName options.eDirection =
      some (components.newSignal options false) := by
  rw [findSignal] at hnew
  rw [findSignal,internal,find?_append,hnew]
  simp [newSignal]

section
variable (h : components.Listed)
include h

theorem Listed.eraseP_append (options : UserSignalOptions) (bIsMapped : Bool) :
    (components.lstSignals ++ [components.newSignal options bIsMapped]).eraseP
      (fun signal => signal.address == components.nextAddress) = components.lstSignals := by
  rw [eraseP_append_right]
  · simp [newSignal]
  · intro signal hsignal
    simpa using Nat.ne_of_lt (h.fresh signal hsignal)

theorem Listed.filter_mapHandles :
    components.mapHandles.filter (fun entry => entry.2 != components.nextAddress) = components.mapHandles := by
  rw [filter_eq_self]
  intro entry hentry
  have hmem : entry.2 ∈ components.lstSignals.map (·.address) := h.aligned ▸ mem_map_of_mem hentry
  obtain ⟨signal,hsignal,haddress⟩ := mem_map.mp hmem
  simpa [← haddress] using Nat.ne_of_lt (h.fresh signal hsignal)

theorem internalUnregister_internal : (components.internal options).internalUnregisterSignal components.nextAddress =
      {components with nextAddress := components.nextAddress + 1} := by
  rw [internalUnregisterSignal,internal,h.eraseP_append]
  simp only [h.filter_mapHandles]

theorem setMapped_internal :
    (components.internal options).setMapped components.nextAddress = { components.internal options with
        lstSignals := components.lstSignals ++ [components.newSignal options true] } := by
  rw [setMapped,internal,map_append]
  congr 2
  · refine (map_congr_left fun signal hsignal => ?_).trans (map_id _)
    exact if_neg (Nat.ne_of_lt (h.fresh signal hsignal))
  · simp [newSignal]

theorem Listed.setNextAddress {later : Nat} (hlater : components.nextAddress ≤ later) :
    {components with nextAddress := later}.Listed :=
  ⟨h.aligned,h.addresses,fun signal hsignal => lt_of_lt_of_le (h.fresh signal hsignal) hlater,h.handles,h.unique⟩

end

theorem registerAtDataAccess_aligned (h : components.Aligned)
    (hhandle : answers.handle ∉ components.mapHandles.map Prod.fst)
    (hnew : components.findSignal options.strSignalName options.eDirection = none)
    (hok : isOk (registerResult options answers).1 = true) :
    ((components.internal options).registerAtDataAccess options components.nextAddress answers).1.Aligned := by
  rw [registerAtDataAccess]
  generalize hanswered : registerResult options answers = answered at hok
  rw [registerResult] at hanswered
  obtain ⟨nResult,mapped⟩ := answered
  rw [if_neg (by rw [isFailed,hok]; exact Bool.false_ne_true)]
  -- only an input signal can be mapped, and only one that is not has a receiver
  cases mapped with
  | true =>
    rw [if_pos rfl,setMapped_internal h.toListed]
    cases hdirection : options.eDirection with
    | sdUndefined =>
      rw [hdirection] at hanswered
      cases hanswered
    | sdOutput =>
      rw [hdirection] at hanswered
      cases hanswered
    | sdInput =>
      exact associate_registered (components.newSignal options true) components.signalCounters h rfl hhandle hnew
        (.inl rfl) answers.listening
  | false =>
    cases hdirection : options.eDirection with
    | sdUndefined =>
      rw [hdirection] at hanswered
      cases hanswered
      cases hok
    | sdOutput =>
      exact associate_registered (components.newSignal options false) (answers.handle::components.signalCounters) h
        rfl hhandle hnew (.inl rfl) answers.listening
    | sdInput =>
      exact associate_registered (components.newSignal options false) components.signalCounters h rfl hhandle hnew
        (.inr ⟨rfl,rfl,hdirection⟩) answers.listening

structure Registrable (components : SignalComponents) (options : UserSignalOptions) (answers : SignalAnswers) :
    Prop where
  allowed : components.bAllowRegistration = true
  valid : options.checkValidity = true
  sized : options.bIsRaw = false → answers.resolved = true ∧ isOk answers.size = true
  new : components.findSignal options.strSignalName options.eDirection = none
  accepted : isOk (registerResult options answers).1 = true

theorem registerSignal_cases (h : components.Listed) {answers : SignalAnswers} {nResult : Result}
    (hcall : components.registerSignal options answers = some (next,nResult)) :
    answers.handle ∉ components.mapHandles.map Prod.fst ∧
    (components.Registrable options answers ∧ isOk nResult = true ∧
          next = ((components.internal options).registerAtDataAccess options components.nextAddress answers).1 ∨
        ¬components.Registrable options answers ∧ isFailed nResult = true ∧
          ∃ later, components.nextAddress ≤ later ∧ next = {components with nextAddress := later}) := by
  have hsame : ∃ later, components.nextAddress ≤ later ∧ components = {components with nextAddress := later} :=
    ⟨components.nextAddress,le_refl _,rfl⟩
  rw [registerSignal] at hcall
  split at hcall
  · cases hcall
  · rename_i hhandle
    refine ⟨hhandle,?_⟩
    split at hcall
    · rename_i hlocked
      cases hcall
      exact .inr ⟨fun hreg => by simp [hreg.allowed] at hlocked,rfl,hsame⟩
    · rename_i hallowed
      split at hcall
      · rename_i hinvalid
        cases hcall
        exact .inr ⟨fun hreg => by simp [hreg.valid] at hinvalid,rfl,hsame⟩
      · rename_i hvalid
        split at hcall
        · rename_i hunresolved
          cases hcall
          refine .inr ⟨fun hreg => ?_,rfl,hsame⟩
          simp only [Bool.and_eq_true,Bool.not_eq_true'] at hunresolved
          simp [(hreg.sized hunresolved.1).1] at hunresolved
        · rename_i hresolved
          cases hknown : components.findSignal options.strSignalName options.eDirection with
          | some signal =>
            simp only [internalRegisterSignal,hknown,isSome_some,if_true] at hcall
            cases hcall
            exact .inr ⟨fun hreg => by simp [hreg.new] at hknown,rfl,hsame⟩
          | none =>
            cases hsize : !options.bIsRaw && isFailed answers.size with
            | true =>
              simp only [internalRegisterSignal,hknown,hsize,isSome_none,Bool.false_eq_true,if_false,
                if_true] at hcall
              cases hcall
              refine .inr ⟨fun hreg => ?_,rfl,hsame⟩
              simp only [Bool.and_eq_true,Bool.not_eq_true',isFailed] at hsize
              simp [(hreg.sized hsize.1).2] at hsize
            | false =>
              have hinternal : components.internalRegisterSignal options answers.size =
                  (components.internal options,.errNoError) := by
                simp only [internalRegisterSignal,hknown,hsize,isSome_none,Bool.false_eq_true,if_false]
                rfl
              have hok : isFailed .errNoError = false := rfl
              simp only [hinternal,findSignal_internal hknown,hok,Bool.false_eq_true,if_false,
                some.injEq] at hcall
              rw [show (components.newSignal options false).address = components.nextAddress from rfl,
                Prod.ext_iff] at hcall
              obtain ⟨rfl,rfl⟩ := hcall
              rw [registerAtDataAccess]
              by_cases haccepted : isOk (registerResult options answers).1 = true
              · have hnot : ¬isFailed (registerResult options answers).1 = true := by
                  rw [isFailed,haccepted]
                  exact Bool.false_ne_true
                rw [if_neg hnot]
                refine .inl ⟨⟨by simpa using hallowed,by simpa using hvalid,fun hraw => ?_,hknown,haccepted⟩,
                  haccepted,rfl⟩
                simpa [hraw,isFailed] using And.intro hresolved hsize
              · have hfailed : isFailed (registerResult options answers).1 = true := by
                  rw [isFailed,Bool.eq_false_iff.mpr haccepted]
                  rfl
                rw [if_pos hfailed]
                refine .inr ⟨fun hreg => haccepted hreg.accepted,hfailed,components.nextAddress + 1,
                  le_succ _,internalUnregister_internal h⟩

/-- The list, the map, the buffers and the listener adapters are as they were. -/
structure Unchanged (components next : SignalComponents) : Prop where
  signals : next.lstSignals = components.lstSignals
  handles : next.mapHandles = components.mapHandles
  buffers : next.sampleBuffers = components.sampleBuffers
  adapters : next.listenerAdapters = components.listenerAdapters

theorem registerSignal_aligned (h : components.Aligned)
    (hcall : components.registerSignal options answers = some (next,nResult)) :
    next.Aligned ∧ (isFailed nResult = true → components.Unchanged next) := by
  obtain ⟨hhandle,⟨hreg,hok,rfl⟩ | ⟨-,-,later,hlater,rfl⟩⟩ := registerSignal_cases h.toListed hcall
  · refine ⟨registerAtDataAccess_aligned h hhandle hreg.new hreg.accepted,fun hfailed => ?_⟩
    rw [isFailed,hok] at hfailed
    cases hfailed
  · exact ⟨⟨h.toListed.setNextAddress hlater,h.buffers,h.adapters,h.receivers⟩,fun _ => ⟨rfl,rfl,rfl,rfl⟩⟩

theorem call_aligned (h : components.Aligned) {call : SignalCall} (hcareful : components.Careful call)
    (hcall : components.call call = some (next,nResult)) : next.Aligned := by
  cases call with
  | registerSignal options answers => exact (registerSignal_aligned h hcall).1
  | unregisterSignal hSignalHandle answer =>
    obtain ⟨rfl,-⟩ := Prod.mk.inj (some.inj hcall)
    exact (unregisterSignal_aligned h hcareful).1
  | registerDataListener number hSignalHandle answer =>
    obtain ⟨rfl,-⟩ := Prod.mk.inj (some.inj hcall)
    exact registerDataListener_aligned h _ _
  | unregisterDataListener number hSignalHandle answer =>
    obtain ⟨rfl,-⟩ := Prod.mk.inj (some.inj hcall)
    exact unregisterDataListener_aligned h _ _
  | setRegistrationAllowed bAllow =>
    cases hcall
    exact ⟨⟨h.aligned,h.addresses,h.fresh,h.handles,h.unique⟩,h.buffers,h.adapters,h.receivers⟩

private theorem new_aligned : new.Aligned := by
  refine ⟨⟨rfl,nodup_nil,nofun,nodup_nil,List.Pairwise.nil⟩,fun handle => ?_,nofun,nofun⟩
  exact iff_of_false not_mem_nil fun ⟨_,hsignal,_⟩ => not_mem_nil hsignal

/-- `RegisterSignal` and `UnregisterSignal`. -/
def registers : SignalCall → Bool
  | .registerSignal .. | .unregisterSignal .. => true
  | _ => false

/-- The registry and the data access stay in step, and a failed registration or unregistration changes neither, as
long as nobody refuses to unregister an input signal. -/
theorem signals_in_step (h : Reaches step Careful new components) :
    components.InStep ∧ ∀ call next nResult, components.Careful call → components.call call = some (next,nResult) →
      registers call = true → isFailed nResult = true → components.Unchanged next := by
  have haligned : components.Aligned := by
    refine h.invariant new_aligned fun before call after hbefore hcareful hstep => ?_
    obtain ⟨⟨next,nResult⟩,hcall,rfl⟩ := map_eq_some_iff.mp hstep
    exact call_aligned hbefore hcareful hcall
  refine ⟨haligned.inStep,fun call next nResult hcareful hcall hregisters hfailed => ?_⟩
  cases call with
  | registerSignal options answers => exact (registerSignal_aligned haligned hcall).2 hfailed
  | unregisterSignal hSignalHandle answer =>
    have hback := (unregisterSignal_aligned haligned hcareful).2
    rw [some.inj hcall] at hback
    have hnext : next = components := hback hfailed
    rw [hnext]
    exact ⟨rfl,rfl,rfl,rfl⟩
  | registerDataListener number hSignalHandle answer => cases hregisters
  | unregisterDataListener number hSignalHandle answer => cases hregisters
  | setRegistrationAllowed bAllow => cases hregisters

instance (components : SignalComponents) (call : SignalCall) : Decidable (components.Careful call) :=
  match call with
  | .unregisterSignal hSignalHandle answer => inferInstanceAs (Decidable (components.bAllowRegistration = true →
      ∀ signal ∈ components.findHandle hSignalHandle, signal.eDirection = .sdInput → isOk answer = true))
  | .registerSignal .. | .registerDataListener .. | .unregisterDataListener .. | .setRegistrationAllowed _ =>
    inferInstanceAs (Decidable True)

def adapterAnswers (handle : Nat) : SignalAnswers :=
  ⟨true,.errNoError,.errNotFound,.errNoError,handle,.errNoError⟩

/-- Two input signals one after the other, with an output signal between them that is unregistered. -/
theorem signals_in_step_input : ∃ components : SignalComponents,
    Reaches step Careful new components ∧ components.sampleBuffers = [3] ∧
      components.listenerAdapters = [(.dataAccess,3),(.user 5,3)] ∧ components.InStep := by
  obtain ⟨components,hreach,hfacts⟩ : ∃ components, Reaches step Careful new components ∧
      components.sampleBuffers = [3] ∧ components.listenerAdapters = [(.dataAccess,3),(.user 5,3)] :=
    exists_of_runAllowed [.registerSignal ⟨"s","t",.sdInput,false⟩ (adapterAnswers 1),
      .registerDataListener 5 1 .errNoError,.registerSignal ⟨"s","t",.sdOutput,false⟩ (adapterAnswers 2),
      .unregisterSignal 1 .errNoError,.unregisterSignal 2 .errFailed,
      .registerSignal ⟨"s","t",.sdInput,false⟩ (adapterAnswers 3),.registerDataListener 5 3 .errNoError]
      (by decide +kernel)
  exact ⟨components,hreach,hfacts.1,hfacts.2,(signals_in_step hreach).1⟩

/-- An input signal that the transmission adapter refuses to unregister has lost its buffer and listeners. -/
theorem buffers_out_of_step : ∃ components next, Reaches step anyAction new components ∧
    components.call (.unregisterSignal 1 .errNotInitialised) = some (next,.errNotInitialised) ∧
      ¬next.InStep ∧ ¬components.Unchanged next := by
  let run := runActions step new [.registerSignal ⟨"s","t",.sdInput,false⟩ (adapterAnswers 1)]
  let signal : RegisteredSignal := ⟨0,"s","t",.sdInput,false,false⟩
  have hrun : run.any (fun components => components.sampleBuffers == [1] &&
      (components.call (.unregisterSignal 1 .errNotInitialised)).any fun called =>
        called.1.lstSignals == [signal] && called.1.mapHandles == [(1,0)] && called.1.sampleBuffers == [] &&
          called.2 == .errNotInitialised) = true := by decide +kernel
  obtain ⟨components,hrun,hfacts⟩ := (any_eq_true _ _).mp hrun
  simp only [Bool.and_eq_true,beq_iff_eq,Option.any_eq_true] at hfacts
  obtain ⟨hbefore,⟨next,nResult⟩,hcall,⟨⟨hsignals,hhandles⟩,hbuffers⟩,rfl⟩ := hfacts
  refine ⟨components,next,reaches_of_runActions hrun,hcall,fun hinStep => ?_,fun hunchanged => ?_⟩
  · have hbuffered := hinStep.buffered signal (hsignals ▸ mem_cons_self) rfl 1 (hhandles ▸ mem_cons_self)
    rw [show next.sampleBuffers = [] from hbuffers] at hbuffered
    cases hbuffered
  · have hsame := hunchanged.buffers
    rw [hbefore,hbuffers] at hsame
    cases hsame

end SignalComponents
end FepParticipant.Signals
