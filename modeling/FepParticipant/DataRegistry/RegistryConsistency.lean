import FepParticipant.DataRegistry.SignalRegistration

/-! What holds of the data registry whatever is called: names are unique, a data signal without a handle is to
register one of its own, and whoever listens does so to a signal that is registered. -/
namespace FepParticipant.DataRegistry
open Library Signals List DataSignal

def DataSignal.ClaimsHandle (signal : DataSignal) : Prop :=
  signal.signalHandle = none → signal.itsMySignalHandle = true

def SignalAccess.Heard (access : SignalAccess) : Prop :=
  ∀ listener ∈ access.listeners, listener.2 ∈ access.signals.map (·.handle)

def DataSignal.forget (signal : DataSignal) : DataSignal := {signal with ddlWasRegisteredAlready := false}

theorem DataSignal.ClaimsHandle.of_forget {signal next : DataSignal} (h : next.forget = signal.forget)
    (hclaims : signal.ClaimsHandle) : next.ClaimsHandle := by
  have hhandle := congrArg DataSignal.signalHandle h
  have hmine := congrArg DataSignal.itsMySignalHandle h
  dsimp only [DataSignal.forget] at hhandle hmine
  rw [DataSignal.ClaimsHandle,hhandle,hmine]
  exact hclaims

def DataSignalIn.blank (signal : DataSignalIn) : String × Option Nat × List Nat × List DataReader :=
  (signal.name,none,[],signal.createdReaders.filter fun reader => !reader.markedForDeletion)

def DataSignalOut.blank (signal : DataSignalOut) : String × Option Nat × List DataWriter :=
  (signal.name,none,(signal.createdWriters.filter fun writer => !writer.markedForDeletion).map DataWriter.deinit)

theorem acquireHandle_name (signal : DataSignal) (direction : SignalDirection) (access : SignalAccess)
    (answers : SignalAnswers) : (signal.acquireHandle direction access answers).1.name = signal.name := by
  rw [DataSignal.acquireHandle]
  split
  · rfl
  · dsimp only
    split <;> rfl

private theorem blank_listen (signal : DataSignalIn) (handle : Nat) (access : SignalAccess)
    (answers : SignalAnswers) : (signal.listen handle access answers).1.blank = signal.blank := by
  rw [DataSignalIn.listen]
  dsimp only
  split
  · dsimp only
    rw [DataSignalIn.blank,DataRegistryFEP2.releaseHandle_name]
    rfl
  · obtain ⟨samplePool,hpool,-⟩ := initPool_cases signal answers.sample
    rw [hpool]
    rfl

theorem blank_registerIn (signal : DataSignalIn) (access : SignalAccess) (answers : SignalAnswers) :
    (signal.registerAtSignalRegistry access answers).1.blank = signal.blank := by
  rw [DataSignalIn.registerAtSignalRegistry]
  split
  · rfl
  · dsimp only
    have hacquired : ({signal with toDataSignal := (signal.acquireHandle .sdInput access answers).1} :
        DataSignalIn).blank = signal.blank := by
      rw [DataSignalIn.blank,acquireHandle_name]
      rfl
    split
    · exact hacquired
    · rw [blank_listen,hacquired]

private theorem filter_written (signalHandle : Option Nat) (writers : List DataWriter) :
    ((writers.map fun writer => {writer with signalHandle := signalHandle}).filter fun writer =>
      !writer.markedForDeletion).map DataWriter.deinit =
      (writers.filter fun writer => !writer.markedForDeletion).map DataWriter.deinit := by
  rw [filter_map,map_map]
  rfl

theorem blank_registerOut (signal : DataSignalOut) (access : SignalAccess) (answers : SignalAnswers) :
    (signal.registerAtSignalRegistry access answers).1.blank = signal.blank := by
  rw [DataSignalOut.registerAtSignalRegistry]
  split
  · rfl
  · dsimp only
    rw [initWriters_eq,DataSignalOut.blank,acquireHandle_name]
    rw [filter_written]
    rfl

section loops
variable {α β : Type}

theorem forall_untilFailure (register : α → β → α × β × Result) (holds : α → Prop) (inv : β → Prop)
    (h : ∀ item state, holds item → inv state → holds (register item state).1 ∧ inv (register item state).2.1)
    (items : List α) (state : β) (hitems : ∀ item ∈ items, holds item) (hstate : inv state) :
    (∀ item ∈ (untilFailure register items state).1, holds item) ∧ inv (untilFailure register items state).2.1 := by
  induction items generalizing state with
  | nil => exact ⟨hitems,hstate⟩
  | cons item items ih =>
    rw [forall_mem_cons] at hitems
    obtain ⟨hitem,hnext⟩ := h item state hitems.1 hstate
    rw [untilFailure]
    dsimp only
    split
    · exact ⟨forall_mem_cons.mpr ⟨hitem,hitems.2⟩,hnext⟩
    · obtain ⟨hlater,hend⟩ := ih _ hitems.2 hnext
      exact ⟨forall_mem_cons.mpr ⟨hitem,hlater⟩,hend⟩

theorem forall_forEach (unregister : α → β → α × β) (holds : α → Prop) (inv : β → Prop)
    (h : ∀ item state, holds item → inv state → holds (unregister item state).1 ∧ inv (unregister item state).2)
    (items : List α) (state : β) (hitems : ∀ item ∈ items, holds item) (hstate : inv state) :
    (∀ item ∈ (forEach unregister items state).1, holds item) ∧ inv (forEach unregister items state).2 := by
  induction items generalizing state with
  | nil => exact ⟨hitems,hstate⟩
  | cons item items ih =>
    rw [forall_mem_cons] at hitems
    obtain ⟨hitem,hnext⟩ := h item state hitems.1 hstate
    obtain ⟨hlater,hend⟩ := ih _ hitems.2 hnext
    exact ⟨forall_mem_cons.mpr ⟨hitem,hlater⟩,hend⟩

end loops

namespace SignalAccess.Heard
variable {access : SignalAccess}

theorem registerSignal (h : access.Heard) (name : String) (direction : SignalDirection) (registrant : Registrant)
    (answer : Result) (handle : Nat) : (access.registerSignal name direction registrant answer handle).1.Heard := by
  rcases registerSignal_cases access name direction registrant answer handle with
    ⟨res,-,hregister⟩ | ⟨-,-,hregister⟩
  · rw [hregister]
    exact h
  · rw [hregister]
    intro listener hlistener
    rw [map_append]
    exact mem_append_left _ (h listener hlistener)

theorem unregisterSignal (h : access.Heard) (handle : Nat) (answer : Result) :
    (access.unregisterSignal handle answer).1.Heard := by
  rw [SignalAccess.unregisterSignal]
  split
  · exact h
  · split
    · exact h
    · dsimp only
      split
      · intro listener hlistener
        exact h listener (mem_of_mem_filter hlistener)
      · intro listener hlistener
        obtain ⟨hmem,hne⟩ := mem_filter.mp hlistener
        obtain ⟨signal,hsignal,hhandle⟩ := mem_map.mp (h listener hmem)
        exact mem_map.mpr ⟨signal,mem_filter.mpr ⟨hsignal,by rw [hhandle]; exact hne⟩,hhandle⟩

theorem unregisterDataListener (h : access.Heard) (object handle : Nat) :
    (access.unregisterDataListener object handle).Heard := by
  intro listener hlistener
  exact h listener (mem_of_mem_erase hlistener)

end SignalAccess.Heard

namespace DataSignal
variable {access : SignalAccess}

theorem acquireHandle_heard (h : access.Heard) (signal : DataSignal) (direction : SignalDirection)
    (answers : SignalAnswers) : (signal.acquireHandle direction access answers).1.ClaimsHandle ∧
      (signal.acquireHandle direction access answers).2.1.Heard ∧
      ∀ handle, (signal.acquireHandle direction access answers).1.signalHandle = some handle →
        handle ∈ (signal.acquireHandle direction access answers).2.1.signals.map (·.handle) := by
  rw [acquireHandle]
  split
  · rename_i found hfound
    refine ⟨fun hnone => absurd hnone (Option.some_ne_none _),h,fun handle hhandle => ?_⟩
    cases hhandle
    obtain ⟨registrant,hmem⟩ := of_getSignalHandleFromName hfound
    exact mem_map.mpr ⟨_,hmem,rfl⟩
  · have hregistered := h.registerSignal signal.name direction .dataRegistry answers.registering answers.handle
    rcases registerSignal_cases access signal.name direction .dataRegistry answers.registering answers.handle with
      ⟨res,hfailed,hregister⟩ | ⟨-,-,hregister⟩
    · simp only [hregister,hfailed,if_true]
      exact ⟨fun _ => rfl,h,fun _ hsome => absurd hsome (Option.some_ne_none _).symm⟩
    · rw [hregister] at hregistered
      simp only [hregister,show isFailed .errNoError = false from rfl,Bool.false_eq_true,if_false]
      refine ⟨fun hnone => absurd hnone (Option.some_ne_none _),hregistered,fun handle hhandle => ?_⟩
      cases hhandle
      rw [map_append]
      exact mem_append_right _ mem_cons_self

theorem releaseHandle_heard (h : access.Heard) {signal : DataSignal} (hclaims : signal.ClaimsHandle)
    (answers : SignalAnswers) :
    (signal.releaseHandle access answers).1.ClaimsHandle ∧ (signal.releaseHandle access answers).2.Heard := by
  rw [releaseHandle]
  split
  · exact ⟨hclaims,h⟩
  · refine ⟨fun _ => rfl,?_⟩
    split
    · exact h.unregisterSignal _ _
    · exact h

end DataSignal

namespace DataSignalIn
variable {access : SignalAccess} {signal : DataSignalIn}

private theorem listen_heard (h : access.Heard)
    (hclaims : signal.ClaimsHandle) {handle : Nat} (hhandle : handle ∈ access.signals.map (·.handle))
    (answers : SignalAnswers) :
    (signal.listen handle access answers).1.ClaimsHandle ∧ (signal.listen handle access answers).2.1.Heard := by
  rw [listen,SignalAccess.registerDataListener]
  cases hlistening : isFailed answers.listening with
  | true =>
    simp only [if_true,hlistening]
    exact releaseHandle_heard h hclaims answers
  | false =>
    simp only [Bool.false_eq_true,if_false,show isFailed .errNoError = false from rfl]
    refine ⟨?_,fun listener hlistener => ?_⟩
    · rw [initPool]
      split
      · split
        · exact hclaims
        · exact hclaims
      · exact hclaims
    · rcases mem_append.mp hlistener with hold | hnew
      · exact h listener hold
      · rw [mem_singleton.mp hnew]
        exact hhandle

theorem registerAtSignalRegistry_heard {access : SignalAccess} (h : access.Heard) {signal : DataSignalIn}
    (hclaims : signal.ClaimsHandle) (answers : SignalAnswers) :
    (signal.registerAtSignalRegistry access answers).1.ClaimsHandle ∧
      (signal.registerAtSignalRegistry access answers).2.1.Heard := by
  obtain ⟨hacquired,hheard,hhandles⟩ := acquireHandle_heard h signal.toDataSignal .sdInput answers
  rw [registerAtSignalRegistry]
  split
  · exact ⟨hclaims,h⟩
  · dsimp only
    split
    · exact ⟨hacquired,hheard⟩
    · rename_i handle hhandle
      exact listen_heard hheard hacquired (hhandles handle hhandle) answers

theorem unregisterFromSignalRegistry_heard (h : access.Heard)
    (hclaims : signal.ClaimsHandle) (answers : SignalAnswers) :
    (signal.unregisterFromSignalRegistry access answers).1.ClaimsHandle ∧
      (signal.unregisterFromSignalRegistry access answers).2.Heard := by
  rw [unregisterFromSignalRegistry]
  dsimp only
  split
  · exact releaseHandle_heard h hclaims answers
  · exact releaseHandle_heard (h.unregisterDataListener _ _) hclaims answers

end DataSignalIn

theorem DataSignalOut.registerAtSignalRegistry_heard {access : SignalAccess} (h : access.Heard)
    {signal : DataSignalOut} (hclaims : signal.ClaimsHandle) (answers : SignalAnswers) :
    (signal.registerAtSignalRegistry access answers).1.ClaimsHandle ∧
      (signal.registerAtSignalRegistry access answers).2.1.Heard := by
  obtain ⟨hacquired,hheard,-⟩ := acquireHandle_heard h signal.toDataSignal .sdOutput answers
  rw [registerAtSignalRegistry]
  split
  · exact ⟨hclaims,h⟩
  · exact ⟨hacquired,hheard⟩

namespace DataRegistryFEP2
variable {registry next : DataRegistryFEP2}

theorem blank_registerIns (registry : DataRegistryFEP2) (answers : Answers) :
    (registry.registerIns answers).1.ins.map DataSignalIn.blank = registry.ins.map DataSignalIn.blank := by
  exact map_untilFailure (fun signal access => blank_registerIn signal access _) _ _

theorem blank_registerOuts (registry : DataRegistryFEP2) (answers : Answers) :
    (registry.registerOuts answers).1.outs.map DataSignalOut.blank = registry.outs.map DataSignalOut.blank := by
  exact map_untilFailure (fun signal access => blank_registerOut signal access _) _ _

theorem unregistered_ins (answers : Answers) :
    (registry.unregisterFromSignalRegistry answers).ins.map DataSignalIn.registration =
      registry.ins.map DataSignalIn.blank := by
  apply map_forEach
  intro signal access
  rw [DataSignalIn.unregisterFromSignalRegistry,DataSignalIn.registration,DataSignalIn.blank]
  rw [releaseHandle_name,releaseHandle_signalHandle,filter_eraseMarked]

theorem unregistered_outs (answers : Answers) :
    (registry.unregisterFromSignalRegistry answers).outs.map DataSignalOut.registration =
      registry.outs.map DataSignalOut.blank := by
  apply map_forEach
  intro signal access
  rw [DataSignalOut.unregisterFromSignalRegistry,DataSignalOut.registration,DataSignalOut.blank]
  rw [releaseHandle_name,releaseHandle_signalHandle,filter_eraseMarked,filter_deinit]

theorem names_eq {ins others : List DataSignalIn}
    (h : ins.map DataSignalIn.blank = others.map DataSignalIn.blank) : ins.map (·.name) = others.map (·.name) := by
  have hnames := congrArg (List.map Prod.fst) h
  rw [map_map,map_map] at hnames
  exact hnames

theorem outNames_eq {outs others : List DataSignalOut}
    (h : outs.map DataSignalOut.blank = others.map DataSignalOut.blank) : outs.map (·.name) = others.map (·.name) := by
  have hnames := congrArg (List.map Prod.fst) h
  rw [map_map,map_map] at hnames
  exact hnames

theorem forget_registerDescription (answers : String → SignalAnswers) (signal : DataSignal) :
    (registerDescription answers signal).1.forget = signal.forget := by
  rw [registerDescription]
  split
  · rw [DataSignal.registerDDLDescription]
    split
    · rfl
    · split <;> rfl
  · rfl

/-- The names in a map are unique, and who has no handle or listens is known to the signal registry for it. -/
structure Consistent (registry : DataRegistryFEP2) : Prop where
  ins : (registry.ins.map (·.name)).Nodup
  outs : (registry.outs.map (·.name)).Nodup
  mineIns : ∀ signal ∈ registry.ins, signal.ClaimsHandle
  mineOuts : ∀ signal ∈ registry.outs, signal.ClaimsHandle
  heard : registry.access.Heard

namespace Consistent
variable {answers : Answers}

section
variable (h : registry.Consistent)
include h

theorem congr (hins : next.ins.map (·.name) = registry.ins.map (·.name))
    (houts : next.outs.map (·.name) = registry.outs.map (·.name)) (hmineIns : ∀ signal ∈ next.ins, signal.ClaimsHandle)
    (hmineOuts : ∀ signal ∈ next.outs, signal.ClaimsHandle) (hheard : next.access.Heard) : next.Consistent :=
  ⟨hins ▸ h.ins,houts ▸ h.outs,hmineIns,hmineOuts,hheard⟩

theorem modifyIn (name : String) {change : DataSignalIn → DataSignalIn}
    (hchange : ∀ signal, (change signal).toDataSignal = signal.toDataSignal) :
    (registry.modifyIn name change).Consistent := by
  have hkept : ∀ signal : DataSignalIn,
      (if signal.name = name then change signal else signal).toDataSignal = signal.toDataSignal := by
    intro signal
    split
    · exact hchange signal
    · rfl
  refine h.congr ?_ rfl (fun signal hsignal => ?_) h.mineOuts h.heard
  · rw [DataRegistryFEP2.modifyIn,map_map]
    exact map_congr_left fun signal _ => congrArg DataSignal.name (hkept signal)
  · obtain ⟨before,hbefore,rfl⟩ := mem_map.mp hsignal
    rw [hkept]
    exact h.mineIns before hbefore

theorem modifyOut (name : String) {change : DataSignalOut → DataSignalOut}
    (hchange : ∀ signal, (change signal).toDataSignal = signal.toDataSignal) :
    (registry.modifyOut name change).Consistent := by
  have hkept : ∀ signal : DataSignalOut,
      (if signal.name = name then change signal else signal).toDataSignal = signal.toDataSignal := by
    intro signal
    split
    · exact hchange signal
    · rfl
  refine h.congr rfl ?_ h.mineIns (fun signal hsignal => ?_) h.heard
  · rw [DataRegistryFEP2.modifyOut,map_map]
    exact map_congr_left fun signal _ => congrArg DataSignal.name (hkept signal)
  · obtain ⟨before,hbefore,rfl⟩ := mem_map.mp hsignal
    rw [hkept]
    exact h.mineOuts before hbefore

theorem allocated : ({registry with nextAddress := registry.nextAddress + 1} : DataRegistryFEP2).Consistent :=
  ⟨h.ins,h.outs,h.mineIns,h.mineOuts,h.heard⟩

end

theorem nodup_append {α : Type} {name : α → String} {items : List α} {item : α}
    (h : (items.map name).Nodup) (hnew : items.find? (fun other => name other == name item) = none) :
    ((items ++ [item]).map name).Nodup := by
  rw [map_append,List.nodup_append]
  refine ⟨h,nodup_singleton _,?_⟩
  intro other hother added hadded
  rw [mem_singleton.mp hadded]
  rintro rfl
  obtain ⟨found,hfound,hname⟩ := mem_map.mp hother
  exact find?_eq_none.mp hnew found hfound (beq_iff_eq.mpr hname)

section
variable (h : registry.Consistent)
include h

theorem registerDataIn (name : String) (type : StreamType) : (registry.registerDataIn name type).1.Consistent := by
  rw [DataRegistryFEP2.registerDataIn]
  split
  · exact h
  · split
    · exact h
    · rename_i hnew
      refine ⟨nodup_append h.ins hnew,h.outs,fun signal hsignal => ?_,h.mineOuts,h.heard⟩
      rcases mem_append.mp hsignal with hold | hadded
      · exact h.mineIns signal hold
      · rw [mem_singleton.mp hadded]
        exact fun _ => rfl

theorem registerDataOut (name : String) (type : StreamType) : (registry.registerDataOut name type).1.Consistent := by
  rw [DataRegistryFEP2.registerDataOut]
  split
  · exact h
  · split
    · exact h
    · rename_i hnew
      refine ⟨h.ins,nodup_append h.outs hnew,h.mineIns,fun signal hsignal => ?_,h.heard⟩
      rcases mem_append.mp hsignal with hold | hadded
      · exact h.mineOuts signal hold
      · rw [mem_singleton.mp hadded]
        exact fun _ => rfl

theorem unregisterDataIn (name : String) : (registry.unregisterDataIn name).1.Consistent := by
  rw [DataRegistryFEP2.unregisterDataIn]
  split
  · exact ⟨h.ins.sublist (filter_sublist.map _),h.outs,
      fun signal hsignal => h.mineIns signal (mem_of_mem_filter hsignal),h.mineOuts,h.heard⟩
  · exact h

theorem unregisterDataOut (name : String) : (registry.unregisterDataOut name).1.Consistent := by
  rw [DataRegistryFEP2.unregisterDataOut]
  split
  · exact ⟨h.ins,h.outs.sublist (filter_sublist.map _),h.mineIns,
      fun signal hsignal => h.mineOuts signal (mem_of_mem_filter hsignal),h.heard⟩
  · exact h

theorem registerInDescriptions (answers : Answers) : (registry.registerInDescriptions answers).1.Consistent := by
  have hforget := forget_registerDescription (answers .sdInput)
  refine h.congr ?_ rfl ?_ h.mineOuts h.heard
  · exact map_untilFailure (fun (signal : DataSignalIn) _ => congrArg DataSignal.name (hforget signal.toDataSignal)) _ _
  · exact (forall_untilFailure _ (fun signal : DataSignalIn => signal.ClaimsHandle) (fun _ => True)
      (fun signal _ hclaims _ => ⟨.of_forget (hforget signal.toDataSignal) hclaims,trivial⟩)
      registry.ins () h.mineIns trivial).1

theorem registerOutDescriptions (answers : Answers) : (registry.registerOutDescriptions answers).1.Consistent := by
  have hforget := forget_registerDescription (answers .sdOutput)
  refine h.congr rfl ?_ h.mineIns ?_ h.heard
  · exact map_untilFailure
      (fun (signal : DataSignalOut) _ => congrArg DataSignal.name (hforget signal.toDataSignal)) _ _
  · exact (forall_untilFailure _ (fun signal : DataSignalOut => signal.ClaimsHandle) (fun _ => True)
      (fun signal _ hclaims _ => ⟨.of_forget (hforget signal.toDataSignal) hclaims,trivial⟩)
      registry.outs () h.mineOuts trivial).1

theorem registerIns (answers : Answers) : (registry.registerIns answers).1.Consistent := by
  obtain ⟨hclaims,hheard⟩ := forall_untilFailure
    (fun (signal : DataSignalIn) access => signal.registerAtSignalRegistry access (answers .sdInput signal.name))
    (fun signal => signal.ClaimsHandle) SignalAccess.Heard
    (fun _ _ hclaims hheard => DataSignalIn.registerAtSignalRegistry_heard hheard hclaims _)
    registry.ins registry.access h.mineIns h.heard
  exact h.congr (names_eq (blank_registerIns registry answers)) rfl hclaims h.mineOuts hheard

private theorem registerOuts (answers : Answers) : (registry.registerOuts answers).1.Consistent := by
  obtain ⟨hclaims,hheard⟩ := forall_untilFailure
    (fun (signal : DataSignalOut) access => signal.registerAtSignalRegistry access (answers .sdOutput signal.name))
    (fun signal => signal.ClaimsHandle) SignalAccess.Heard
    (fun _ _ hclaims hheard => DataSignalOut.registerAtSignalRegistry_heard hheard hclaims _)
    registry.outs registry.access h.mineOuts h.heard
  exact h.congr rfl (outNames_eq (blank_registerOuts registry answers)) h.mineIns hclaims hheard

theorem unregisterFromSignalRegistry (answers : Answers) :
    (registry.unregisterFromSignalRegistry answers).Consistent := by
  obtain ⟨hclaimsOuts,hheardOuts⟩ := forall_forEach
    (fun (signal : DataSignalOut) access => signal.unregisterFromSignalRegistry access (answers .sdOutput signal.name))
    (fun signal => signal.ClaimsHandle) SignalAccess.Heard
    (fun _ _ hclaims hheard => releaseHandle_heard hheard hclaims _)
    registry.outs registry.access h.mineOuts h.heard
  obtain ⟨hclaimsIns,hheardIns⟩ := forall_forEach
    (fun (signal : DataSignalIn) access => signal.unregisterFromSignalRegistry access (answers .sdInput signal.name))
    (fun signal => signal.ClaimsHandle) SignalAccess.Heard
    (fun _ _ hclaims hheard => DataSignalIn.unregisterFromSignalRegistry_heard hheard hclaims _)
    registry.ins _ h.mineIns hheardOuts
  refine h.congr ?_ ?_ hclaimsIns hclaimsOuts hheardIns
  · exact map_forEach (fun (signal : DataSignalIn) _ => releaseHandle_name signal.toDataSignal _ _) _ _
  · exact map_forEach (fun (signal : DataSignalOut) _ => releaseHandle_name signal.toDataSignal _ _) _ _

private theorem registerSignals (answers : Answers) : (registry.registerSignals answers).1.Consistent := by
  rw [DataRegistryFEP2.registerSignals]
  dsimp only
  split
  · exact (h.registerIns answers).unregisterFromSignalRegistry answers
  · split
    · exact ((h.registerIns answers).registerOuts answers).unregisterFromSignalRegistry answers
    · exact (h.registerIns answers).registerOuts answers

private theorem ready (answers : Answers) : (registry.ready answers).1.Consistent := by
  rw [DataRegistryFEP2.ready]
  dsimp only
  split
  · exact h.registerInDescriptions answers
  · split
    · exact (h.registerInDescriptions answers).registerOutDescriptions answers
    · exact ((h.registerInDescriptions answers).registerOutDescriptions answers).registerSignals answers

theorem call (call : DataRegistryCall) : (registry.call call).1.Consistent := by
  cases call with
  | registerDataIn name type => exact h.registerDataIn name type
  | registerDataOut name type => exact h.registerDataOut name type
  | unregisterDataIn name => exact h.unregisterDataIn name
  | unregisterDataOut name => exact h.unregisterDataOut name
  | getReader name queueSize preAllocatedSize =>
    refine (h.modifyIn name ?_).allocated
    exact fun _ => rfl
  | getWriter name queueSize preAllocatedSize =>
    refine (h.modifyOut name ?_).allocated
    exact fun _ => rfl
  | releaseReader reference =>
    refine h.congr ?_ rfl (fun signal hsignal => ?_) h.mineOuts h.heard
    · exact map_map
    · obtain ⟨before,hbefore,rfl⟩ := mem_map.mp hsignal
      exact h.mineIns before hbefore
  | releaseWriter reference =>
    refine h.congr rfl ?_ h.mineIns (fun signal hsignal => ?_) h.heard
    · exact map_map
    · obtain ⟨before,hbefore,rfl⟩ := mem_map.mp hsignal
      exact h.mineOuts before hbefore
  | registerDataReceiveListener name listener =>
    rw [DataRegistryFEP2.call,DataRegistryFEP2.registerDataReceiveListener]
    split
    · exact h.modifyIn name fun _ => rfl
    · exact h
  | unregisterDataReceiveListener name listener =>
    rw [DataRegistryFEP2.call,DataRegistryFEP2.unregisterDataReceiveListener]
    split
    · exact h.modifyIn name fun _ => rfl
    · exact h
  | ready answers => exact h.ready answers
  | deinitializing answers => exact h.unregisterFromSignalRegistry answers

theorem step {action : DataRegistryAction} (hstep : registry.step action = some next) : next.Consistent := by
  cases action with
  | call call =>
    cases hstep
    exact h.call call
  | othersRegister name direction answer handle =>
    cases hstep
    exact ⟨h.ins,h.outs,h.mineIns,h.mineOuts,h.heard.registerSignal name direction .other answer handle⟩
  | othersUnregister handle answer =>
    cases hstep
    exact ⟨h.ins,h.outs,h.mineIns,h.mineOuts,h.heard.unregisterSignal handle answer⟩
  | allowRegistration bAllow =>
    cases hstep
    exact ⟨h.ins,h.outs,h.mineIns,h.mineOuts,h.heard⟩
  | rehash ins outs =>
    simp only [DataRegistryFEP2.step] at hstep
    split at hstep
    · rename_i hperm
      rw [Bool.and_eq_true,isPerm_iff,isPerm_iff] at hperm
      cases hstep
      exact ⟨(hperm.1.map _).nodup_iff.mpr h.ins,(hperm.2.map _).nodup_iff.mpr h.outs,
        fun signal hsignal => h.mineIns signal (hperm.1.mem_iff.mp hsignal),
        fun signal hsignal => h.mineOuts signal (hperm.2.mem_iff.mp hsignal),h.heard⟩
    · cases hstep

end

theorem of_reaches (h : Reaches DataRegistryFEP2.step anyAction new registry) : registry.Consistent :=
  h.invariant ⟨nodup_nil,nodup_nil,nofun,nofun,nofun⟩ fun _ _ _ hbefore _ hstep => hbefore.step hstep

theorem freshHandles (h : registry.Consistent) (hnew : NewHandles registry.access answers) :
    FreshHandles registry.access answers where
  toNewHandles := hnew
  unheard := by
    rintro direction name listener hlistener hsame
    exact hnew.unused direction name (hsame ▸ h.heard listener hlistener)

end Consistent
end DataRegistryFEP2
end FepParticipant.DataRegistry
