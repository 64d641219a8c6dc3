import FepParticipant.DataRegistry.SignalLifeCycle

/-! The bookkeeping of the data registry over every sequence of its calls. -/
namespace FepParticipant.DataRegistry
open Library Signals List Nat

namespace Owned
variable {holders others : List Holder} {signals : List RegisteredSignal}

section
variable (h : Owned holders signals)
include h

theorem add (name : String) (direction : SignalDirection)
    (hnew : (name,direction) ∉ holders.map fun holder => (holder.name,holder.direction)) :
    Owned (⟨name,direction,none,true⟩::holders) signals := by
  refine ⟨h.handles,nodup_cons.mpr ⟨hnew,h.names⟩,?_,?_,?_⟩
  · intro holder hholder
    rcases mem_cons.mp hholder with rfl | hholder
    · intro handle hhandle
      cases hhandle
    · exact h.held holder hholder
  · intro holder hholder hnone
    rcases mem_cons.mp hholder with rfl | hholder
    · rfl
    · exact h.free holder hholder hnone
  · intro signal hsignal hregistrant
    obtain ⟨holder,hholder,hhandle⟩ := h.own signal hsignal hregistrant
    exact ⟨holder,mem_cons_of_mem _ hholder,hhandle⟩

theorem sublist (hsub : others.Sublist holders)
    (hkept : ∀ holder ∈ holders, holder.signalHandle ≠ none → holder.mine = true → holder ∈ others) :
    Owned others signals := by
  refine ⟨h.handles,h.names.sublist (hsub.map _),?_,?_,?_⟩
  · intro holder hholder
    exact h.held holder (hsub.subset hholder)
  · intro holder hholder
    exact h.free holder (hsub.subset hholder)
  · intro signal hsignal hregistrant
    obtain ⟨holder,hholder,hhandle⟩ := h.own signal hsignal hregistrant
    obtain ⟨registrant,hmem,hiff⟩ := h.held holder hholder _ hhandle
    have heq := h.signal_eq hsignal hmem rfl
    rw [heq] at hregistrant
    refine ⟨holder,hkept holder hholder ?_ (hiff.mp hregistrant),hhandle⟩
    rw [hhandle]
    exact Option.some_ne_none _

theorem signals_changed {signals' : List RegisteredSignal} (hhandles : (signals'.map (·.handle)).Nodup)
    (hkept : ∀ signal ∈ signals, (∃ holder ∈ holders, holder.signalHandle = some signal.handle) → signal ∈ signals')
    (hothers : ∀ signal ∈ signals', signal ∈ signals ∨ signal.registrant = .other) : Owned holders signals' := by
  refine ⟨hhandles,h.names,?_,h.free,?_⟩
  · intro holder hholder handle hhandle
    obtain ⟨registrant,hmem,hiff⟩ := h.held holder hholder handle hhandle
    exact ⟨registrant,hkept _ hmem ⟨holder,hholder,hhandle⟩,hiff⟩
  · intro signal hsignal hregistrant
    rcases hothers signal hsignal with hbefore | hother
    · exact h.own signal hbefore hregistrant
    · rw [hother] at hregistrant
      cases hregistrant

end

end Owned

namespace DataRegistryFEP2
variable {registry next : DataRegistryFEP2}
variable {name : String}

/-- The listeners are the data signals that hold a handle, each once. -/
def ListenersLive (registry : DataRegistryFEP2) : Prop :=
  registry.access.listeners.Nodup ∧ ∀ object handle, (object,handle) ∈ registry.access.listeners ↔
    ∃ signal ∈ registry.ins, signal.object = object ∧ signal.signalHandle = some handle

section
variable (h : registry.Sound)
include h

theorem Sound.listenersLive : registry.ListenersLive := by
  refine ⟨h.booked.listening,fun object handle => (h.booked.live object handle).trans ?_⟩
  constructor
  · rintro ⟨holder,hentry,hhandle⟩
    obtain ⟨signal,hsignal,heq⟩ := mem_map.mp hentry
    cases heq
    exact ⟨signal,hsignal,rfl,hhandle⟩
  · rintro ⟨signal,hsignal,rfl,hhandle⟩
    exact ⟨_,mem_map_of_mem hsignal,hhandle⟩

theorem Sound.congr (hins : next.ins.map DataSignalIn.entry = registry.ins.map DataSignalIn.entry)
    (houts : next.outs.map DataSignalOut.entry = registry.outs.map DataSignalOut.entry)
    (haccess : next.access = registry.access) (hnext : registry.nextAddress ≤ next.nextAddress) : next.Sound := by
  refine ⟨?_,fun signal hsignal => ?_⟩
  · rw [hins,houts,haccess]
    exact h.booked
  · have hentry : signal.entry ∈ registry.ins.map DataSignalIn.entry := hins ▸ mem_map_of_mem hsignal
    obtain ⟨before,hbefore,heq⟩ := mem_map.mp hentry
    rw [show signal.object = before.object from (Prod.mk.inj heq).1.symm]
    exact Nat.lt_of_lt_of_le (h.fresh before hbefore) hnext

theorem Sound.modifyIn (name : String) {change : DataSignalIn → DataSignalIn}
    (hchange : ∀ signal, (change signal).entry = signal.entry) : (registry.modifyIn name change).Sound := by
  refine h.congr ?_ rfl rfl (Nat.le_refl _)
  rw [DataRegistryFEP2.modifyIn,map_map]
  refine map_congr_left fun signal _ => ?_
  rw [Function.comp_apply]
  split
  · exact hchange signal
  · rfl

theorem Sound.modifyOut (name : String) {change : DataSignalOut → DataSignalOut}
    (hchange : ∀ signal, (change signal).entry = signal.entry) : (registry.modifyOut name change).Sound := by
  refine h.congr rfl ?_ rfl (Nat.le_refl _)
  rw [DataRegistryFEP2.modifyOut,map_map]
  refine map_congr_left fun signal _ => ?_
  rw [Function.comp_apply]
  split
  · exact hchange signal
  · rfl

theorem Sound.allocated : {registry with nextAddress := registry.nextAddress + 1}.Sound :=
  h.congr rfl rfl rfl (le_succ _)

theorem Sound.registerDataIn (name : String) (type : StreamType) : (registry.registerDataIn name type).1.Sound := by
  rw [DataRegistryFEP2.registerDataIn]
  split
  · exact h
  · split
    · exact h
    · rename_i hmissing
      have hnew : ∀ signal ∈ registry.ins, signal.name ≠ name := by
        intro signal hsignal hname
        have hnot := find?_eq_none.mp hmissing signal hsignal
        simp [hname] at hnot
      have hentry : Booked ((registry.nextAddress,⟨name,.sdInput,none,true⟩)::registry.ins.map DataSignalIn.entry)
          (registry.outs.map DataSignalOut.entry) registry.access := by
        refine ⟨h.booked.owned.add name .sdInput ?_,nodup_cons.mpr ⟨?_,h.booked.objects⟩,h.booked.listening,?_⟩
        · intro hmem
          obtain ⟨holder,hholder,heq⟩ := mem_map.mp hmem
          obtain ⟨hname,hdirection⟩ := Prod.mk.inj heq
          rcases mem_append.mp hholder with hin | hout
          · rw [map_map] at hin
            obtain ⟨signal,hsignal,rfl⟩ := mem_map.mp hin
            exact hnew signal hsignal hname
          · obtain ⟨signal,-,rfl⟩ := mem_map.mp hout
            cases hdirection
        · rw [map_map]
          intro hmem
          obtain ⟨signal,hsignal,heq⟩ := mem_map.mp hmem
          exact absurd (h.fresh signal hsignal) (by rw [show signal.object = _ from heq]; exact Nat.lt_irrefl _)
        · intro object handle
          rw [h.booked.live]
          simp only [mem_cons,Prod.mk.injEq]
          constructor
          · rintro ⟨holder,hholder,hhandle⟩
            exact ⟨holder,.inr hholder,hhandle⟩
          · rintro ⟨holder,⟨-,rfl⟩ | hholder,hhandle⟩
            · cases hhandle
            · exact ⟨holder,hholder,hhandle⟩
      refine ⟨?_,fun signal hsignal => ?_⟩
      · rw [map_append]
        exact hentry.perm (perm_append_singleton _ _).symm (List.Perm.refl _)
      · rcases mem_append.mp hsignal with hbefore | hadded
        · exact lt_succ_of_lt (h.fresh signal hbefore)
        · obtain rfl := mem_singleton.mp hadded
          exact lt_succ_self _

theorem Sound.registerDataOut (name : String) (type : StreamType) : (registry.registerDataOut name type).1.Sound := by
  rw [DataRegistryFEP2.registerDataOut]
  split
  · exact h
  · split
    · exact h
    · rename_i hmissing
      have howned := h.booked.owned.add name .sdOutput (by
        intro hmem
        obtain ⟨holder,hholder,heq⟩ := mem_map.mp hmem
        obtain ⟨hname,hdirection⟩ := Prod.mk.inj heq
        rcases mem_append.mp hholder with hin | hout
        · rw [map_map] at hin
          obtain ⟨signal,-,rfl⟩ := mem_map.mp hin
          cases hdirection
        · obtain ⟨signal,hsignal,rfl⟩ := mem_map.mp hout
          have hnot := find?_eq_none.mp hmissing signal hsignal
          simp [show signal.name = name from hname] at hnot)
      refine ⟨⟨?_,h.booked.objects,h.booked.listening,h.booked.live⟩,h.fresh⟩
      rw [map_append,← append_assoc]
      exact howned.perm (perm_append_singleton _ _).symm

theorem Sound.unregisterDataIn {name : String}
    (hfree : ∀ signal ∈ registry.ins, signal.name = name → signal.signalHandle = none) :
    (registry.unregisterDataIn name).1.Sound := by
  rw [DataRegistryFEP2.unregisterDataIn]
  split
  · have hsub : (registry.ins.filter fun signal => signal.name != name).Sublist registry.ins := filter_sublist
    have hkept : ∀ signal ∈ registry.ins, signal.signalHandle ≠ none →
        signal ∈ registry.ins.filter fun signal => signal.name != name := by
      intro signal hsignal hsome
      refine mem_filter.mpr ⟨hsignal,?_⟩
      rw [bne_iff_ne]
      exact fun hname => hsome (hfree signal hsignal hname)
    refine ⟨⟨?_,h.booked.objects.sublist ((hsub.map _).map _),h.booked.listening,?_⟩,?_⟩
    · refine h.booked.owned.sublist (((hsub.map _).map _).append_right _) ?_
      intro holder hholder hsome _
      rcases mem_append.mp hholder with hin | hout
      · obtain ⟨entry,hentry,rfl⟩ := mem_map.mp hin
        obtain ⟨signal,hsignal,rfl⟩ := mem_map.mp hentry
        exact mem_append_left _ (mem_map_of_mem (mem_map_of_mem (hkept signal hsignal hsome)))
      · exact mem_append_right _ hout
    · intro object handle
      rw [h.booked.live]
      constructor
      · rintro ⟨holder,hentry,hhandle⟩
        obtain ⟨signal,hsignal,heq⟩ := mem_map.mp hentry
        cases heq
        refine ⟨_,mem_map_of_mem (hkept signal hsignal ?_),hhandle⟩
        rw [show signal.signalHandle = some handle from hhandle]
        exact Option.some_ne_none _
      · rintro ⟨holder,hentry,hhandle⟩
        exact ⟨holder,(hsub.map _).subset hentry,hhandle⟩
    · intro signal hsignal
      exact h.fresh signal (hsub.subset hsignal)
  · exact h

theorem Sound.unregisterDataOut {name : String}
    (hfree : ∀ signal ∈ registry.outs, signal.name = name → signal.signalHandle ≠ none →
      signal.itsMySignalHandle = false) : (registry.unregisterDataOut name).1.Sound := by
  rw [DataRegistryFEP2.unregisterDataOut]
  split
  · have hsub : (registry.outs.filter fun signal => signal.name != name).Sublist registry.outs := filter_sublist
    refine ⟨⟨h.booked.owned.sublist ((hsub.map _).append_left _) ?_,h.booked.objects,h.booked.listening,
      h.booked.live⟩,h.fresh⟩
    intro holder hholder hsome hmine
    rcases mem_append.mp hholder with hin | hout
    · exact mem_append_left _ hin
    · obtain ⟨signal,hsignal,rfl⟩ := mem_map.mp hout
      refine mem_append_right _ (mem_map_of_mem (mem_filter.mpr ⟨hsignal,?_⟩))
      rw [bne_iff_ne]
      intro hname
      have hnotMine := hfree signal hsignal hname hsome
      rw [show signal.itsMySignalHandle = true from hmine] at hnotMine
      cases hnotMine
  · exact h

theorem Sound.othersRegister (name : String) (direction : SignalDirection) (answer : Result) (handle : Nat) :
    {registry with access := (registry.access.registerSignal name direction .other answer handle).1}.Sound := by
  rcases DataSignal.registerSignal_cases registry.access name direction .other answer handle with
    ⟨res,-,hregister⟩ | ⟨-,hnew,hregister⟩
  · rw [hregister]
    exact h
  · rw [hregister]
    refine ⟨⟨h.booked.owned.signals_changed ?_ ?_ ?_,h.booked.objects,h.booked.listening,h.booked.live⟩,h.fresh⟩
    · rw [map_append,map_singleton]
      refine h.booked.owned.handles.append (nodup_singleton _) ?_
      rw [disjoint_singleton]
      exact hnew
    · intro signal hsignal _
      exact mem_append_left _ hsignal
    · intro signal hsignal
      rcases mem_append.mp hsignal with hbefore | hadded
      · exact .inl hbefore
      · rw [mem_singleton.mp hadded]
        exact .inr rfl

end

def Holds (registry : DataRegistryFEP2) (handle : Nat) : Prop :=
  (∃ signal ∈ registry.ins, signal.signalHandle = some handle) ∨
    ∃ signal ∈ registry.outs, signal.signalHandle = some handle

theorem Sound.othersUnregister (h : registry.Sound) {handle : Nat} (hunheld : ¬registry.Holds handle)
    (answer : Result) : {registry with access := (registry.access.unregisterSignal handle answer).1}.Sound := by
  have hlisteners : (registry.access.listeners.filter fun listener => listener.2 != handle) =
      registry.access.listeners := by
    refine filter_eq_self.mpr fun listener hlistener => ?_
    rw [bne_iff_ne]
    rintro rfl
    obtain ⟨signal,hsignal,-,hhandle⟩ := (h.listenersLive.2 listener.1 listener.2).mp hlistener
    exact hunheld (.inl ⟨signal,hsignal,hhandle⟩)
  rw [SignalAccess.unregisterSignal]
  split
  · exact h
  · split
    · exact h
    · dsimp only
      rw [hlisteners]
      split
      · exact h
      · refine ⟨⟨h.booked.owned.signals_changed ?_ ?_ ?_,h.booked.objects,h.booked.listening,h.booked.live⟩,h.fresh⟩
        · exact h.booked.owned.handles.sublist (List.Sublist.map _ filter_sublist)
        · rintro signal hsignal ⟨holder,hholder,hhandle⟩
          refine mem_filter.mpr ⟨hsignal,?_⟩
          rw [bne_iff_ne]
          rintro rfl
          rcases mem_append.mp hholder with hin | hout
          · rw [map_map] at hin
            obtain ⟨found,hfound,rfl⟩ := mem_map.mp hin
            exact hunheld (.inl ⟨found,hfound,hhandle⟩)
          · obtain ⟨found,hfound,rfl⟩ := mem_map.mp hout
            exact hunheld (.inr ⟨found,hfound,hhandle⟩)
        · intro signal hsignal
          exact .inl (mem_of_mem_filter hsignal)

/-- No data signal is destroyed that holds a handle, `ready` is called when none holds one, and the signal registry
unregisters what the data registry has registered; nobody else unregisters a signal that is held. An output of
somebody else may be held. -/
def Careful (registry : DataRegistryFEP2) : DataRegistryAction → Prop
  | .call (.unregisterDataIn name) => ∀ signal ∈ registry.ins, signal.name = name → signal.signalHandle = none
  | .call (.unregisterDataOut name) => ∀ signal ∈ registry.outs, signal.name = name → signal.signalHandle ≠ none →
      signal.itsMySignalHandle = false
  | .call (.ready answers) => registry.Unheld answers
  | .call (.deinitializing answers) => registry.Releasable answers
  | .othersUnregister handle _ => ¬registry.Holds handle
  | _ => True

def leavesNone : DataRegistryCall → Result → Bool
  | .deinitializing _, _ => true
  | .ready _, result => isFailed result
  | _, _ => false

theorem call_spec (h : registry.Sound) {call : DataRegistryCall} (hcareful : registry.Careful (.call call)) :
    (registry.call call).1.Sound ∧ registry.access.KeepsOthers (registry.call call).1.access ∧
      (leavesNone call (registry.call call).2 = true → (registry.call call).1.NoneLeft) := by
  have hnot : leavesNone call (registry.call call).2 = false →
      leavesNone call (registry.call call).2 = true → (registry.call call).1.NoneLeft := by
    intro hfalse htrue
    rw [hfalse] at htrue
    cases htrue
  cases call with
  | registerDataIn name type =>
    refine ⟨h.registerDataIn name type,?_,hnot rfl⟩
    simp only [DataRegistryFEP2.call,DataRegistryFEP2.registerDataIn]
    split
    · exact .refl _
    · split <;> exact .refl _
  | registerDataOut name type =>
    refine ⟨h.registerDataOut name type,?_,hnot rfl⟩
    simp only [DataRegistryFEP2.call,DataRegistryFEP2.registerDataOut]
    split
    · exact .refl _
    · split <;> exact .refl _
  | unregisterDataIn name =>
    refine ⟨h.unregisterDataIn hcareful,?_,hnot rfl⟩
    simp only [DataRegistryFEP2.call,DataRegistryFEP2.unregisterDataIn]
    split <;> exact .refl _
  | unregisterDataOut name =>
    refine ⟨h.unregisterDataOut hcareful,?_,hnot rfl⟩
    simp only [DataRegistryFEP2.call,DataRegistryFEP2.unregisterDataOut]
    split <;> exact .refl _
  | getReader name queueSize preAllocatedSize =>
    refine ⟨(h.modifyIn name ?_).allocated,.refl _,hnot rfl⟩
    exact fun _ => rfl
  | getWriter name queueSize preAllocatedSize =>
    refine ⟨(h.modifyOut name ?_).allocated,.refl _,hnot rfl⟩
    exact fun _ => rfl
  | releaseReader reference =>
    refine ⟨h.congr ?_ rfl rfl (Nat.le_refl _),.refl _,hnot rfl⟩
    simp only [DataRegistryFEP2.call,DataRegistryFEP2.releaseReader,map_map]
    rfl
  | releaseWriter reference =>
    refine ⟨h.congr rfl ?_ rfl (Nat.le_refl _),.refl _,hnot rfl⟩
    simp only [DataRegistryFEP2.call,DataRegistryFEP2.releaseWriter,map_map]
    rfl
  | registerDataReceiveListener name listener =>
    refine ⟨?_,?_,hnot rfl⟩
    · simp only [DataRegistryFEP2.call,DataRegistryFEP2.registerDataReceiveListener]
      split
      · exact h.modifyIn name fun _ => rfl
      · exact h
    · simp only [DataRegistryFEP2.call,DataRegistryFEP2.registerDataReceiveListener]
      split <;> exact .refl _
  | unregisterDataReceiveListener name listener =>
    refine ⟨?_,?_,hnot rfl⟩
    · simp only [DataRegistryFEP2.call,DataRegistryFEP2.unregisterDataReceiveListener]
      split
      · exact h.modifyIn name fun _ => rfl
      · exact h
    · simp only [DataRegistryFEP2.call,DataRegistryFEP2.unregisterDataReceiveListener]
      split <;> exact .refl _
  | ready answers =>
    have hunheld : registry.Unheld answers := hcareful
    have hreleasable : registry.Releasable answers := by
      refine ⟨fun signal hsignal hsome => absurd (hunheld.ins signal hsignal).1 hsome,?_⟩
      intro signal hsignal hsome hmine
      rw [(hunheld.outs signal hsignal).1 hsome] at hmine
      cases hmine
    obtain ⟨hworking,hnone⟩ := Describing.ready ⟨⟨h,hreleasable,.refl _⟩,hunheld⟩
    exact ⟨hworking.toSound,hworking.keeps,hnone⟩
  | deinitializing answers =>
    obtain ⟨hworking,hnone⟩ := Working.unregisterFromSignalRegistry ⟨h,hcareful,.refl registry.access⟩
    exact ⟨hworking.toSound,hworking.keeps,fun _ => hnone⟩

theorem sound_step (h : registry.Sound) {action : DataRegistryAction} (hcareful : registry.Careful action)
    (hstep : registry.step action = some next) : next.Sound := by
  cases action with
  | call call =>
    cases hstep
    exact (call_spec h hcareful).1
  | othersRegister name direction answer handle =>
    cases hstep
    exact h.othersRegister name direction answer handle
  | othersUnregister handle answer =>
    cases hstep
    exact h.othersUnregister hcareful answer
  | allowRegistration bAllow =>
    cases hstep
    exact ⟨⟨h.booked.owned,h.booked.objects,h.booked.listening,h.booked.live⟩,h.fresh⟩
  | rehash ins outs =>
    simp only [step] at hstep
    split at hstep
    · rename_i hperm
      rw [Bool.and_eq_true,isPerm_iff,isPerm_iff] at hperm
      cases hstep
      refine ⟨h.booked.perm (hperm.1.symm.map _) (hperm.2.symm.map _),fun signal hsignal => ?_⟩
      exact h.fresh signal (hperm.1.mem_iff.mp hsignal)
    · cases hstep

private theorem sound_new : new.Sound := by
  refine ⟨⟨⟨nodup_nil,nodup_nil,?_,?_,?_⟩,nodup_nil,nodup_nil,?_⟩,?_⟩
  · intro holder hholder
    cases hholder
  · intro holder hholder
    cases hholder
  · intro signal hsignal
    cases hsignal
  · intro object handle
    simp [new]
  · intro signal hsignal
    cases hsignal

/-- The listeners stay the data signals that hold a handle; no call unregisters a signal of somebody else;
`deinitializing` and a failed `ready` leave no signal of the data registry. -/
theorem data_registry_bookkeeping (h : Reaches step Careful new registry) :
    registry.ListenersLive ∧ ∀ call, registry.Careful (.call call) →
      (∀ signal ∈ registry.access.signals, signal.registrant = .other →
        signal ∈ (registry.call call).1.access.signals) ∧
      (leavesNone call (registry.call call).2 = true → (registry.call call).1.NoneLeft) := by
  have hsound : registry.Sound :=
    h.invariant sound_new fun before action after hbefore hcareful hstep => sound_step hbefore hcareful hstep
  refine ⟨hsound.listenersLive,fun call hcareful => ?_⟩
  obtain ⟨-,hkeeps,hnone⟩ := call_spec hsound hcareful
  exact ⟨hkeeps.others,hnone⟩

instance (registry : DataRegistryFEP2) (answers : Answers) : Decidable (registry.Unheld answers) :=
  decidable_of_iff
    ((∀ signal ∈ registry.ins, signal.signalHandle = none ∧ isOk (answers .sdInput signal.name).unregistering = true) ∧
      ∀ signal ∈ registry.outs, (signal.signalHandle ≠ none → signal.itsMySignalHandle = false) ∧
        isOk (answers .sdOutput signal.name).unregistering = true)
    ⟨fun h => ⟨h.1,h.2⟩,fun h => ⟨h.ins,h.outs⟩⟩

instance (signal : DataSignal) (access : SignalAccess) (answers : SignalAnswers) :
    Decidable (signal.CanRelease access answers) :=
  inferInstanceAs (Decidable (_ → _ → _))

instance (registry : DataRegistryFEP2) (answers : Answers) : Decidable (registry.Releasable answers) :=
  decidable_of_iff
    ((∀ signal ∈ registry.ins, signal.CanRelease registry.access (answers .sdInput signal.name)) ∧
      ∀ signal ∈ registry.outs, signal.CanRelease registry.access (answers .sdOutput signal.name))
    ⟨fun h => ⟨h.1,h.2⟩,fun h => ⟨h.ins,h.outs⟩⟩

instance (registry : DataRegistryFEP2) (handle : Nat) : Decidable (registry.Holds handle) :=
  inferInstanceAs (Decidable (_ ∨ _))

instance (registry : DataRegistryFEP2) (action : DataRegistryAction) : Decidable (registry.Careful action) :=
  match action with
  | .call (.unregisterDataIn _) => inferInstanceAs (Decidable (∀ signal ∈ registry.ins, _ → _))
  | .call (.unregisterDataOut _) => inferInstanceAs (Decidable (∀ signal ∈ registry.outs, _ → _ → _))
  | .call (.ready answers) => inferInstanceAs (Decidable (registry.Unheld answers))
  | .call (.deinitializing answers) => inferInstanceAs (Decidable (registry.Releasable answers))
  | .othersUnregister handle _ => inferInstanceAs (Decidable (¬registry.Holds handle))
  | .call (.registerDataIn ..) | .call (.registerDataOut ..) | .call (.getReader ..) | .call (.getWriter ..)
  | .call (.releaseReader _) | .call (.releaseWriter _) | .call (.registerDataReceiveListener ..)
  | .call (.unregisterDataReceiveListener ..) | .othersRegister .. | .allowRegistration _ | .rehash .. =>
    inferInstanceAs (Decidable True)

def streamTypeRaw : StreamType := ⟨metaTypeRaw,[]⟩

/-- Every call succeeds, but for the listener of some signals. -/
def answering (refused : String → Bool) : Answers := fun _ name =>
  ⟨.errNoError,.errNoError,.errNoError,if name = "s" then 7 else 8,if refused name then .errFailed else .errNoError,
    .errNoError,.errNoError⟩

/-- An input that somebody else has registered, one of its own whose listener is refused at first, and an output. -/
def lifeCycle : List DataRegistryAction :=
  [.othersRegister "f" .sdInput .errNoError 1,.call (.registerDataIn "f" streamTypeRaw),
    .call (.registerDataIn "s" streamTypeRaw),.call (.registerDataOut "t" streamTypeRaw),
    .call (.getReader "s" 2 0),.call (.getWriter "t" none 0),.call (.ready (answering fun name => name == "s")),
    .call (.releaseReader 2),.call (.ready (answering fun _ => false))]

theorem data_registry_bookkeeping_life_cycle : ∃ registry : DataRegistryFEP2,
    Reaches step Careful new registry ∧ registry.access.listeners = [(0,1),(1,7)] ∧ registry.ListenersLive ∧
      (registry.call (.deinitializing (answering fun _ => false))).1.NoneLeft := by
  obtain ⟨registry,hreach,hlisteners,hcareful⟩ : ∃ registry, Reaches step Careful new registry ∧
      registry.access.listeners = [(0,1),(1,7)] ∧
      registry.Careful (.call (.deinitializing (answering fun _ => false))) :=
    exists_of_runAllowed lifeCycle (by decide +kernel)
  obtain ⟨hlive,hcalls⟩ := data_registry_bookkeeping hreach
  exact ⟨registry,hreach,hlisteners,hlive,(hcalls _ hcareful).2 rfl⟩

/-- A data signal unregistered while it holds a handle stays a listener of a registered signal; a second `ready`
takes the signal of the first for somebody else's and listens to it twice. -/
theorem data_signal_left_registered :
    (∃ registry, Reaches step anyAction new registry ∧ registry.ins = [] ∧ ¬registry.ListenersLive ∧
      ¬(registry.call (.deinitializing (answering fun _ => false))).1.NoneLeft) ∧
    ∃ registry, Reaches step anyAction new registry ∧
      ¬(registry.call (.deinitializing (answering fun _ => false))).1.ListenersLive ∧
      ¬(registry.call (.deinitializing (answering fun _ => false))).1.NoneLeft := by
  let own : RegisteredSignal := ⟨7,"s",.sdInput,.dataRegistry⟩
  let deinitialized (registry : DataRegistryFEP2) := (registry.call (.deinitializing (answering fun _ => false))).1
  have hleft : ∀ registry : DataRegistryFEP2, own ∈ registry.access.signals → ¬registry.NoneLeft := by
    intro registry hown hnone
    cases hnone own hown
  constructor
  · obtain ⟨registry,hreach,hnone,hlisteners,hown⟩ : ∃ registry, Reaches step anyAction new registry ∧
        registry.ins = [] ∧ registry.access.listeners = [(0,7)] ∧ own ∈ (deinitialized registry).access.signals :=
      exists_of_runActions [.call (.registerDataIn "s" streamTypeRaw),.call (.ready (answering fun _ => false)),
        .call (.unregisterDataIn "s")] (by decide +kernel)
    refine ⟨registry,hreach,hnone,fun hlive => ?_,hleft _ hown⟩
    obtain ⟨signal,hsignal,-⟩ := (hlive.2 0 7).mp (hlisteners ▸ mem_cons_self)
    rw [hnone] at hsignal
    cases hsignal
  · obtain ⟨registry,hreach,hlisteners,hins,hown⟩ : ∃ registry, Reaches step anyAction new registry ∧
        (deinitialized registry).access.listeners = [(0,7)] ∧
        (∀ signal ∈ (deinitialized registry).ins, signal.signalHandle = none) ∧
        own ∈ (deinitialized registry).access.signals :=
      exists_of_runActions [.call (.registerDataIn "s" streamTypeRaw),.call (.ready (answering fun _ => false)),
        .call (.ready (answering fun _ => false))] (by decide +kernel)
    refine ⟨registry,hreach,fun hlive => ?_,hleft _ hown⟩
    obtain ⟨signal,hsignal,-,hhandle⟩ := (hlive.2 0 7).mp (hlisteners ▸ mem_cons_self)
    rw [hins signal hsignal] at hhandle
    cases hhandle

end DataRegistryFEP2
end FepParticipant.DataRegistry
