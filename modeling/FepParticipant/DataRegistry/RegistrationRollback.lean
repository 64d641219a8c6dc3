import FepParticipant.DataRegistry.RegistryConsistency

/-! The registration of all data signals in one call, and what its rollback leaves when one of them fails. -/
namespace FepParticipant.DataRegistry
open Library Signals List Bool

namespace DataRegistryFEP2
variable {registry : DataRegistryFEP2} {answers : Answers} {access : SignalAccess}
variable {ins : List DataSignalIn} {direction : SignalDirection}

def inKeys (ins : List DataSignalIn) : List (SignalDirection × String) :=
  (ins.filter fun signal => signal.isSupported).map fun signal => (.sdInput,signal.name)

def outKeys (outs : List DataSignalOut) : List (SignalDirection × String) :=
  (outs.filter fun signal => signal.isSupported).map fun signal => (.sdOutput,signal.name)

def inHolders (ins : List DataSignalIn) : List Holder := ins.map fun signal => signal.toDataSignal.holder .sdInput

def outHolders (outs : List DataSignalOut) : List Holder := outs.map fun signal => signal.toDataSignal.holder .sdOutput

structure RegisteringIns (registry : DataRegistryFEP2) (answers : Answers) (tried done rest : List DataSignalIn)
    (access : SignalAccess) : Prop where
  split : tried ++ rest = registry.ins
  names : done.map (·.name) = tried.map (·.name)
  signals : ∃ added, Registering registry.access answers (inKeys tried)
    (inHolders (done ++ rest) ++ outHolders registry.outs) access added
  listeners : access.listeners = registry.access.listeners ++ (done ++ rest).filterMap DataSignalIn.heldEntry

structure RegisteringOuts (registry : DataRegistryFEP2) (answers : Answers) (ins : List DataSignalIn)
    (tried done rest : List DataSignalOut) (access : SignalAccess) : Prop where
  split : tried ++ rest = registry.outs
  names : done.map (·.name) = tried.map (·.name)
  signals : ∃ added, Registering registry.access answers (inKeys registry.ins ++ outKeys tried)
    (inHolders ins ++ outHolders (done ++ rest)) access added
  listeners : access.listeners = registry.access.listeners ++ ins.filterMap DataSignalIn.heldEntry

theorem inKeys_append (ins more : List DataSignalIn) : inKeys (ins ++ more) = inKeys ins ++ inKeys more := by
  rw [inKeys,filter_append,map_append]
  rfl

theorem outKeys_append (outs more : List DataSignalOut) : outKeys (outs ++ more) = outKeys outs ++ outKeys more := by
  rw [outKeys,filter_append,map_append]
  rfl

theorem inKeys_singleton (signal : DataSignalIn) :
    inKeys [signal] = if signal.isSupported = true then [(.sdInput,signal.name)] else [] := by
  rw [inKeys,filter_cons]
  split <;> rfl

theorem outKeys_singleton (signal : DataSignalOut) :
    outKeys [signal] = if signal.isSupported = true then [(.sdOutput,signal.name)] else [] := by
  rw [outKeys,filter_cons]
  split <;> rfl

theorem mem_keysOf {σ : Type} {signals : List σ} {isSupported : σ → Bool} {nameOf : σ → String}
    {own direction : SignalDirection} {name : String} :
    (direction,name) ∈ (signals.filter isSupported).map (fun signal => (own,nameOf signal)) ↔
      direction = own ∧ ∃ signal ∈ signals, isSupported signal = true ∧ nameOf signal = name := by
  rw [mem_map]
  constructor
  · rintro ⟨signal,hsignal,hkey⟩
    obtain ⟨hmem,hsupported⟩ := mem_filter.mp hsignal
    cases hkey
    exact ⟨rfl,signal,hmem,hsupported,rfl⟩
  · rintro ⟨rfl,signal,hmem,hsupported,rfl⟩
    exact ⟨signal,mem_filter.mpr ⟨hmem,hsupported⟩,rfl⟩

theorem forall_keysOf {σ : Type} {signals : List σ} {isSupported : σ → Bool} {nameOf : σ → String}
    {own : SignalDirection} (holds : SignalDirection → String → Prop) :
    (∀ key ∈ (signals.filter isSupported).map (fun signal => (own,nameOf signal)), holds key.1 key.2) ↔
      ∀ signal ∈ signals, isSupported signal = true → holds own (nameOf signal) := by
  rw [forall_mem_map]
  exact forall_mem_filter

theorem mem_inKeys {name : String} : (direction,name) ∈ inKeys ins ↔
      direction = .sdInput ∧ ∃ signal ∈ ins, signal.isSupported = true ∧ signal.name = name :=
  mem_keysOf

private theorem mem_outKeys {outs : List DataSignalOut} {name : String} : (direction,name) ∈ outKeys outs ↔
      direction = .sdOutput ∧ ∃ signal ∈ outs, signal.isSupported = true ∧ signal.name = name :=
  mem_keysOf

theorem mem_map_middle {α β : Type} {f : α → β} {done rest : List α} {item : α} {b : β} :
    b ∈ (done ++ item::rest).map f ↔ b = f item ∨ b ∈ (done ++ rest).map f := by
  rw [map_append,map_cons,map_append,mem_append,mem_cons,mem_append]
  tauto

theorem inKey_new {name : String} (hnew : name ∉ ins.map (·.name)) : (.sdInput,name) ∉ inKeys ins := by
  intro hkey
  obtain ⟨-,signal,hmem,-,hname⟩ := mem_inKeys.mp hkey
  exact hnew (hname ▸ mem_map_of_mem hmem)

theorem outKey_new {outs : List DataSignalOut} {name : String} (hnew : name ∉ outs.map (·.name)) :
    (.sdOutput,name) ∉ inKeys ins ++ outKeys outs := by
  intro hkey
  rcases mem_append.mp hkey with hin | hout
  · cases (mem_inKeys.mp hin).1
  · obtain ⟨-,signal,hmem,-,hname⟩ := mem_outKeys.mp hout
    exact hnew (hname ▸ mem_map_of_mem hmem)

theorem name_ne {α : Type} {name : α → String} {tried rest : List α} {item : α}
    (h : ((tried ++ item::rest).map name).Nodup) : name item ∉ tried.map name ∧ name item ∉ rest.map name := by
  rw [map_append,map_cons] at h
  obtain ⟨-,hrest,hdisjoint⟩ := List.nodup_append.mp h
  refine ⟨fun hmem => hdisjoint _ hmem _ mem_cons_self rfl,(nodup_cons.mp hrest).1⟩

theorem RegisteringIns.unheard {tried done rest : List DataSignalIn} {item : DataSignalIn}
    (h : RegisteringIns registry answers tried done (item::rest) access)
    (hfresh : FreshHandles registry.access answers) (hnames : (registry.ins.map (·.name)).Nodup)
    (hnone : item.signalHandle = none) :
    ∀ listener ∈ access.listeners, listener.2 ≠ (answers .sdInput item.name).handle := by
  intro listener hlistener hsame
  rw [h.listeners] at hlistener
  rcases mem_append.mp hlistener with hold | hnew
  · exact hfresh.unheard _ _ listener hold hsame
  · obtain ⟨signal,hsignal,hentry⟩ := mem_filterMap.mp hnew
    obtain ⟨handle,hhandle,rfl⟩ := Option.map_eq_some_iff.mp hentry
    obtain ⟨added,hadded⟩ := h.signals
    have hholder : signal.toDataSignal.holder .sdInput ∈ inHolders (done ++ item::rest) := mem_map_of_mem hsignal
    rcases hadded.held _ (mem_append_left _ hholder) handle hhandle with ⟨-,hown⟩ | ⟨-,hold⟩
    · have hname : signal.name = item.name := (hfresh.distinct _ _ _ _ (hown.symm.trans hsame)).2
      rw [← h.split] at hnames
      obtain ⟨htried,hrest⟩ := name_ne hnames
      rcases mem_append.mp hsignal with hdone | hitem
      · rw [← h.names] at htried
        exact htried (hname ▸ mem_map_of_mem hdone)
      · rcases mem_cons.mp hitem with rfl | hbehind
        · rw [hnone] at hhandle
          cases hhandle
        · exact hrest (hname ▸ mem_map_of_mem hbehind)
    · change handle = _ at hsame
      exact hfresh.unused _ _ (hsame ▸ hold)

theorem RegisteringIns.step {tried done rest : List DataSignalIn} {item : DataSignalIn}
    (h : RegisteringIns registry answers tried done (item::rest) access)
    (hfresh : FreshHandles registry.access answers) (hconsistent : registry.Consistent)
    (hunregistered : registry.Unregistered) :
    isFailed (item.registerAtSignalRegistry access (answers .sdInput item.name)).2.2 =
        item.fails registry.access (answers .sdInput) ∧
      RegisteringIns registry answers (tried ++ [item])
        (done ++ [(item.registerAtSignalRegistry access (answers .sdInput item.name)).1]) rest
        (item.registerAtSignalRegistry access (answers .sdInput item.name)).2.1 := by
  have hsignal : ∀ signal ∈ item::rest, signal ∈ registry.ins := fun signal hsignal =>
    h.split ▸ mem_append_right tried hsignal
  have hnone := (hunregistered.ins item (hsignal item mem_cons_self)).1
  have hmine := hconsistent.mineIns item (hsignal item mem_cons_self) hnone
  have hnames : ((tried ++ item::rest).map (·.name)).Nodup := h.split ▸ hconsistent.ins
  have hnew := inKey_new (name_ne hnames).1
  obtain ⟨added,hadded⟩ := h.signals
  have hunheard := h.unheard hfresh hconsistent.ins hnone
  obtain ⟨failed,hres,hfails,htried⟩ := hadded.toProgress.triedIn hfresh fun _ => hnew
  have hfree := hadded.toProgress.handle_free hfresh hnew
  refine ⟨hres.trans hfails.symm,?_⟩
  generalize item.registerAtSignalRegistry access (answers .sdInput item.name) = outcome at htried ⊢
  obtain ⟨next,after,res⟩ := outcome
  have hname := htried.name
  refine ⟨?_,?_,?_,?_⟩
  · rw [append_assoc]
    exact h.split
  · rw [map_append,map_append,h.names,map_cons,map_cons,hname]
  · rw [inKeys_append,inKeys_singleton,append_assoc]
    rcases htried.extends_of_unregistered hmine hadded.allowed hfree with
      ⟨hunsupported,rfl,rfl⟩ | ⟨hsupported,new,hextends⟩
    · rw [if_neg (ne_true_of_eq_false hunsupported),append_nil]
      exact ⟨added,hadded⟩
    · rw [if_pos hsupported,← hname]
      rw [← hname] at hextends
      refine ⟨added ++ new,hadded.next hextends hnone ?_ ?_ ?_⟩
      · intro holder hholder
        rw [mem_append,inHolders,mem_map_middle] at hholder
        rw [mem_append,singleton_append,inHolders,mem_map_middle]
        tauto
      · intro holder hholder
        rw [mem_append,singleton_append,inHolders,mem_map_middle] at hholder
        rw [mem_append,inHolders,mem_map_middle]
        tauto
      · exact mem_append_left _ (mem_map_middle.mpr (.inl rfl))
  · have hrest : rest.filterMap DataSignalIn.heldEntry = [] := by
      refine filterMap_eq_nil_iff.mpr fun signal hmem => ?_
      rw [DataSignalIn.heldEntry,(hunregistered.ins signal (hsignal signal (mem_cons_of_mem _ hmem))).1]
      rfl
    have hitem : item.heldEntry = none := by
      rw [DataSignalIn.heldEntry,hnone]
      rfl
    rw [htried.listeners hnone hunheard,h.listeners,filterMap_append,filterMap_append,
      filterMap_append,filterMap_cons,hitem,hrest,append_nil,append_nil,append_assoc]
    cases hentry : next.heldEntry with
    | none =>
      rw [filterMap_cons,hentry]
      rfl
    | some entry =>
      rw [filterMap_cons,hentry]
      rfl

theorem RegisteringOuts.step {ins : List DataSignalIn} {tried done rest : List DataSignalOut}
    {item : DataSignalOut} (h : RegisteringOuts registry answers ins tried done (item::rest) access)
    (hfresh : FreshHandles registry.access answers) (hconsistent : registry.Consistent)
    (hunregistered : registry.Unregistered) :
    isFailed (item.registerAtSignalRegistry access (answers .sdOutput item.name)).2.2 =
        item.fails registry.access (answers .sdOutput) ∧
      RegisteringOuts registry answers ins (tried ++ [item])
        (done ++ [(item.registerAtSignalRegistry access (answers .sdOutput item.name)).1]) rest
        (item.registerAtSignalRegistry access (answers .sdOutput item.name)).2.1 := by
  have hitem : item ∈ registry.outs := h.split ▸ mem_append_right tried mem_cons_self
  have hnone := (hunregistered.outs item hitem).1
  have hmine := hconsistent.mineOuts item hitem hnone
  have hnames : ((tried ++ item::rest).map (·.name)).Nodup := h.split ▸ hconsistent.outs
  have hnew : (.sdOutput,item.name) ∉ inKeys registry.ins ++ outKeys tried := outKey_new (name_ne hnames).1
  obtain ⟨added,hadded⟩ := h.signals
  obtain ⟨hfails,htried⟩ := hadded.toProgress.triedOut hfresh fun _ => hnew
  refine ⟨hfails,?_⟩
  generalize item.registerAtSignalRegistry access (answers .sdOutput item.name) = outcome at htried ⊢
  obtain ⟨next,after,res⟩ := outcome
  have hname := htried.name
  refine ⟨?_,?_,?_,?_⟩
  · rw [append_assoc]
    exact h.split
  · rw [map_append,map_append,h.names,map_cons,map_cons,hname]
  · rw [outKeys_append,outKeys_singleton,← append_assoc,append_assoc done]
    rcases htried.extends_of_unregistered hmine with ⟨hunsupported,rfl,rfl⟩ | ⟨hsupported,new,hextends⟩
    · rw [if_neg (ne_true_of_eq_false hunsupported),append_nil]
      exact ⟨added,hadded⟩
    · rw [if_pos hsupported,← hname]
      rw [← hname] at hextends
      refine ⟨added ++ new,hadded.next hextends hnone ?_ ?_ ?_⟩
      · intro holder hholder
        rw [mem_append,outHolders,mem_map_middle] at hholder
        rw [mem_append,singleton_append,outHolders,mem_map_middle]
        tauto
      · intro holder hholder
        rw [mem_append,singleton_append,outHolders,mem_map_middle] at hholder
        rw [mem_append,outHolders,mem_map_middle]
        tauto
      · exact mem_append_right _ (mem_map_middle.mpr (.inl rfl))
  · rw [htried.listeners,h.listeners]

theorem registerIns_registering (hfresh : FreshHandles registry.access answers)
    (hconsistent : registry.Consistent) (hunregistered : registry.Unregistered) : ∃ done rest,
    (registry.registerIns answers).1.ins = done ++ rest ∧
    RegisteringIns registry answers (upToFailure (DataSignalIn.fails registry.access (answers .sdInput)) registry.ins)
      done rest (registry.registerIns answers).1.access := by
  have hstart : RegisteringIns registry answers [] [] registry.ins registry.access := by
    have hunheld : ∀ holder ∈ inHolders registry.ins ++ outHolders registry.outs, holder.signalHandle = none := by
      intro holder hholder
      rcases mem_append.mp hholder with hin | hout
      · obtain ⟨signal,hsignal,rfl⟩ := mem_map.mp hin
        exact (hunregistered.ins signal hsignal).1
      · obtain ⟨signal,hsignal,rfl⟩ := mem_map.mp hout
        exact (hunregistered.outs signal hsignal).1
    refine ⟨rfl,rfl,⟨[],⟨rfl,(append_nil _).symm,nofun⟩,nofun,nofun,nofun,?_⟩,?_⟩
    · intro holder hholder handle hhandle
      rw [hunheld holder hholder] at hhandle
      cases hhandle
    · have hnone : registry.ins.filterMap DataSignalIn.heldEntry = [] := by
        refine filterMap_eq_nil_iff.mpr fun signal hsignal => ?_
        rw [DataSignalIn.heldEntry,(hunregistered.ins signal hsignal).1]
        rfl
      rw [nil_append,hnone,append_nil]
  obtain ⟨done,rest,hsplit,hdone,-⟩ :=
    untilFailure_spec (fun (signal : DataSignalIn) access =>
        signal.registerAtSignalRegistry access (answers .sdInput signal.name))
      (RegisteringIns registry answers)
      (fun _ _ _ _ _ _ h => h.step hfresh hconsistent hunregistered) registry.ins [] [] registry.access rfl hstart
  exact ⟨done,rest,hsplit,hdone⟩

/-- When all inputs are registered the outputs have been tried as far as the first failure. -/
theorem registerOuts_registering (hfresh : FreshHandles registry.access answers)
    (hconsistent : registry.Consistent) (hunregistered : registry.Unregistered)
    (hins : registry.insFail answers = false) : ∃ done rest,
    ((registry.registerIns answers).1.registerOuts answers).1.outs = done ++ rest ∧
    RegisteringOuts registry answers (registry.registerIns answers).1.ins
      (upToFailure (DataSignalOut.fails registry.access (answers .sdOutput)) registry.outs) done rest
      ((registry.registerIns answers).1.registerOuts answers).1.access := by
  obtain ⟨inDone,inRest,hinSplit,hinDone⟩ := registerIns_registering hfresh hconsistent hunregistered
  have hall := hinDone.split
  rw [upToFailure_of_none hins,append_right_eq_self] at hall
  subst hall
  rw [append_nil] at hinSplit
  have hstart : RegisteringOuts registry answers (registry.registerIns answers).1.ins [] [] registry.outs
      (registry.registerIns answers).1.access := by
    obtain ⟨added,hadded⟩ := hinDone.signals
    rw [upToFailure_of_none hins,append_nil,← hinSplit] at hadded
    have hlisteners := hinDone.listeners
    rw [append_nil,← hinSplit] at hlisteners
    refine ⟨rfl,rfl,⟨added,?_⟩,hlisteners⟩
    rw [outKeys,filter_nil,map_nil,append_nil]
    exact hadded
  obtain ⟨done,rest,hsplit,hdone,-⟩ :=
    untilFailure_spec (fun (signal : DataSignalOut) access =>
        signal.registerAtSignalRegistry access (answers .sdOutput signal.name))
      (RegisteringOuts registry answers (registry.registerIns answers).1.ins)
      (fun _ _ _ _ _ _ h => h.step hfresh hconsistent hunregistered) registry.outs [] []
      (registry.registerIns answers).1.access rfl hstart
  exact ⟨done,rest,hsplit,hdone⟩

def releases (answers : Answers) (handle : Nat) (holder : Holder) : Bool :=
  holder.signalHandle == some handle && holder.mine && isOk (answers holder.direction holder.name).unregistering

theorem releaseHandle_signals (signal : DataSignal) :
    (signal.releaseHandle access (answers direction signal.name)).2.bAllowRegistration = access.bAllowRegistration ∧
    (signal.releaseHandle access (answers direction signal.name)).2.signals = access.signals.filter fun registered =>
      !(access.bAllowRegistration && releases answers registered.handle (signal.holder direction)) := by
  have hall : ∀ {keeps : RegisteredSignal → Bool}, (∀ registered, keeps registered = true) →
      access.signals = access.signals.filter keeps := fun h =>
    (filter_eq_self.mpr fun registered _ => h registered).symm
  rw [DataSignal.releaseHandle]
  cases hhandle : signal.signalHandle with
  | none =>
    refine ⟨rfl,hall fun registered => ?_⟩
    rw [releases,DataSignal.holder,hhandle]
    cases access.bAllowRegistration <;> rfl
  | some handle =>
    have hreleases : ∀ other, releases answers other (signal.holder direction) =
        (handle == other && signal.itsMySignalHandle && isOk (answers direction signal.name).unregistering) := by
      intro other
      rw [releases,DataSignal.holder,hhandle]
      rfl
    simp only [hreleases]
    by_cases hmine : signal.itsMySignalHandle = true
    · rw [if_pos hmine,hmine,SignalAccess.unregisterSignal]
      cases hallowed : access.bAllowRegistration with
      | false => exact ⟨hallowed,hall fun _ => rfl⟩
      | true =>
        simp only [Bool.not_true,Bool.false_eq_true,if_false,Bool.and_true,Bool.true_and]
        by_cases hknown : handle ∈ access.signals.map (·.handle)
        · rw [if_neg (not_not_intro hknown)]
          cases hok : isOk (answers direction signal.name).unregistering with
          | false =>
            rw [if_pos (by rw [isFailed,hok]; rfl)]
            exact ⟨rfl,hall fun registered => by rw [Bool.and_false]; rfl⟩
          | true =>
            rw [if_neg (by rw [isFailed,hok]; decide)]
            refine ⟨rfl,filter_congr fun registered _ => ?_⟩
            rw [Bool.and_true,bne,Bool.beq_comm]
        · rw [if_pos hknown]
          refine ⟨hallowed,(filter_eq_self.mpr fun registered hregistered => ?_).symm⟩
          have hne : (handle == registered.handle) = false :=
            beq_eq_false_iff_ne.mpr fun hsame => hknown (hsame ▸ mem_map_of_mem hregistered)
          rw [hne]
          rfl
    · rw [if_neg hmine,eq_false_of_ne_true hmine]
      refine ⟨rfl,hall fun registered => ?_⟩
      simp

private theorem forEach_signals {α : Type} (unregister : α → SignalAccess → α × SignalAccess) (holder : α → Holder)
    (h : ∀ item access, (unregister item access).2.bAllowRegistration = access.bAllowRegistration ∧
      (unregister item access).2.signals = access.signals.filter fun registered =>
        !(access.bAllowRegistration && releases answers registered.handle (holder item)))
    (items : List α) (access : SignalAccess) :
    (forEach unregister items access).2.bAllowRegistration = access.bAllowRegistration ∧
    (forEach unregister items access).2.signals = access.signals.filter fun registered =>
      !(access.bAllowRegistration && (items.map holder).any (releases answers registered.handle)) := by
  induction items generalizing access with
  | nil =>
    refine ⟨rfl,(filter_eq_self.mpr fun registered _ => ?_).symm⟩
    rw [map_nil,any_nil,Bool.and_false]
    rfl
  | cons item items ih =>
    obtain ⟨hallowed,hsignals⟩ := h item access
    obtain ⟨hlater,hrest⟩ := ih (unregister item access).2
    rw [forEach]
    refine ⟨hlater.trans hallowed,?_⟩
    rw [hrest,hsignals,hallowed,filter_filter]
    refine filter_congr fun registered _ => ?_
    rw [map_cons,any_cons,← Bool.not_or,← Bool.and_or_distrib_left,Bool.or_comm]

theorem unregister_signals : (registry.unregisterFromSignalRegistry answers).access.signals =
      registry.access.signals.filter fun registered => !(registry.access.bAllowRegistration &&
        (inHolders registry.ins ++ outHolders registry.outs).any (releases answers registered.handle)) := by
  obtain ⟨hallowed,houts⟩ := forEach_signals (fun (signal : DataSignalOut) access =>
      signal.unregisterFromSignalRegistry access (answers .sdOutput signal.name))
    (fun signal => signal.toDataSignal.holder .sdOutput)
    (fun signal access => releaseHandle_signals signal.toDataSignal)
    registry.outs registry.access
  obtain ⟨-,hins⟩ := forEach_signals (fun (signal : DataSignalIn) access =>
      signal.unregisterFromSignalRegistry access (answers .sdInput signal.name))
    (fun signal => signal.toDataSignal.holder .sdInput)
    (fun signal access => by
      rw [DataSignalIn.unregisterFromSignalRegistry]
      cases signal.signalHandle with
      | none => exact releaseHandle_signals signal.toDataSignal
      | some handle => exact releaseHandle_signals signal.toDataSignal)
    registry.ins (forEach (fun (signal : DataSignalOut) access =>
      signal.unregisterFromSignalRegistry access (answers .sdOutput signal.name)) registry.outs registry.access).2
  rw [unregisterFromSignalRegistry]
  rw [hins,houts,hallowed,filter_filter]
  refine filter_congr fun registered _ => ?_
  rw [inHolders,outHolders,any_append,← Bool.not_or,← Bool.and_or_distrib_left]

theorem forEach_outs_listeners (answers : Answers) (outs : List DataSignalOut) (access : SignalAccess)
    (h : ∀ signal ∈ outs, ∀ handle, signal.signalHandle = some handle → signal.itsMySignalHandle = true →
      ∀ listener ∈ access.listeners, listener.2 ≠ handle) : (forEach (fun (signal : DataSignalOut) access =>
      signal.unregisterFromSignalRegistry access (answers .sdOutput signal.name)) outs access).2.listeners =
      access.listeners := by
  induction outs generalizing access with
  | nil => rfl
  | cons signal outs ih =>
    rw [forall_mem_cons] at h
    have hfirst : (signal.unregisterFromSignalRegistry access (answers .sdOutput signal.name)).2.listeners =
        access.listeners := releaseHandle_listeners h.1
    rw [forEach]
    rw [ih _ (by rw [hfirst]; exact h.2),hfirst]

theorem forEach_ins_listeners (answers : Answers) {kept : List (Nat × Nat)} (ins : List DataSignalIn)
    (access : SignalAccess) (hlisteners : access.listeners.Perm (kept ++ ins.filterMap DataSignalIn.heldEntry))
    (hkept : ∀ signal ∈ ins, ∀ handle, signal.signalHandle = some handle → signal.itsMySignalHandle = true →
      ∀ listener ∈ kept, listener.2 ≠ handle)
    (hapart : ins.Pairwise fun signal other => ∀ handle, signal.signalHandle = some handle →
      signal.itsMySignalHandle = true → other.signalHandle ≠ some handle) :
    (forEach (fun (signal : DataSignalIn) access =>
      signal.unregisterFromSignalRegistry access (answers .sdInput signal.name)) ins access).2.listeners.Perm kept := by
  induction ins generalizing access with
  | nil =>
    rw [filterMap_nil,append_nil] at hlisteners
    exact hlisteners
  | cons signal ins ih =>
    rw [forall_mem_cons] at hkept
    obtain ⟨hbehind,hapart⟩ := pairwise_cons.mp hapart
    rw [forEach]
    apply ih _ _ hkept.2 hapart
    rw [DataSignalIn.unregisterFromSignalRegistry]
    rw [filterMap_cons] at hlisteners
    cases hhandle : signal.signalHandle with
    | none =>
      rw [DataSignalIn.heldEntry,hhandle] at hlisteners
      rw [DataSignal.releaseHandle,hhandle]
      exact hlisteners
    | some handle =>
      rw [DataSignalIn.heldEntry,hhandle] at hlisteners
      have hremoved : (access.unregisterDataListener signal.object handle).listeners.Perm
          (kept ++ ins.filterMap DataSignalIn.heldEntry) := by
        have hfront := hlisteners.trans perm_middle
        have herased := hfront.erase (signal.object,handle)
        rw [erase_cons_head] at herased
        exact herased
      rw [releaseHandle_listeners]
      · exact hremoved
      · intro other hother hmine listener hlistener
        rcases mem_append.mp (hremoved.mem_iff.mp hlistener) with hold | hheld
        · exact hkept.1 other hother hmine listener hold
        · obtain ⟨behind,hmem,hentry⟩ := mem_filterMap.mp hheld
          obtain ⟨held,hholds,rfl⟩ := Option.map_eq_some_iff.mp hentry
          rintro rfl
          exact hbehind behind hmem _ hother hmine hholds

section rollback
variable {base : SignalAccess} {tried : List (SignalDirection × String)} {holders : List Holder}
  {added : List RegisteredSignal}

section
variable (h : Registering base answers tried holders access added)
include h

theorem own_handle {holder : Holder}
    (hholder : holder ∈ holders) {handle : Nat} (hhandle : holder.signalHandle = some handle)
    (hmine : holder.mine = true) : handle = (answers holder.direction holder.name).handle := by
  rcases h.held holder hholder handle hhandle with ⟨-,hsame⟩ | ⟨hothers,-⟩
  · exact hsame
  · rw [hmine] at hothers
    cases hothers

section
variable (hfresh : FreshHandles base answers)
include hfresh

theorem holder_of_handle {holder : Holder} (hholder : holder ∈ holders)
    {name : String} (hhandle : holder.signalHandle = some (answers direction name).handle) :
    holder.direction = direction ∧ holder.name = name := by
  rcases h.held holder hholder _ hhandle with ⟨-,hsame⟩ | ⟨-,hold⟩
  · obtain ⟨hdirection,hname⟩ := hfresh.distinct _ _ _ _ hsame
    exact ⟨hdirection.symm,hname.symm⟩
  · exact absurd hold (hfresh.unused direction name)

theorem releases_base {registered : RegisteredSignal} (hregistered : registered ∈ base.signals) :
    holders.any (releases answers registered.handle) = false := by
  refine any_eq_false.mpr fun holder hholder hreleases => ?_
  simp only [releases,and_eq_true,beq_iff_eq] at hreleases
  obtain ⟨⟨hhandle,hmine⟩,-⟩ := hreleases
  have hsame := own_handle h hholder hhandle hmine
  exact hfresh.unused holder.direction holder.name (hsame ▸ mem_map_of_mem hregistered)

theorem releases_added {registered : RegisteredSignal} (hregistered : registered ∈ added) :
    holders.any (releases answers registered.handle) = true ↔
      isOk (answers registered.direction registered.name).unregistering = true := by
  have hhandle := (h.known registered hregistered).2
  rw [any_eq_true]
  constructor
  · rintro ⟨holder,hholder,hreleases⟩
    simp only [releases,and_eq_true,beq_iff_eq] at hreleases
    obtain ⟨⟨hholds,-⟩,hok⟩ := hreleases
    rw [hhandle] at hholds
    obtain ⟨hdirection,hname⟩ := holder_of_handle h hfresh hholder hholds
    rw [← hdirection,← hname]
    exact hok
  · intro hok
    obtain ⟨holder,hholder,hholds,hmine⟩ := h.holding registered hregistered hok
    refine ⟨holder,hholder,?_⟩
    have hsame := hholds
    rw [hhandle] at hsame
    obtain ⟨hdirection,hname⟩ := holder_of_handle h hfresh hholder hsame
    rw [releases,hholds,hmine,hdirection,hname,hok,BEq.rfl]
    rfl

end

end

section
variable (h : Registering base answers tried (inHolders registry.ins ++ outHolders registry.outs) registry.access added)
include h

theorem rolledBack_listeners
    (hlisteners : registry.access.listeners = base.listeners ++ registry.ins.filterMap DataSignalIn.heldEntry)
    (hfresh : FreshHandles base answers) (hnames : (registry.ins.map (·.name)).Nodup) :
    (registry.unregisterFromSignalRegistry answers).access.listeners.Perm base.listeners := by
  have hinHolder : ∀ signal ∈ registry.ins, signal.toDataSignal.holder .sdInput ∈
      inHolders registry.ins ++ outHolders registry.outs := fun signal hsignal =>
    mem_append_left _ (mem_map_of_mem hsignal)
  have houtHolder : ∀ signal ∈ registry.outs, signal.toDataSignal.holder .sdOutput ∈
      inHolders registry.ins ++ outHolders registry.outs := fun signal hsignal =>
    mem_append_right _ (mem_map_of_mem hsignal)
  apply forEach_ins_listeners
  · rw [forEach_outs_listeners,hlisteners]
    intro signal hsignal handle hhandle hmine listener hlistener
    have hsame : handle = _ := own_handle h (houtHolder signal hsignal) hhandle hmine
    rw [hlisteners] at hlistener
    rcases mem_append.mp hlistener with hold | hheld
    · rw [hsame]
      exact hfresh.unheard _ _ listener hold
    · obtain ⟨other,hother,hentry⟩ := mem_filterMap.mp hheld
      obtain ⟨held,hholds,rfl⟩ := Option.map_eq_some_iff.mp hentry
      rintro rfl
      have hdirection := (holder_of_handle h hfresh (hinHolder other hother) (hholds.trans (congrArg some hsame))).1
      cases hdirection
  · intro signal hsignal handle hhandle hmine listener hlistener
    rw [own_handle h (hinHolder signal hsignal) hhandle hmine]
    exact hfresh.unheard _ _ listener hlistener
  · refine (pairwise_map.mp hnames).imp_of_mem fun {signal other} hsignal hother hne => ?_
    intro handle hhandle hmine hholds
    rw [own_handle h (hinHolder signal hsignal) hhandle hmine] at hholds
    exact hne (holder_of_handle h hfresh (hinHolder other hother) hholds).2.symm

theorem rolledBack_signals (hfresh : FreshHandles base answers) :
    (registry.unregisterFromSignalRegistry answers).access.signals = base.signals ↔
      ∀ key ∈ tried, base.registersNew key.1 key.2 (answers key.1 key.2) = true →
        isOk (answers key.1 key.2).unregistering = true := by
  have hbase : (base.signals.filter fun registered => !(registry.access.bAllowRegistration &&
      (inHolders registry.ins ++ outHolders registry.outs).any (releases answers registered.handle))) =
      base.signals := by
    refine filter_eq_self.mpr fun registered hregistered => ?_
    rw [releases_base h hfresh hregistered,Bool.and_false]
    rfl
  rw [unregister_signals,h.signals,filter_append,hbase,append_right_eq_self,filter_eq_nil_iff]
  constructor
  · intro hreleased key hkey hregisters
    by_contra hfails
    obtain ⟨registered,hregistered,hhandle⟩ := h.left key hkey hregisters (eq_false_of_ne_true hfails)
    have hgone := hreleased registered hregistered
    rw [not_eq_true',not_eq_false,and_eq_true] at hgone
    have hok := (releases_added h hfresh hregistered).mp hgone.2
    obtain ⟨hdirection,hname⟩ := hfresh.distinct _ _ _ _ (hhandle.symm.trans (h.known registered hregistered).2)
    rw [← hdirection,← hname] at hok
    exact hfails hok
  · intro hall registered hregistered
    have hnew := h.new registered hregistered
    have hreleased := (releases_added h hfresh hregistered).mpr (hall _ (h.known registered hregistered).1 hnew)
    rw [SignalAccess.registersNew,and_eq_true,and_eq_true] at hnew
    rw [not_eq_true',not_eq_false,and_eq_true]
    exact ⟨h.allowed.trans hnew.1.2,hreleased⟩

end

end rollback

/-- What holds while no data signal for input has failed. -/
structure InsRegistered (registry : DataRegistryFEP2) (answers : Answers) (tried done : List DataSignalIn)
    (access : SignalAccess) : Prop where
  signals : ∃ added, Progress registry.access answers (inKeys tried) access added
  registered : ∀ signal ∈ done, signal.IsRegistered access

structure OutsRegistered (registry : DataRegistryFEP2) (answers : Answers) (ins : List DataSignalIn)
    (tried done : List DataSignalOut) (access : SignalAccess) : Prop where
  signals : ∃ added, Progress registry.access answers (inKeys registry.ins ++ outKeys tried) access added
  ins : ∀ signal ∈ ins, signal.IsRegistered access
  registered : ∀ signal ∈ done,
    registry.access.acquires .sdOutput signal.name (answers .sdOutput signal.name) = true → signal.IsRegistered access
  unregistered : ∀ signal ∈ done,
    registry.access.acquires .sdOutput signal.name (answers .sdOutput signal.name) = false → signal.signalHandle = none

theorem InsRegistered.step {tried done : List DataSignalIn} {item : DataSignalIn}
    (h : InsRegistered registry answers tried done access) (hfresh : FreshHandles registry.access answers)
    (hnew : item.name ∉ tried.map (·.name)) :
    isFailed (item.registerAtSignalRegistry access (answers .sdInput item.name)).2.2 =
        item.fails registry.access (answers .sdInput) ∧
      (item.fails registry.access (answers .sdInput) = false → InsRegistered registry answers (tried ++ [item])
        (done ++ [(item.registerAtSignalRegistry access (answers .sdInput item.name)).1])
        (item.registerAtSignalRegistry access (answers .sdInput item.name)).2.1) := by
  obtain ⟨⟨added,hadded⟩,hregistered⟩ := h
  have hkey := inKey_new hnew
  obtain ⟨failed,hres,hfails,htried⟩ := hadded.triedIn hfresh fun _ => hkey
  refine ⟨hres.trans hfails.symm,fun hok => ?_⟩
  rw [hok] at hfails
  subst hfails
  generalize item.registerAtSignalRegistry access (answers .sdInput item.name) = outcome at htried ⊢
  obtain ⟨next,after,res⟩ := outcome
  cases htried with
  | @listening acquired middle handle samplePool _ hsupported hobtains hpool =>
    obtain ⟨⟨more,hmore⟩,⟨registrant,hmem⟩,hsignals,hlisteners⟩ := hadded.obtains hobtains
    refine ⟨⟨more,?_⟩,fun signal hsignal => ?_⟩
    · rw [inKeys_append,inKeys_singleton,if_pos hsupported]
      exact ⟨hmore.allowed,hmore.signals,hmore.known⟩
    · rcases mem_append.mp hsignal with hdone | hitem
      · refine (hregistered signal hdone).mono hsignals fun listener hlistener => ?_
        exact mem_append_left _ (hlisteners ▸ hlistener)
      · rw [mem_singleton.mp hitem]
        exact ⟨handle,registrant,hobtains.signalHandle,hmem,mem_append_right _ mem_cons_self,hpool rfl⟩

theorem OutsRegistered.step {ins : List DataSignalIn} {tried done : List DataSignalOut} {item : DataSignalOut}
    (h : OutsRegistered registry answers ins tried done access) (hfresh : FreshHandles registry.access answers)
    (hnew : item.name ∉ tried.map (·.name)) :
    isFailed (item.registerAtSignalRegistry access (answers .sdOutput item.name)).2.2 =
        item.fails registry.access (answers .sdOutput) ∧
      (item.fails registry.access (answers .sdOutput) = false → OutsRegistered registry answers ins (tried ++ [item])
        (done ++ [(item.registerAtSignalRegistry access (answers .sdOutput item.name)).1])
        (item.registerAtSignalRegistry access (answers .sdOutput item.name)).2.1) := by
  obtain ⟨⟨added,hadded⟩,hins,hregistered,hunregistered⟩ := h
  have hkey : (.sdOutput,item.name) ∉ inKeys registry.ins ++ outKeys tried := outKey_new hnew
  obtain ⟨hfails,htried⟩ := hadded.triedOut hfresh fun _ => hkey
  refine ⟨hfails,fun hok => ?_⟩
  generalize item.registerAtSignalRegistry access (answers .sdOutput item.name) = outcome at htried ⊢
  obtain ⟨next,after,res⟩ := outcome
  have hname := htried.name
  have hkeys : item.isSupported = true → inKeys registry.ins ++ outKeys (tried ++ [item]) =
      inKeys registry.ins ++ outKeys tried ++ [(.sdOutput,item.name)] := by
    intro hsupported
    rw [outKeys_append,outKeys_singleton,if_pos hsupported,append_assoc]
  cases htried with
  | unsupported hunsupported =>
    rw [DataSignalOut.fails,hunsupported] at hok
    cases hok
  | unobtained hsupported hacquires =>
    have hmore := hadded.more [(.sdOutput,item.name)]
    rw [← hkeys hsupported] at hmore
    refine ⟨⟨added,hmore⟩,hins,fun signal hsignal hacquired => ?_,fun signal hsignal hmissing => ?_⟩
    · rcases mem_append.mp hsignal with hdone | hitem
      · exact hregistered signal hdone hacquired
      · rw [mem_singleton.mp hitem,hname,hacquires] at hacquired
        cases hacquired
    · rcases mem_append.mp hsignal with hdone | hitem
      · exact hunregistered signal hdone hmissing
      · rw [mem_singleton.mp hitem]
  | @obtained acquired middle handle hsupported hobtains =>
    obtain ⟨hmore,⟨registrant,hmem⟩,hsignals,hlisteners⟩ := hadded.obtains hobtains
    rw [← hkeys hsupported] at hmore
    refine ⟨hmore,fun signal hsignal => ?_,fun signal hsignal hacquired => ?_,fun signal hsignal hmissing => ?_⟩
    · refine (hins signal hsignal).mono hsignals fun listener hlistener => ?_
      rw [hlisteners]
      exact hlistener
    · rcases mem_append.mp hsignal with hdone | hitem
      · exact (hregistered signal hdone hacquired).mono hsignals
      · rw [mem_singleton.mp hitem]
        refine ⟨handle,registrant,hobtains.signalHandle,hmem,fun writer hwriter => ?_⟩
        obtain ⟨created,-,rfl⟩ := mem_map.mp hwriter
        rfl
    · rcases mem_append.mp hsignal with hdone | hitem
      · exact hunregistered signal hdone hmissing
      · rw [mem_singleton.mp hitem,hname,hobtains.acquires] at hmissing
        cases hmissing

/-- What each item leaves when none of the items has failed, the whole loop leaves when none of them fails. -/
theorem untilFailure_registered {α : Type} {register : α → SignalAccess → α × SignalAccess × Result}
    {fails : α → Bool} {name : α → String} {items : List α} (inv : List α → List α → SignalAccess → Prop)
    (hstep : ∀ {tried done access item}, inv tried done access → name item ∉ tried.map name →
      isFailed (register item access).2.2 = fails item ∧
        (fails item = false → inv (tried ++ [item]) (done ++ [(register item access).1]) (register item access).2.1))
    (hnames : (items.map name).Nodup) (hstart : inv [] [] access) :
    isFailed (untilFailure register items access).2.2 = items.any fails ∧
      (items.any fails = false →
        inv items (untilFailure register items access).1 (untilFailure register items access).2.1) := by
  obtain ⟨done,rest,hsplit,⟨htried,hdone⟩,hres⟩ := untilFailure_spec register
    (fun tried done rest access => tried ++ rest = items ∧ (tried.any fails = false → inv tried done access))
    (fun tried done item rest access hfine hinv => by
      obtain ⟨hres,hnext⟩ := hstep (hinv.2 hfine) (name_ne (hinv.1 ▸ hnames)).1
      refine ⟨hres,by rw [append_assoc]; exact hinv.1,fun hmore => hnext ?_⟩
      rw [any_append,or_eq_false_iff,any_cons,or_eq_false_iff] at hmore
      exact hmore.2.1)
    items [] [] access rfl ⟨rfl,fun _ => hstart⟩
  refine ⟨hres,fun hfine => ?_⟩
  rw [nil_append,upToFailure_of_none hfine] at htried hdone
  rw [append_right_eq_self.mp htried,append_nil] at hsplit
  have hregistered := hdone hfine
  rw [nil_append,← hsplit] at hregistered
  exact hregistered

theorem registerIns_spec (hfresh : FreshHandles registry.access answers) (hconsistent : registry.Consistent) :
    isFailed (registry.registerIns answers).2 = registry.insFail answers ∧
      (registry.insFail answers = false → InsRegistered registry answers registry.ins
        (registry.registerIns answers).1.ins (registry.registerIns answers).1.access) :=
  untilFailure_registered (InsRegistered registry answers) (fun h hnew => h.step hfresh hnew) hconsistent.ins
    ⟨⟨[],rfl,(append_nil _).symm,nofun⟩,nofun⟩

theorem registerOuts_spec (hfresh : FreshHandles registry.access answers) (hconsistent : registry.Consistent)
    (hins : registry.insFail answers = false) :
    isFailed ((registry.registerIns answers).1.registerOuts answers).2 = registry.outsFail answers ∧
      (registry.outsFail answers = false → OutsRegistered registry answers (registry.registerIns answers).1.ins
        registry.outs ((registry.registerIns answers).1.registerOuts answers).1.outs
        ((registry.registerIns answers).1.registerOuts answers).1.access) := by
  obtain ⟨⟨added,hadded⟩,hregistered⟩ := (registerIns_spec hfresh hconsistent).2 hins
  exact untilFailure_registered (OutsRegistered registry answers (registry.registerIns answers).1.ins)
    (fun h hnew => h.step hfresh hnew) hconsistent.outs ⟨⟨added,hadded.more _⟩,hregistered,nofun,nofun⟩

end DataRegistryFEP2
end FepParticipant.DataRegistry
