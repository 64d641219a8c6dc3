import Mathlib.Logic.Equiv.List
import FepParticipant.DataRegistry.RegistryBookkeeping
import FepParticipant.DataRegistry.RegistrationRollback

/-! When the registration of all data signals is all or nothing. -/
namespace FepParticipant.DataRegistry
open Library Signals List Bool

namespace DataRegistryFEP2
variable {registry : DataRegistryFEP2} {answers : Answers}
variable {res : Result}

theorem unregistered_iff : registry.Unregistered ↔
    registry.ins.map DataSignalIn.blank = registry.ins.map DataSignalIn.registration ∧
    registry.outs.map DataSignalOut.blank = registry.outs.map DataSignalOut.registration := by
  have hins : ∀ signal : DataSignalIn, signal.blank = signal.registration ↔
      signal.signalHandle = none ∧ signal.samplePool = [] := by
    intro signal
    rw [DataSignalIn.blank,DataSignalIn.registration,Prod.mk.injEq,Prod.mk.injEq,Prod.mk.injEq,
      eq_comm (b := signal.signalHandle),eq_comm (b := signal.samplePool)]
    tauto
  have houts : ∀ signal : DataSignalOut, signal.blank = signal.registration ↔ signal.signalHandle = none ∧
      ∀ writer ∈ signal.createdWriters, writer.markedForDeletion = false → writer.signalHandle = none := by
    intro signal
    rw [DataSignalOut.blank,DataSignalOut.registration,Prod.mk.injEq,Prod.mk.injEq,eq_comm (b := signal.signalHandle)]
    constructor
    · rintro ⟨-,hhandle,hwriters⟩
      refine ⟨hhandle,fun writer hwriter hunmarked => ?_⟩
      have hmem : writer ∈ signal.createdWriters.filter fun writer => !writer.markedForDeletion :=
        mem_filter.mpr ⟨hwriter,by rw [hunmarked]; rfl⟩
      rw [← hwriters] at hmem
      obtain ⟨created,-,rfl⟩ := mem_map.mp hmem
      rfl
    · rintro ⟨hhandle,hwriters⟩
      refine ⟨rfl,hhandle,?_⟩
      have hdeinit : ∀ writer ∈ signal.createdWriters.filter fun writer => !writer.markedForDeletion,
          writer.deinit = id writer := by
        intro writer hwriter
        obtain ⟨hmem,hunmarked⟩ := mem_filter.mp hwriter
        rw [not_eq_true'] at hunmarked
        rw [DataWriter.deinit,← hwriters writer hmem hunmarked]
        rfl
      exact (map_congr_left hdeinit).trans (map_id _)
  constructor
  · intro h
    exact ⟨map_inj_left.mpr fun signal hsignal => (hins signal).mpr (h.ins signal hsignal),
      map_inj_left.mpr fun signal hsignal => (houts signal).mpr (h.outs signal hsignal)⟩
  · rintro ⟨hblankIns,hblankOuts⟩
    exact ⟨fun signal hsignal => (hins signal).mp (map_inj_left.mp hblankIns signal hsignal),
      fun signal hsignal => (houts signal).mp (map_inj_left.mp hblankOuts signal hsignal)⟩

theorem failed_iff {mid : DataRegistryFEP2} (hfailed : isFailed res = true)
    (hins : mid.ins.map DataSignalIn.blank = registry.ins.map DataSignalIn.blank)
    (houts : mid.outs.map DataSignalOut.blank = registry.outs.map DataSignalOut.blank)
    (haccess : registry.Unregistered →
      (mid.unregisterFromSignalRegistry answers).access.listeners.Perm registry.access.listeners ∧
      ((mid.unregisterFromSignalRegistry answers).access.signals = registry.access.signals ↔
        registry.Undoable answers)) :
    registry.AllOrNothing (mid.unregisterFromSignalRegistry answers) res ↔
      registry.Unregistered ∧ registry.Undoable answers := by
  have hnotOk : ¬isOk res = true := by
    rw [isFailed,not_eq_true'] at hfailed
    rw [hfailed]
    decide
  have hblankIns := (unregistered_ins answers).trans hins
  have hblankOuts := (unregistered_outs answers).trans houts
  constructor
  · intro h
    have hunregistered : registry.Unregistered :=
      unregistered_iff.mpr ⟨hblankIns.symm.trans (h.ins hfailed),hblankOuts.symm.trans (h.outs hfailed)⟩
    exact ⟨hunregistered,(haccess hunregistered).2.mp (h.signals hfailed)⟩
  · rintro ⟨hunregistered,hundoable⟩
    obtain ⟨hlisteners,hsignals⟩ := haccess hunregistered
    obtain ⟨hsameIns,hsameOuts⟩ := unregistered_iff.mp hunregistered
    exact ⟨fun _ => hsignals.mpr hundoable,fun _ => hlisteners,fun _ => hblankIns.trans hsameIns,
      fun _ => hblankOuts.trans hsameOuts,fun hok => absurd hok hnotOk,fun hok => absurd hok hnotOk⟩

theorem forall_inKeys (holds : SignalDirection → String → Prop) {ins : List DataSignalIn} :
    (∀ key ∈ inKeys ins, holds key.1 key.2) ↔ ∀ signal ∈ ins, signal.isSupported = true →
    holds .sdInput signal.name := forall_keysOf holds

theorem forall_outKeys (holds : SignalDirection → String → Prop) {outs : List DataSignalOut} :
    (∀ key ∈ outKeys outs, holds key.1 key.2) ↔
      ∀ signal ∈ outs, signal.isSupported = true → holds .sdOutput signal.name := forall_keysOf holds

def Revocable (registry : DataRegistryFEP2) (answers : Answers) (direction : SignalDirection) (name : String) :
    Prop :=
  registry.access.registersNew direction name (answers direction name) = true →
    isOk (answers direction name).unregistering = true

section
variable (hfresh : FreshHandles registry.access answers)
include hfresh

section
variable (hconsistent : registry.Consistent)
include hconsistent

theorem insFailed_iff (hfails : registry.insFail answers = true) {res : Result} (hfailed : isFailed res = true) :
    registry.AllOrNothing ((registry.registerIns answers).1.unregisterFromSignalRegistry answers) res ↔
      registry.Unregistered ∧ registry.Undoable answers := by
  have hins := blank_registerIns registry answers
  apply failed_iff hfailed hins rfl
  intro hunregistered
  obtain ⟨done,rest,hsplit,hdone⟩ := registerIns_registering hfresh hconsistent hunregistered
  obtain ⟨added,hadded⟩ := hdone.signals
  have hlisteners := hdone.listeners
  rw [← hsplit] at hadded hlisteners
  refine ⟨rolledBack_listeners hadded hlisteners hfresh (names_eq hins ▸ hconsistent.ins),
    (rolledBack_signals hadded hfresh).trans ((forall_inKeys (Revocable registry answers)).trans ?_)⟩
  constructor
  · intro h
    exact ⟨h,fun hfine => absurd (hfine.symm.trans hfails) (by decide)⟩
  · intro h
    exact h.ins

theorem outsFailed_iff (hfine : registry.insFail answers = false) (hfailed : isFailed res = true) :
    registry.AllOrNothing
        (((registry.registerIns answers).1.registerOuts answers).1.unregisterFromSignalRegistry answers) res ↔
      registry.Unregistered ∧ registry.Undoable answers := by
  have hins : ((registry.registerIns answers).1.registerOuts answers).1.ins.map DataSignalIn.blank =
      registry.ins.map DataSignalIn.blank := blank_registerIns registry answers
  have houts := blank_registerOuts (registry.registerIns answers).1 answers
  apply failed_iff hfailed hins houts
  intro hunregistered
  obtain ⟨done,rest,hsplit,hdone⟩ := registerOuts_registering hfresh hconsistent hunregistered hfine
  obtain ⟨added,hadded⟩ := hdone.signals
  rw [← hsplit] at hadded
  have hrevoked := @rolledBack_signals ((registry.registerIns answers).1.registerOuts answers).1 answers _ _ _ hadded
    hfresh
  refine ⟨@rolledBack_listeners ((registry.registerIns answers).1.registerOuts answers).1 answers _ _ _ hadded
    hdone.listeners hfresh (names_eq hins ▸ hconsistent.ins),hrevoked.trans (forall_mem_append.trans ((and_congr
    (forall_inKeys (Revocable registry answers)) (forall_outKeys (Revocable registry answers))).trans ?_))⟩
  constructor
  · rintro ⟨hinKeys,houtKeys⟩
    refine ⟨?_,fun _ => houtKeys⟩
    rw [upToFailure_of_none hfine]
    exact hinKeys
  · rintro ⟨hinKeys,houtKeys⟩
    rw [upToFailure_of_none hfine] at hinKeys
    exact ⟨hinKeys,houtKeys hfine⟩

theorem registerSignals_allOrNothing_iff :
    registry.AllOrNothing (registry.registerSignals answers).1 (registry.registerSignals answers).2 ↔
      registry.Registrable answers := by
  obtain ⟨hinRes,hinRegistered⟩ := registerIns_spec hfresh hconsistent
  rw [registerSignals]
  cases hins : registry.insFail answers with
  | true =>
    rw [hins] at hinRes
    dsimp only
    rw [if_pos hinRes,insFailed_iff hfresh hconsistent hins hinRes]
    constructor
    · intro h
      exact ⟨fun _ => h,fun hfine => absurd (hfine.symm.trans hins) (by decide)⟩
    · intro h
      exact h.failure (.inl hins)
  | false =>
    obtain ⟨houtRes,houtRegistered⟩ := registerOuts_spec hfresh hconsistent hins
    rw [hins] at hinRes
    dsimp only
    rw [if_neg (ne_true_of_eq_false hinRes)]
    cases houts : registry.outsFail answers with
    | true =>
      rw [houts] at houtRes
      rw [if_pos houtRes,outsFailed_iff hfresh hconsistent hins houtRes]
      constructor
      · intro h
        exact ⟨fun _ => h,fun _ hfine => absurd (hfine.symm.trans houts) (by decide)⟩
      · intro h
        exact h.failure (.inr houts)
    | false =>
      rw [houts] at houtRes
      rw [if_neg (ne_true_of_eq_false houtRes)]
      have hnames := outNames_eq (blank_registerOuts (registry.registerIns answers).1 answers)
      have hall := houtRegistered houts
      constructor
      · intro h
        refine ⟨fun hfails => ?_,fun _ _ signal hsignal => ?_⟩
        · rcases hfails with hfails | hfails
          · exact absurd (hins.symm.trans hfails) (by decide)
          · exact absurd (houts.symm.trans hfails) (by decide)
        · have hname : signal.name ∈ (registry.registerIns answers).1.outs.map (·.name) := mem_map_of_mem hsignal
          rw [← hnames] at hname
          obtain ⟨after,hafter,hsame⟩ := mem_map.mp hname
          by_contra hmissing
          rw [not_eq_true,← hsame] at hmissing
          obtain ⟨handle,registrant,hhandle,-⟩ := h.registeredOuts rfl after hafter
          rw [hall.unregistered after hafter hmissing] at hhandle
          cases hhandle
      · intro h
        refine ⟨by rintro ⟨⟩,by rintro ⟨⟩,by rintro ⟨⟩,by rintro ⟨⟩,fun _ => hall.ins,fun _ signal hsignal => ?_⟩
        have hname : signal.name ∈ ((registry.registerIns answers).1.registerOuts answers).1.outs.map (·.name) :=
          mem_map_of_mem hsignal
        rw [hnames] at hname
        obtain ⟨before,hbefore,hsame⟩ := mem_map.mp hname
        apply hall.registered signal hsignal
        rw [← hsame]
        exact h.success hins houts before hbefore

end

end

def undescribed (registry : DataRegistryFEP2) : DataRegistryFEP2 :=
  { registry with
    ins := registry.ins.map fun signal => {signal with toDataSignal := signal.toDataSignal.forget}
    outs := registry.outs.map fun signal => {signal with toDataSignal := signal.toDataSignal.forget} }

private theorem upToFailure_map {α β : Type} {change : α → β} {fails : β → Bool} (items : List α) :
    upToFailure fails (items.map change) = (upToFailure (fails ∘ change) items).map change := by
  induction items with
  | nil => rfl
  | cons item items ih =>
    rw [map_cons,upToFailure,upToFailure,ih,Function.comp_apply]
    split <;> rfl

theorem insFail_undescribed : registry.undescribed.insFail answers = registry.insFail answers := by
  rw [insFail,insFail,undescribed,any_map]
  rfl

theorem outsFail_undescribed : registry.undescribed.outsFail answers = registry.outsFail answers := by
  rw [outsFail,outsFail,undescribed,any_map]
  rfl

theorem unregistered_undescribed : registry.undescribed.Unregistered ↔ registry.Unregistered := by
  constructor
  · rintro ⟨hins,houts⟩
    exact ⟨forall_mem_map.mp hins,forall_mem_map.mp houts⟩
  · rintro ⟨hins,houts⟩
    exact ⟨forall_mem_map.mpr hins,forall_mem_map.mpr houts⟩

private theorem undoable_undescribed : registry.undescribed.Undoable answers ↔ registry.Undoable answers := by
  have hins : upToFailure (DataSignalIn.fails registry.undescribed.access (answers .sdInput)) registry.undescribed.ins =
      (upToFailure (DataSignalIn.fails registry.access (answers .sdInput)) registry.ins).map fun signal =>
        {signal with toDataSignal := signal.toDataSignal.forget} := upToFailure_map registry.ins
  have houts : upToFailure (DataSignalOut.fails registry.undescribed.access (answers .sdOutput))
      registry.undescribed.outs =
      (upToFailure (DataSignalOut.fails registry.access (answers .sdOutput)) registry.outs).map fun signal =>
        {signal with toDataSignal := signal.toDataSignal.forget} := upToFailure_map registry.outs
  constructor
  · rintro ⟨hundoIns,hundoOuts⟩
    rw [hins] at hundoIns
    rw [houts,insFail_undescribed] at hundoOuts
    exact ⟨forall_mem_map.mp hundoIns,fun hfine => forall_mem_map.mp (hundoOuts hfine)⟩
  · rintro ⟨hundoIns,hundoOuts⟩
    refine ⟨?_,?_⟩
    · rw [hins]
      exact forall_mem_map.mpr hundoIns
    · rw [houts,insFail_undescribed]
      exact fun hfine => forall_mem_map.mpr (hundoOuts hfine)

theorem registrable_undescribed : registry.undescribed.Registrable answers ↔ registry.Registrable answers := by
  constructor
  · rintro ⟨hfailure,hsuccess⟩
    rw [insFail_undescribed,outsFail_undescribed,unregistered_undescribed,undoable_undescribed] at hfailure
    rw [insFail_undescribed,outsFail_undescribed] at hsuccess
    exact ⟨hfailure,fun hins houts => forall_mem_map.mp (hsuccess hins houts)⟩
  · rintro ⟨hfailure,hsuccess⟩
    refine ⟨?_,?_⟩
    · rw [insFail_undescribed,outsFail_undescribed,unregistered_undescribed,undoable_undescribed]
      exact hfailure
    · rw [insFail_undescribed,outsFail_undescribed]
      exact fun hins houts => forall_mem_map.mpr (hsuccess hins houts)

theorem allOrNothing_undescribed {after : DataRegistryFEP2} :
    registry.undescribed.AllOrNothing after res ↔ registry.AllOrNothing after res := by
  have hins : registry.undescribed.ins.map DataSignalIn.registration =
      registry.ins.map DataSignalIn.registration := map_map
  have houts : registry.undescribed.outs.map DataSignalOut.registration =
      registry.outs.map DataSignalOut.registration := map_map
  constructor
  · intro h
    exact ⟨h.signals,h.listeners,hins ▸ h.ins,houts ▸ h.outs,h.registeredIns,h.registeredOuts⟩
  · intro h
    exact ⟨h.signals,h.listeners,hins ▸ h.ins,houts ▸ h.outs,h.registeredIns,h.registeredOuts⟩

theorem registerInDescriptions_undescribed (registry : DataRegistryFEP2) (answers : Answers) :
    (registry.registerInDescriptions answers).1.undescribed = registry.undescribed := by
  rw [undescribed,undescribed,registerInDescriptions]
  congr 1
  apply map_untilFailure
  intro signal state
  rw [forget_registerDescription]

private theorem registerOutDescriptions_undescribed (registry : DataRegistryFEP2) (answers : Answers) :
    (registry.registerOutDescriptions answers).1.undescribed = registry.undescribed := by
  rw [undescribed,undescribed,registerOutDescriptions]
  congr 1
  apply map_untilFailure
  intro signal state
  rw [forget_registerDescription]

private theorem isFailed_untilFailure {α : Type} (register : α → Unit → α × Unit × Result) (items : List α) :
    isFailed (untilFailure register items ()).2.2 = items.any fun item => isFailed (register item ()).2.2 :=
  (untilFailure_spec register (fun _ _ _ _ => True) (fun _ _ _ _ _ _ _ => ⟨rfl,trivial⟩) items [] [] () rfl
    trivial).choose_spec.choose_spec.2.2

private theorem described_allOrNothing {described : DataRegistryFEP2} (hfailed : isFailed res = true)
    (hsame : described.undescribed = registry.undescribed) : registry.AllOrNothing described res := by
  have hnotOk : ¬isOk res = true := by
    rw [isFailed,not_eq_true'] at hfailed
    rw [hfailed]
    decide
  rw [← allOrNothing_undescribed,← hsame,allOrNothing_undescribed]
  exact ⟨fun _ => rfl,fun _ => .refl _,fun _ => rfl,fun _ => rfl,fun hok => absurd hok hnotOk,
    fun hok => absurd hok hnotOk⟩

theorem ready_iff_of_consistent (hconsistent : registry.Consistent) (hnew : NewHandles registry.access answers) :
    registry.AllOrNothing (registry.ready answers).1 (registry.ready answers).2 ↔
      registry.DescriptionFails answers ∨ registry.Registrable answers := by
  have hinRes := isFailed_untilFailure (fun (signal : DataSignalIn) (_ : Unit) =>
    ({signal with toDataSignal := (registerDescription (answers .sdInput) signal.toDataSignal).1},(),
      (registerDescription (answers .sdInput) signal.toDataSignal).2)) registry.ins
  have houtRes := isFailed_untilFailure (fun (signal : DataSignalOut) (_ : Unit) =>
    ({signal with toDataSignal := (registerDescription (answers .sdOutput) signal.toDataSignal).1},(),
      (registerDescription (answers .sdOutput) signal.toDataSignal).2)) registry.outs
  have hin := registerInDescriptions_undescribed registry answers
  have hout := (registerOutDescriptions_undescribed (registry.registerInDescriptions answers).1 answers).trans hin
  rw [ready]
  dsimp only
  split
  · rename_i hfailed
    refine iff_of_true (described_allOrNothing hfailed hin) (.inl (.inl ?_))
    exact any_eq_true.mp (hinRes.symm.trans hfailed)
  · rename_i hinFine
    split
    · rename_i hfailed
      refine iff_of_true (described_allOrNothing hfailed hout) (.inl (.inr ?_))
      exact any_eq_true.mp (houtRes.symm.trans hfailed)
    · rename_i houtFine
      have hdescribed : ¬registry.DescriptionFails answers := by
        rintro (⟨signal,hsignal,hfails⟩ | ⟨signal,hsignal,hfails⟩)
        · exact hinFine (hinRes.trans (any_eq_true.mpr ⟨signal,hsignal,hfails⟩))
        · exact houtFine (houtRes.trans (any_eq_true.mpr ⟨signal,hsignal,hfails⟩))
      rw [or_iff_right hdescribed,← allOrNothing_undescribed,← hout,allOrNothing_undescribed,
        ← registrable_undescribed,← hout,registrable_undescribed]
      have hconsistent := (hconsistent.registerInDescriptions answers).registerOutDescriptions answers
      exact registerSignals_allOrNothing_iff (hconsistent.freshHandles hnew) hconsistent

/-- In every state, `ready` is all or nothing exactly if a description fails or the data signals are registrable. -/
theorem ready_allOrNothing_iff (h : Reaches step anyAction new registry) (hnew : NewHandles registry.access answers) :
    registry.AllOrNothing (registry.ready answers).1 (registry.ready answers).2 ↔
      registry.DescriptionFails answers ∨ registry.Registrable answers :=
  ready_iff_of_consistent (.of_reaches h) hnew

def handleOf (direction : SignalDirection) (name : String) : Nat :=
  Encodable.encode ((direction == .sdInput,direction == .sdOutput),name.toList.map Char.toNat)

private theorem handleOf_injective {direction direction' : SignalDirection} {name name' : String}
    (h : handleOf direction name = handleOf direction' name') : direction = direction' ∧ name = name' := by
  obtain ⟨hdirection,hname⟩ := Prod.mk.inj (Encodable.encode_injective h)
  refine ⟨?_,String.toList_injective (map_injective_iff.mpr (fun _ _ => Char.toNat_inj.mp) hname)⟩
  cases direction <;> cases direction' <;> first | rfl | cases hdirection

def refusing (registering listening : Result) : Answers := fun direction name =>
  ⟨.errNoError,.errNoError,registering,handleOf direction name,listening,.errNoError,.errNoError⟩

theorem newHandles_refusing {access : SignalAccess} (h : access.signals = []) (registering listening : Result) :
    NewHandles access (refusing registering listening) where
  unused := by
    intro direction name hmem
    rw [h] at hmem
    cases hmem
  distinct := fun _ _ _ _ => handleOf_injective

def reading : DataRegistryFEP2 := ⟨[⟨.new "s" streamTypeRaw,0,[],[⟨1,2,0,false⟩],[]⟩],[],⟨true,[],[]⟩,2⟩

def writing : DataRegistryFEP2 := ⟨[],[⟨.new "t" streamTypeRaw,[⟨0,none,0,none,false⟩]⟩],⟨true,[],[]⟩,1⟩

theorem ready_allOrNothing_listener_refused : Reaches step anyAction new reading ∧
    reading.AllOrNothing (reading.ready (refusing .errNoError .errFailed)).1
      (reading.ready (refusing .errNoError .errFailed)).2 := by
  have hrun : runActions step new [.call (.registerDataIn "s" streamTypeRaw),.call (.getReader "s" 2 0)] =
      some reading := by decide +kernel
  have hreach := reaches_of_runActions hrun
  refine ⟨hreach,(ready_allOrNothing_iff hreach (newHandles_refusing rfl _ _)).mpr
    (.inr ⟨fun _ => ⟨⟨?_,nofun⟩,?_⟩,?_⟩)⟩
  · exact forall_mem_singleton.mpr ⟨rfl,rfl⟩
  · exact ⟨fun _ _ _ _ => rfl,fun _ => nofun⟩
  · exact fun _ _ => nofun

/-- The registration of a signal is refused, and its writer hides it: `ready` succeeds, and nothing is registered. -/
theorem ready_not_allOrNothing : ¬∀ (registry : DataRegistryFEP2) (answers : Answers),
    Reaches step anyAction new registry → NewHandles registry.access answers →
      registry.AllOrNothing (registry.ready answers).1 (registry.ready answers).2 := by
  intro h
  have hrun : runActions step new [.call (.registerDataOut "t" streamTypeRaw),.call (.getWriter "t" none 0)] =
      some writing := by decide +kernel
  have hall := h writing (refusing .errFailed .errNoError) (reaches_of_runActions hrun) (newHandles_refusing rfl _ _)
  have hok : isOk (writing.ready (refusing .errFailed .errNoError)).2 = true := by decide +kernel
  have hunregistered : (writing.ready (refusing .errFailed .errNoError)).1.outs.any
      (fun signal => signal.signalHandle == none) = true := by decide +kernel
  obtain ⟨signal,hsignal,hnone⟩ := any_eq_true.mp hunregistered
  obtain ⟨handle,registrant,hhandle,-⟩ := hall.registeredOuts hok signal hsignal
  rw [hhandle] at hnone
  cases hnone

end DataRegistryFEP2
end FepParticipant.DataRegistry
