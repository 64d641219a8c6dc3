import FepParticipant.DataRegistry.SignalOwnership

/-! The data registry over its life cycle: its listeners are its data signals that hold a handle, and it leaves no
signal of its own behind. -/
namespace FepParticipant.DataRegistry
open Library Signals List Option

def DataSignalIn.entry (signal : DataSignalIn) : Nat × Holder := (signal.object,signal.toDataSignal.holder .sdInput)

def DataSignalOut.entry (signal : DataSignalOut) : Holder := signal.toDataSignal.holder .sdOutput

structure Booked (ins : List (Nat × Holder)) (outs : List Holder) (access : SignalAccess) : Prop where
  owned : Owned (ins.map Prod.snd ++ outs) access.signals
  objects : (ins.map Prod.fst).Nodup
  listening : access.listeners.Nodup
  live : ∀ object handle, (object,handle) ∈ access.listeners ↔
    ∃ holder, (object,holder) ∈ ins ∧ holder.signalHandle = some handle

namespace Booked
variable {ins ins' : List (Nat × Holder)} {outs outs' : List Holder} {access next : SignalAccess}
variable {object : Nat}

theorem perm (h : Booked ins outs access) (hins : ins.Perm ins') (houts : outs.Perm outs') :
    Booked ins' outs' access := by
  refine ⟨h.owned.perm ((hins.map _).append houts),(hins.map _).nodup_iff.mp h.objects,h.listening,?_⟩
  intro object handle
  simp only [h.live,hins.mem_iff]

variable {holder : Holder}

theorem listener_holder {object : Nat} (h : Booked ((object,holder)::ins) outs access)
    {handle : Nat} (hlistener : (object,handle) ∈ access.listeners) : holder.signalHandle = some handle := by
  obtain ⟨found,hmem,hheld⟩ := (h.live object handle).mp hlistener
  rcases mem_cons.mp hmem with heq | hmem
  · rw [← (Prod.mk.inj heq).2]
    exact hheld
  · exact absurd (mem_map_of_mem hmem) (nodup_cons.mp h.objects).1

theorem listener_eq (h : Booked ((object,holder)::ins) outs access)
    {handle : Nat} (hhandle : holder.signalHandle = some handle) {listener : Nat × Nat}
    (hlistener : listener ∈ access.listeners) (hsame : listener.2 = handle) : listener = (object,handle) := by
  obtain ⟨found,hmem,hheld⟩ := (h.live listener.1 listener.2).mp hlistener
  rcases mem_cons.mp hmem with heq | hmem
  · exact Prod.ext (Prod.mk.inj heq).1 hsame
  · have hother : found ∈ ins.map Prod.snd ++ outs := mem_append_left _ (mem_map_of_mem hmem)
    exact absurd (hsame ▸ hheld) (h.owned.handle_ne hhandle hother)

theorem replaceIn {object : Nat} {other : Holder} (h : Booked ((object,holder)::ins) outs access)
    (howned : Owned (other::(ins.map Prod.snd ++ outs)) next.signals) (hnodup : next.listeners.Nodup)
    (hothers : ∀ listener, listener.1 ≠ object → (listener ∈ next.listeners ↔ listener ∈ access.listeners))
    (hself : ∀ handle, (object,handle) ∈ next.listeners ↔ other.signalHandle = some handle) :
    Booked ((object,other)::ins) outs next := by
  refine ⟨howned,h.objects,hnodup,fun listener handle => ?_⟩
  have hfirst := (nodup_cons.mp h.objects).1
  by_cases hlistener : listener = object
  · subst hlistener
    rw [hself]
    constructor
    · intro hhandle
      exact ⟨other,mem_cons_self,hhandle⟩
    · rintro ⟨found,hmem,hhandle⟩
      rcases mem_cons.mp hmem with heq | hmem
      · rw [← (Prod.mk.inj heq).2]
        exact hhandle
      · exact absurd (mem_map_of_mem hmem) hfirst
  · rw [hothers _ hlistener,h.live]
    simp only [mem_cons,Prod.mk.injEq,hlistener,false_and,false_or]

/-- A data signal that listens to nothing is replaced by another one without a handle. -/
theorem replaceUnheld {other : Holder} (h : Booked ((object,holder)::ins) outs access)
    (howned : Owned (other::(ins.map Prod.snd ++ outs)) next.signals)
    (hlisteners : next.listeners = access.listeners) (hunheld : holder.signalHandle = none)
    (hnone : other.signalHandle = none) : Booked ((object,other)::ins) outs next := by
  refine h.replaceIn howned (hlisteners ▸ h.listening) (fun listener _ => by rw [hlisteners]) fun handle => ?_
  rw [hlisteners,hnone]
  refine iff_of_false (fun hlistener => ?_) (some_ne_none handle).symm
  have hheld := h.listener_holder hlistener
  rw [hunheld] at hheld
  cases hheld

theorem replaceOut {other : Holder} (h : Booked ins (holder::outs) access)
    (howned : Owned (other::(ins.map Prod.snd ++ outs)) next.signals)
    (hlisteners : next.listeners = access.listeners) : Booked ins (other::outs) next := by
  refine ⟨howned.perm perm_middle.symm,h.objects,hlisteners ▸ h.listening,?_⟩
  rw [hlisteners]
  exact h.live

theorem owned_in (h : Booked ((object,holder)::ins) outs access) :
    Owned (holder::(ins.map Prod.snd ++ outs)) access.signals := h.owned

theorem owned_out (h : Booked ins (holder::outs) access) :
    Owned (holder::(ins.map Prod.snd ++ outs)) access.signals := h.owned.perm perm_middle

end Booked

structure Moved (name : String) (access : SignalAccess) (answers : SignalAnswers) (next : DataSignal)
    (after : SignalAccess) : Prop where
  keeps : access.KeepsOthers after
  name : next.name = name
  release : next.CanRelease after answers

namespace DataSignalIn
variable {signal : DataSignalIn} {ins : List (Nat × Holder)} {outs : List Holder} {access : SignalAccess}
  {answers : SignalAnswers}

theorem initPool_fst (signal : DataSignalIn) (answer : Result) :
    ∃ samplePool, (signal.initPool answer).1 = {signal with samplePool := samplePool} := by
  rw [initPool]
  split
  · split <;> exact ⟨_,rfl⟩
  · exact ⟨_,rfl⟩

private theorem listen_object (handle : Nat) : (signal.listen handle access answers).1.object = signal.object := by
  rw [listen]
  dsimp only
  split
  · rfl
  · obtain ⟨samplePool,hpool⟩ := initPool_fst signal answers.sample
    rw [hpool]

theorem registerAtSignalRegistry_object (signal : DataSignalIn) (access : SignalAccess) (answers : SignalAnswers) :
    (signal.registerAtSignalRegistry access answers).1.object = signal.object := by
  rw [registerAtSignalRegistry]
  split
  · rfl
  · dsimp only
    split
    · rfl
    · rw [listen_object]

section
variable (h : Booked (signal.entry::ins) outs access)
include h

theorem listen_spec (hnone : signal.signalHandle = none)
    (hok : isOk answers.unregistering = true) {acquired : DataSignal} {middle : SignalAccess} {handle : Nat}
    (hacquired : signal.toDataSignal.Acquired .sdInput (ins.map Prod.snd ++ outs) access acquired middle)
    (hhandle : acquired.signalHandle = some handle) :
    let registered := {signal with toDataSignal := acquired}.listen handle middle answers
    Booked (registered.1.entry::ins) outs registered.2.1 ∧
      Moved signal.name access answers registered.1.toDataSignal registered.2.1 := by
  have hnotListening : ∀ other, (signal.object,other) ∉ middle.listeners := by
    intro other hlistener
    rw [hacquired.listeners] at hlistener
    have hheld : signal.signalHandle = some other := h.listener_holder hlistener
    rw [hnone] at hheld
    cases hheld
  have hcan : acquired.CanRelease middle answers := fun hsome hmine =>
    ⟨hacquired.keeps.allowed.trans (hacquired.allowed hsome hmine),hok⟩
  rw [listen,SignalAccess.registerDataListener]
  by_cases hfailed : isFailed answers.listening = true
  · rw [if_pos hfailed]
    simp only [hfailed,if_true]
    obtain ⟨howned,hkeeps,hreleased,hname,hlisteners⟩ := acquired.releaseHandle_spec hacquired.owned hcan
    have hsame : (acquired.releaseHandle middle answers).2.listeners = access.listeners := by
      rw [hlisteners ?_,hacquired.listeners]
      -- nobody listens to the handle: the data signal does not, and no other one holds it
      intro other hother listener hlistener hlistens
      rw [hacquired.listeners] at hlistener
      obtain ⟨found,hmem,hheld⟩ := (h.live listener.1 listener.2).mp hlistener
      rcases mem_cons.mp hmem with heq | hmem
      · rw [(Prod.mk.inj heq).2] at hheld
        exact absurd (hnone.symm.trans hheld) (some_ne_none _).symm
      · exact hacquired.owned.handle_ne hother (mem_append_left _ (mem_map_of_mem hmem)) (hlistens ▸ hheld)
    exact ⟨h.replaceUnheld howned hsame hnone hreleased,hacquired.keeps.trans hkeeps,hname.trans hacquired.name,
      fun hsome => absurd hreleased hsome⟩
  · rw [if_neg hfailed]
    simp only [show isFailed .errNoError = false from rfl,Bool.false_eq_true,if_false]
    obtain ⟨samplePool,hpool⟩ := initPool_fst {signal with toDataSignal := acquired} answers.sample
    rw [hpool]
    refine ⟨h.replaceIn hacquired.owned ?_ ?_ ?_,hacquired.keeps.trans ⟨fun _ hmem _ => hmem,rfl⟩,hacquired.name,hcan⟩
    · refine (hacquired.listeners ▸ h.listening : middle.listeners.Nodup).append (nodup_singleton _) ?_
      rw [disjoint_singleton]
      exact hnotListening handle
    · intro listener hother
      have hne : listener ≠ (signal.object,handle) := fun heq => hother (congrArg Prod.fst heq)
      simp only [mem_append,mem_singleton,hne,or_false,hacquired.listeners]
    · intro other
      simp only [mem_append,hnotListening,false_or,mem_singleton,Prod.mk.injEq,true_and]
      rw [show (DataSignal.holder acquired .sdInput).signalHandle = some handle from hhandle,some.injEq,eq_comm]

theorem registerAtSignalRegistry_spec (hnone : signal.signalHandle = none) (hok : isOk answers.unregistering = true) :
    Booked ((signal.registerAtSignalRegistry access answers).1.entry::ins) outs
        (signal.registerAtSignalRegistry access answers).2.1 ∧
      Moved signal.name access answers (signal.registerAtSignalRegistry access answers).1.toDataSignal
        (signal.registerAtSignalRegistry access answers).2.1 := by
  rw [registerAtSignalRegistry]
  split
  · exact ⟨h,.refl _,rfl,fun hsome => absurd hnone hsome⟩
  · have hacquired := signal.toDataSignal.acquireHandle_spec h.owned_in (fun hsome => absurd hnone hsome) answers
    generalize signal.toDataSignal.acquireHandle .sdInput access answers = acquiring at hacquired ⊢
    obtain ⟨acquired,middle,res⟩ := acquiring
    dsimp only at hacquired ⊢
    split
    · rename_i hfree
      exact ⟨h.replaceUnheld hacquired.owned hacquired.listeners hnone hfree,hacquired.keeps,hacquired.name,
        fun hsome => absurd hfree hsome⟩
    · rename_i handle hhandle
      exact listen_spec h hnone hok hacquired hhandle

theorem unregisterFromSignalRegistry_spec (hcan : signal.CanRelease access answers) :
    Booked ((signal.unregisterFromSignalRegistry access answers).1.entry::ins) outs
        (signal.unregisterFromSignalRegistry access answers).2 ∧
      Moved signal.name access answers (signal.unregisterFromSignalRegistry access answers).1.toDataSignal
        (signal.unregisterFromSignalRegistry access answers).2 ∧
      (signal.unregisterFromSignalRegistry access answers).1.signalHandle = none := by
  rw [unregisterFromSignalRegistry]
  cases hhandle : signal.signalHandle with
  | none =>
    obtain ⟨howned,hkeeps,hreleased,hname,hlisteners⟩ := signal.toDataSignal.releaseHandle_spec h.owned_in hcan
    have hsame := hlisteners fun handle hsome => by rw [hhandle] at hsome; cases hsome
    exact ⟨h.replaceUnheld howned hsame hhandle hreleased,⟨hkeeps,hname,fun hsome => absurd hreleased hsome⟩,hreleased⟩
  | some handle =>
    have hunlisten : (access.unregisterDataListener signal.object handle).listeners =
        access.listeners.erase (signal.object,handle) := rfl
    obtain ⟨howned,hkeeps,hreleased,hname,hlisteners⟩ := signal.toDataSignal.releaseHandle_spec
      (show Owned _ (access.unregisterDataListener signal.object handle).signals from h.owned_in)
      (show signal.CanRelease (access.unregisterDataListener signal.object handle) answers from hcan)
    have hsame := hlisteners fun other hsome listener hlistener heq => by
      rw [hhandle,some.injEq] at hsome
      rw [hunlisten,h.listening.mem_erase_iff] at hlistener
      exact hlistener.1 (h.listener_eq hhandle hlistener.2 (heq.trans hsome.symm))
    rw [hunlisten] at hsame
    have hthrough : access.KeepsOthers (access.unregisterDataListener signal.object handle) :=
      ⟨fun _ hmem _ => hmem,rfl⟩
    refine ⟨h.replaceIn howned (hsame ▸ h.listening.erase _) ?_ ?_,
      ⟨hthrough.trans hkeeps,hname,fun hsome => absurd hreleased hsome⟩,hreleased⟩
    · intro listener hother
      rw [hsame,h.listening.mem_erase_iff]
      exact and_iff_right fun heq => hother (congrArg Prod.fst heq)
    · intro other
      rw [hsame,h.listening.mem_erase_iff,show (DataSignal.holder _ _).signalHandle = none from hreleased]
      refine iff_of_false ?_ (some_ne_none _).symm
      rintro ⟨hne,hlistener⟩
      have hheld : signal.signalHandle = some other := h.listener_holder hlistener
      rw [hhandle,some.injEq] at hheld
      exact hne (by rw [hheld])

end

end DataSignalIn

namespace DataSignalOut
variable {signal : DataSignalOut} {ins : List (Nat × Holder)} {outs : List Holder} {access : SignalAccess}
  {answers : SignalAnswers}

theorem registerAtSignalRegistry_spec (h : Booked ins (signal.entry::outs) access)
    (hforeign : signal.signalHandle ≠ none → signal.itsMySignalHandle = false)
    (hok : isOk answers.unregistering = true) :
    Booked ins ((signal.registerAtSignalRegistry access answers).1.entry::outs)
        (signal.registerAtSignalRegistry access answers).2.1 ∧
      Moved signal.name access answers (signal.registerAtSignalRegistry access answers).1.toDataSignal
        (signal.registerAtSignalRegistry access answers).2.1 := by
  rw [registerAtSignalRegistry]
  split
  · refine ⟨h,.refl _,rfl,fun hsome hmine => ?_⟩
    rw [hforeign hsome] at hmine
    cases hmine
  · have hacquired := signal.toDataSignal.acquireHandle_spec h.owned_out hforeign answers
    refine ⟨h.replaceOut hacquired.owned hacquired.listeners,hacquired.keeps,hacquired.name,?_⟩
    intro hsome hmine
    exact ⟨hacquired.keeps.allowed.trans (hacquired.allowed hsome hmine),hok⟩

theorem unregisterFromSignalRegistry_spec (h : Booked ins (signal.entry::outs) access)
    (hcan : signal.CanRelease access answers) :
    Booked ins ((signal.unregisterFromSignalRegistry access answers).1.entry::outs)
        (signal.unregisterFromSignalRegistry access answers).2 ∧
      Moved signal.name access answers (signal.unregisterFromSignalRegistry access answers).1.toDataSignal
        (signal.unregisterFromSignalRegistry access answers).2 ∧
      (signal.unregisterFromSignalRegistry access answers).1.signalHandle = none := by
  obtain ⟨howned,hkeeps,hreleased,hname,hlisteners⟩ := signal.toDataSignal.releaseHandle_spec h.owned_out hcan
  -- the listeners are data signals of the other direction, so none of them holds the handle
  have hsame := hlisteners fun handle hhandle listener hlistener heq => by
    obtain ⟨found,hmem,hheld⟩ := (h.live listener.1 listener.2).mp hlistener
    exact h.owned_out.handle_ne hhandle (mem_append_left _ (mem_map_of_mem hmem)) (heq ▸ hheld)
  exact ⟨h.replaceOut howned hsame,⟨hkeeps,hname,fun hsome => absurd hreleased hsome⟩,hreleased⟩

end DataSignalOut

section loops
variable {α β : Type} {register : α → β → α × β × Result}

theorem untilFailure_keeps (inv : List α → β → Prop) {fresh : α → Prop}
    (hstep : ∀ done item rest state, fresh item → inv (done ++ item::rest) state →
      inv (done ++ (register item state).1::rest) (register item state).2.1)
    (items done : List α) (state : β) (hfresh : ∀ item ∈ items, fresh item) (hinv : inv (done ++ items) state) :
    inv (done ++ (untilFailure register items state).1) (untilFailure register items state).2.1 := by
  induction items generalizing done state with
  | nil => exact hinv
  | cons item items ih =>
    rw [forall_mem_cons] at hfresh
    have hnext := hstep done item items state hfresh.1 hinv
    rw [untilFailure]
    dsimp only
    split
    · exact hnext
    · rw [append_cons] at hnext ⊢
      exact ih _ _ hfresh.2 hnext

theorem forEach_keeps (unregister : α → β → α × β) (inv : List α → β → Prop) (released : α → Prop)
    (hstep : ∀ done item rest state, inv (done ++ item::rest) state →
      inv (done ++ (unregister item state).1::rest) (unregister item state).2 ∧ released (unregister item state).1)
    (items done : List α) (state : β) (hinv : inv (done ++ items) state) :
    inv (done ++ (forEach unregister items state).1) (forEach unregister items state).2 ∧
      ∀ item ∈ (forEach unregister items state).1, released item := by
  induction items generalizing done state with
  | nil => exact ⟨hinv,fun item hitem => by cases hitem⟩
  | cons item items ih =>
    obtain ⟨hnext,hreleased⟩ := hstep done item items state hinv
    rw [append_cons] at hnext
    obtain ⟨hlater,hrest⟩ := ih _ _ hnext
    rw [forEach]
    rw [append_cons,forall_mem_cons]
    exact ⟨hlater,hreleased,hrest⟩

end loops

namespace DataRegistryFEP2

/-- The registry's maps, signals and listeners belong together. -/
structure Sound (registry : DataRegistryFEP2) : Prop where
  booked : Booked (registry.ins.map DataSignalIn.entry) (registry.outs.map DataSignalOut.entry) registry.access
  fresh : ∀ signal ∈ registry.ins, signal.object < registry.nextAddress

structure Releasable (registry : DataRegistryFEP2) (answers : Answers) : Prop where
  ins : ∀ signal ∈ registry.ins, signal.CanRelease registry.access (answers .sdInput signal.name)
  outs : ∀ signal ∈ registry.outs, signal.CanRelease registry.access (answers .sdOutput signal.name)

/-- No data signal listens or holds a signal of the data registry, and the signal registry unregisters what will
be registered. -/
structure Unheld (registry : DataRegistryFEP2) (answers : Answers) : Prop where
  ins : ∀ signal ∈ registry.ins,
    signal.signalHandle = none ∧ isOk (answers .sdInput signal.name).unregistering = true
  outs : ∀ signal ∈ registry.outs, (signal.signalHandle ≠ none → signal.itsMySignalHandle = false) ∧
    isOk (answers .sdOutput signal.name).unregistering = true

def NoneLeft (registry : DataRegistryFEP2) : Prop := ∀ signal ∈ registry.access.signals, signal.registrant = .other

/-- What holds in the course of `ready` and `deinitializing`. -/
structure Working (before : SignalAccess) (answers : Answers) (registry : DataRegistryFEP2) : Prop
    extends Sound registry where
  releasable : registry.Releasable answers
  keeps : before.KeepsOthers registry.access

theorem Sound.noneLeft {registry : DataRegistryFEP2} (h : registry.Sound)
    (hins : ∀ signal ∈ registry.ins, signal.signalHandle = none)
    (houts : ∀ signal ∈ registry.outs, signal.signalHandle ≠ none → signal.itsMySignalHandle = false) :
    registry.NoneLeft := by
  intro signal hsignal
  cases hregistrant : signal.registrant with
  | other => rfl
  | dataRegistry =>
    obtain ⟨holder,hholder,hhandle⟩ := h.booked.owned.own signal hsignal hregistrant
    have hsome : holder.signalHandle ≠ none := by
      rw [hhandle]
      exact some_ne_none _
    obtain ⟨registrant,hmem,hiff⟩ := h.booked.owned.held holder hholder _ hhandle
    have heq := h.booked.owned.signal_eq hsignal hmem rfl
    rw [heq] at hregistrant
    have hmine := hiff.mp hregistrant
    rcases mem_append.mp hholder with hin | hout
    · obtain ⟨entry,hentry,rfl⟩ := mem_map.mp hin
      obtain ⟨found,hfound,rfl⟩ := mem_map.mp hentry
      exact absurd (hins found hfound) hsome
    · obtain ⟨found,hfound,rfl⟩ := mem_map.mp hout
      have hnotMine := houts found hfound hsome
      rw [show found.itsMySignalHandle = true from hmine] at hnotMine
      cases hnotMine

namespace Working
variable {before access after : SignalAccess} {answers : Answers} {registry : DataRegistryFEP2}

theorem canRelease_keeps {signal : DataSignal} {answer : SignalAnswers} (h : access.KeepsOthers after)
    (hcan : signal.CanRelease access answer) : signal.CanRelease after answer := by
  intro hsome hmine
  rw [h.allowed]
  exact hcan hsome hmine

theorem replaceIn {done rest : List DataSignalIn} {signal next : DataSignalIn}
    (h : Working before answers {registry with ins := done ++ signal::rest, access := access})
    (hbooked : Booked (next.entry::(done ++ rest).map DataSignalIn.entry)
      (registry.outs.map DataSignalOut.entry) after)
    (hmoved : Moved signal.name access (answers .sdInput signal.name) next.toDataSignal after)
    (hobject : next.object = signal.object) :
    Working before answers {registry with ins := done ++ next::rest, access := after} := by
  have hmem : ∀ other, other ∈ done ++ next::rest → other = next ∨ other ∈ done ++ signal::rest := by
    intro other hother
    simp only [mem_append,mem_cons] at hother ⊢
    tauto
  refine ⟨⟨hbooked.perm ?_ (List.Perm.refl _),?_⟩,⟨?_,?_⟩,h.keeps.trans hmoved.keeps⟩
  · rw [← map_cons]
    exact (perm_middle.symm).map _
  · intro other hother
    rcases hmem other hother with rfl | hother
    · rw [hobject]
      exact h.fresh signal (mem_append_right _ mem_cons_self)
    · exact h.fresh other hother
  · intro other hother
    rcases hmem other hother with rfl | hother
    · rw [hmoved.name]
      exact hmoved.release
    · exact canRelease_keeps hmoved.keeps (h.releasable.ins other hother)
  · intro other hother
    exact canRelease_keeps hmoved.keeps (h.releasable.outs other hother)

theorem replaceOut {done rest : List DataSignalOut} {signal next : DataSignalOut}
    (h : Working before answers {registry with outs := done ++ signal::rest, access := access})
    (hbooked : Booked (registry.ins.map DataSignalIn.entry)
      (next.entry::(done ++ rest).map DataSignalOut.entry) after)
    (hmoved : Moved signal.name access (answers .sdOutput signal.name) next.toDataSignal after) :
    Working before answers {registry with outs := done ++ next::rest, access := after} := by
  refine ⟨⟨hbooked.perm (List.Perm.refl _) ?_,h.fresh⟩,⟨?_,?_⟩,h.keeps.trans hmoved.keeps⟩
  · rw [← map_cons]
    exact (perm_middle.symm).map _
  · intro other hother
    exact canRelease_keeps hmoved.keeps (h.releasable.ins other hother)
  · intro other hother
    have hmem : other = next ∨ other ∈ done ++ signal::rest := by
      simp only [mem_append,mem_cons] at hother ⊢
      tauto
    rcases hmem with rfl | hother
    · rw [hmoved.name]
      exact hmoved.release
    · exact canRelease_keeps hmoved.keeps (h.releasable.outs other hother)

theorem booked_in {done rest : List DataSignalIn} {signal : DataSignalIn}
    (h : Working before answers {registry with ins := done ++ signal::rest, access := access}) :
    Booked (signal.entry::(done ++ rest).map DataSignalIn.entry) (registry.outs.map DataSignalOut.entry) access := by
  refine h.booked.perm ?_ (List.Perm.refl _)
  exact perm_middle.map _

theorem booked_out {done rest : List DataSignalOut} {signal : DataSignalOut}
    (h : Working before answers {registry with outs := done ++ signal::rest, access := access}) :
    Booked (registry.ins.map DataSignalIn.entry) (signal.entry::(done ++ rest).map DataSignalOut.entry) access := by
  refine h.booked.perm (List.Perm.refl _) ?_
  exact perm_middle.map _

theorem registerIns (h : Working before answers registry) (hunheld : registry.Unheld answers) :
    Working before answers (registry.registerIns answers).1 := by
  refine untilFailure_keeps
    (fun ins access => Working before answers {registry with ins := ins, access := access}) ?_
    registry.ins [] registry.access hunheld.ins h
  intro done signal rest access hfresh h
  obtain ⟨hbooked,hmoved⟩ := signal.registerAtSignalRegistry_spec h.booked_in hfresh.1 hfresh.2
  exact h.replaceIn hbooked hmoved (signal.registerAtSignalRegistry_object _ _)

theorem registerOuts (h : Working before answers registry) (houts : ∀ signal ∈ registry.outs,
    (signal.signalHandle ≠ none → signal.itsMySignalHandle = false) ∧
      isOk (answers .sdOutput signal.name).unregistering = true) :
    Working before answers (registry.registerOuts answers).1 := by
  refine untilFailure_keeps
    (fun outs access => Working before answers {registry with outs := outs, access := access}) ?_
    registry.outs [] registry.access houts h
  intro done signal rest access hfresh h
  obtain ⟨hbooked,hmoved⟩ := signal.registerAtSignalRegistry_spec h.booked_out hfresh.1 hfresh.2
  exact h.replaceOut hbooked hmoved

private theorem unregisterIn {done rest : List DataSignalIn} {signal : DataSignalIn}
    (h : Working before answers {registry with ins := done ++ signal::rest, access := access}) :
    let unregistered := signal.unregisterFromSignalRegistry access (answers .sdInput signal.name)
    Working before answers {registry with ins := done ++ unregistered.1::rest, access := unregistered.2} ∧
      unregistered.1.signalHandle = none := by
  have hcan := h.releasable.ins signal (mem_append_right _ mem_cons_self)
  obtain ⟨hbooked,hmoved,hnone⟩ := signal.unregisterFromSignalRegistry_spec h.booked_in hcan
  exact ⟨h.replaceIn hbooked hmoved rfl,hnone⟩

private theorem unregisterOut {done rest : List DataSignalOut} {signal : DataSignalOut}
    (h : Working before answers {registry with outs := done ++ signal::rest, access := access}) :
    let unregistered := signal.unregisterFromSignalRegistry access (answers .sdOutput signal.name)
    Working before answers {registry with outs := done ++ unregistered.1::rest, access := unregistered.2} ∧
      unregistered.1.signalHandle = none := by
  have hcan := h.releasable.outs signal (mem_append_right _ mem_cons_self)
  obtain ⟨hbooked,hmoved,hnone⟩ := signal.unregisterFromSignalRegistry_spec h.booked_out hcan
  exact ⟨h.replaceOut hbooked hmoved,hnone⟩

theorem unregisterFromSignalRegistry (h : Working before answers registry) :
    Working before answers (registry.unregisterFromSignalRegistry answers) ∧
      (registry.unregisterFromSignalRegistry answers).NoneLeft := by
  obtain ⟨houts,hnoOut⟩ := forEach_keeps
    (fun signal access => signal.unregisterFromSignalRegistry access (answers .sdOutput signal.name))
    (fun outs access => Working before answers {registry with outs := outs, access := access})
    (fun signal => signal.signalHandle = none) (fun _ _ _ _ h => h.unregisterOut) registry.outs [] registry.access h
  obtain ⟨hins,hnoIn⟩ := forEach_keeps
    (fun signal access => signal.unregisterFromSignalRegistry access (answers .sdInput signal.name))
    (fun ins access => Working before answers
      {registry.unregisterFromSignalRegistry answers with ins := ins, access := access})
    (fun signal => signal.signalHandle = none) (fun _ _ _ _ h => h.unregisterIn) registry.ins [] _ houts
  exact ⟨hins,hins.noneLeft hnoIn fun signal hsignal hsome => absurd (hnoOut signal hsignal) hsome⟩

theorem registerSignals (h : Working before answers registry) (hunheld : registry.Unheld answers) :
    Working before answers (registry.registerSignals answers).1 ∧
      (isFailed (registry.registerSignals answers).2 = true → (registry.registerSignals answers).1.NoneLeft) := by
  rw [DataRegistryFEP2.registerSignals]
  dsimp only
  have hinned := h.registerIns hunheld
  have houted := hinned.registerOuts (hunheld.outs)
  split
  · obtain ⟨hworking,hnone⟩ := hinned.unregisterFromSignalRegistry
    exact ⟨hworking,fun _ => hnone⟩
  · split
    · obtain ⟨hworking,hnone⟩ := houted.unregisterFromSignalRegistry
      exact ⟨hworking,fun _ => hnone⟩
    · exact ⟨houted,fun hfailed => by cases hfailed⟩

end Working

theorem forall_mem_replaced {α : Type} {holds : α → Prop} {done rest : List α} {item next : α}
    (h : ∀ other ∈ done ++ item::rest, holds other) (hnext : holds next) :
    ∀ other ∈ done ++ next::rest, holds other := by
  rw [forall_mem_append,forall_mem_cons] at h ⊢
  exact ⟨h.1,hnext,h.2.2⟩

theorem registerDescription_spec (answers : String → SignalAnswers) (signal : DataSignal) :
    ∃ ddlWasRegisteredAlready, (registerDescription answers signal).1 =
      {signal with ddlWasRegisteredAlready := ddlWasRegisteredAlready} := by
  rw [registerDescription]
  split
  · rw [DataSignal.registerDDLDescription]
    split
    · exact ⟨_,rfl⟩
    · split <;> exact ⟨_,rfl⟩
  · exact ⟨_,rfl⟩

structure Describing (before : SignalAccess) (answers : Answers) (registry : DataRegistryFEP2) : Prop
    extends Working before answers registry where
  unheld : registry.Unheld answers

namespace Describing
variable {before : SignalAccess} {answers : Answers} {registry : DataRegistryFEP2}

section
variable (h : Describing before answers registry)
include h

theorem noneLeft : registry.NoneLeft :=
  h.toSound.noneLeft (fun signal hsignal => (h.unheld.ins signal hsignal).1)
    (fun signal hsignal => (h.unheld.outs signal hsignal).1)

private theorem registerInDescriptions : Describing before answers (registry.registerInDescriptions answers).1 := by
  refine untilFailure_keeps (fun ins _ => Describing before answers {registry with ins := ins})
    ?_ registry.ins [] () (fun _ _ => trivial) h
  intro done signal rest _ _ h
  obtain ⟨ddlWasRegisteredAlready,hdescribed⟩ := registerDescription_spec (answers .sdInput) signal.toDataSignal
  simp only [hdescribed]
  have hsame := h.unheld.ins signal (mem_append_right _ mem_cons_self)
  refine ⟨h.toWorking.replaceIn h.toWorking.booked_in ⟨.refl _,rfl,fun hsome => absurd hsame.1 hsome⟩ rfl,?_,
    h.unheld.outs⟩
  exact forall_mem_replaced h.unheld.ins hsame

private theorem registerOutDescriptions : Describing before answers (registry.registerOutDescriptions answers).1 := by
  refine untilFailure_keeps (fun outs _ => Describing before answers {registry with outs := outs})
    ?_ registry.outs [] () (fun _ _ => trivial) h
  intro done signal rest _ _ h
  obtain ⟨ddlWasRegisteredAlready,hdescribed⟩ := registerDescription_spec (answers .sdOutput) signal.toDataSignal
  simp only [hdescribed]
  have hsame := h.unheld.outs signal (mem_append_right _ mem_cons_self)
  refine ⟨h.toWorking.replaceOut h.toWorking.booked_out ⟨.refl _,rfl,?_⟩,h.unheld.ins,?_⟩
  · intro hsome hmine
    rw [show signal.itsMySignalHandle = false from hsame.1 hsome] at hmine
    cases hmine
  exact forall_mem_replaced h.unheld.outs hsame

theorem ready : Working before answers (registry.ready answers).1 ∧
      (isFailed (registry.ready answers).2 = true → (registry.ready answers).1.NoneLeft) := by
  rw [DataRegistryFEP2.ready]
  dsimp only
  have hins := h.registerInDescriptions
  have houts := hins.registerOutDescriptions
  split
  · exact ⟨hins.toWorking,fun _ => hins.noneLeft⟩
  · split
    · exact ⟨houts.toWorking,fun _ => houts.noneLeft⟩
    · exact houts.toWorking.registerSignals houts.unheld

end

end Describing
end DataRegistryFEP2
end FepParticipant.DataRegistry
