import FepParticipant.Library.Reachability
import FepParticipant.DataRegistry.DataRegistryFEP2
import Mathlib.Data.List.Nodup
import Mathlib.Data.List.Perm.Basic

/-! Who holds the handles of which signals, over the life of the data registry. -/
namespace FepParticipant.DataRegistry
open Library Signals List Bool Option

structure Holder where
  name : String
  direction : SignalDirection
  signalHandle : Option Nat
  mine : Bool

def DataSignal.holder (signal : DataSignal) (direction : SignalDirection) : Holder :=
  ⟨signal.name,direction,signal.signalHandle,signal.itsMySignalHandle⟩

/-- The handle is that of a signal of the holder's name and direction, and the flag tells who registered it. -/
def Holder.Held (holder : Holder) (signals : List RegisteredSignal) : Prop :=
  ∀ handle, holder.signalHandle = some handle → ∃ registrant,
    ⟨handle,holder.name,holder.direction,registrant⟩ ∈ signals ∧ (registrant = .dataRegistry ↔ holder.mine = true)

structure Owned (holders : List Holder) (signals : List RegisteredSignal) : Prop where
  handles : (signals.map (·.handle)).Nodup
  names : (holders.map fun holder => (holder.name,holder.direction)).Nodup
  held : ∀ holder ∈ holders, holder.Held signals
  free : ∀ holder ∈ holders, holder.signalHandle = none → holder.mine = true
  own : ∀ signal ∈ signals, signal.registrant = .dataRegistry →
    ∃ holder ∈ holders, holder.signalHandle = some signal.handle

namespace Owned
variable {holder next : Holder} {holders others : List Holder} {signals : List RegisteredSignal}

theorem perm (h : Owned holders signals) (hperm : holders.Perm others) : Owned others signals := by
  refine ⟨h.handles,(hperm.map _).nodup_iff.mp h.names,?_,?_,?_⟩
  · intro holder hmem
    exact h.held holder (hperm.mem_iff.mpr hmem)
  · intro holder hmem
    exact h.free holder (hperm.mem_iff.mpr hmem)
  · intro signal hsignal hown
    obtain ⟨holder,hmem,hhandle⟩ := h.own signal hsignal hown
    exact ⟨holder,hperm.mem_iff.mp hmem,hhandle⟩

theorem signal_eq (h : Owned holders signals) {a b : RegisteredSignal} (ha : a ∈ signals) (hb : b ∈ signals)
    (hsame : a.handle = b.handle) : a = b :=
  inj_on_of_nodup_map h.handles ha hb hsame

section
variable (h : Owned (holder::holders) signals)
include h

theorem handle_ne {handle : Nat}
    (hhandle : holder.signalHandle = some handle) {other : Holder} (hother : other ∈ holders) :
    other.signalHandle ≠ some handle := by
  intro hsame
  obtain ⟨registrant,hmem,-⟩ := h.held holder mem_cons_self handle hhandle
  obtain ⟨registrant',hmem',-⟩ := h.held other (mem_cons_of_mem _ hother) handle hsame
  have heq := h.signal_eq hmem hmem' rfl
  rw [RegisteredSignal.mk.injEq] at heq
  refine (nodup_cons.mp h.names).1 (mem_map.mpr ⟨other,hother,?_⟩)
  exact Prod.ext heq.2.1.symm heq.2.2.1.symm

/-- No signal that the data registry has registered is found under the name of a holder that does not hold it. -/
theorem found_other (hforeign : holder.signalHandle ≠ none → holder.mine = false) {signal : RegisteredSignal}
    (hsignal : signal ∈ signals) (hname : signal.name = holder.name)
    (hdirection : signal.direction = holder.direction) : signal.registrant = .other := by
  cases hregistrant : signal.registrant with
  | other => rfl
  | dataRegistry =>
    obtain ⟨found,hfound,hhandle⟩ := h.own signal hsignal hregistrant
    rcases mem_cons.mp hfound with rfl | hfound
    · obtain ⟨registrant,hmem,hiff⟩ := h.held found mem_cons_self _ hhandle
      have heq := h.signal_eq hsignal hmem rfl
      rw [heq] at hregistrant
      have hnotMine := hforeign (by rw [hhandle]; exact some_ne_none _)
      rw [hiff.mp hregistrant] at hnotMine
      cases hnotMine
    · obtain ⟨registrant,hmem,-⟩ := h.held found (mem_cons_of_mem _ hfound) _ hhandle
      have heq := h.signal_eq hsignal hmem rfl
      rw [heq] at hname hdirection
      refine absurd (mem_map.mpr ⟨found,hfound,?_⟩) (nodup_cons.mp h.names).1
      exact Prod.ext hname hdirection

theorem replace {signals' : List RegisteredSignal}
    (hname : next.name = holder.name) (hdirection : next.direction = holder.direction)
    (hhandles : (signals'.map (·.handle)).Nodup) (hheld : next.Held signals')
    (hfree : next.signalHandle = none → next.mine = true)
    (hkept : ∀ signal ∈ signals, (∃ other ∈ holders, other.signalHandle = some signal.handle) → signal ∈ signals')
    (hown : ∀ signal ∈ signals', signal.registrant = .dataRegistry →
      ∃ other ∈ next::holders, other.signalHandle = some signal.handle) : Owned (next::holders) signals' := by
  refine ⟨hhandles,?_,?_,?_,hown⟩
  · have hnames := h.names
    rwa [map_cons,← hname,← hdirection] at hnames
  · intro other hother
    rcases mem_cons.mp hother with rfl | hother
    · exact hheld
    · intro handle hhandle
      obtain ⟨registrant,hmem,hiff⟩ := h.held other (mem_cons_of_mem _ hother) handle hhandle
      exact ⟨registrant,hkept _ hmem ⟨other,hother,hhandle⟩,hiff⟩
  · intro other hother
    rcases mem_cons.mp hother with rfl | hother
    · exact hfree
    · exact h.free other (mem_cons_of_mem _ hother)

theorem replace_foreign (hname : next.name = holder.name)
    (hdirection : next.direction = holder.direction) (hheld : next.Held signals)
    (hfree : next.signalHandle = none → next.mine = true)
    (hforeign : holder.signalHandle ≠ none → holder.mine = false) : Owned (next::holders) signals := by
  refine h.replace hname hdirection h.handles hheld hfree (fun signal hsignal _ => hsignal) ?_
  intro signal hsignal hregistrant
  obtain ⟨other,hother,hhandle⟩ := h.own signal hsignal hregistrant
  rcases mem_cons.mp hother with rfl | hother
  · obtain ⟨registrant,hmem,hiff⟩ := h.held other mem_cons_self _ hhandle
    have heq := h.signal_eq hsignal hmem rfl
    rw [heq] at hregistrant
    have hnotMine := hforeign (by rw [hhandle]; exact some_ne_none _)
    rw [hnotMine,show registrant = .dataRegistry from hregistrant] at hiff
    cases hiff.mp rfl
  · exact ⟨other,mem_cons_of_mem _ hother,hhandle⟩

theorem replace_registered (next : Holder)
    (hname : next.name = holder.name) (hdirection : next.direction = holder.direction) {handle : Nat}
    (hnew : handle ∉ signals.map (·.handle))
    (hhandle : next.signalHandle = some handle) (hmine : next.mine = true) (hfree : holder.signalHandle = none) :
    Owned (next::holders) (signals ++ [⟨handle,holder.name,holder.direction,.dataRegistry⟩]) := by
  have hsome : next.signalHandle = none → next.mine = true := fun _ => hmine
  refine h.replace hname hdirection ?_ ?_ hsome ?_ ?_
  · rw [map_append,map_singleton]
    refine h.handles.append (nodup_singleton _) ?_
    rw [disjoint_singleton]
    exact hnew
  · intro other hother
    rw [hhandle,some.injEq] at hother
    subst hother
    refine ⟨.dataRegistry,?_,fun _ => hmine,fun _ => rfl⟩
    rw [hname,hdirection]
    exact mem_append_right _ mem_cons_self
  · intro signal hsignal _
    exact mem_append_left _ hsignal
  · intro signal hsignal hregistrant
    rcases mem_append.mp hsignal with hsignal | hsignal
    · obtain ⟨other,hother,hheld⟩ := h.own signal hsignal hregistrant
      rcases mem_cons.mp hother with rfl | hother
      · rw [hfree] at hheld
        cases hheld
      · exact ⟨other,mem_cons_of_mem _ hother,hheld⟩
    · obtain rfl := mem_singleton.mp hsignal
      exact ⟨next,mem_cons_self,hhandle⟩

theorem replace_unregistered (next : Holder)
    (hname : next.name = holder.name) (hdirection : next.direction = holder.direction) {handle : Nat}
    (hhandle : holder.signalHandle = some handle) (hnone : next.signalHandle = none) (hmine : next.mine = true) :
    Owned (next::holders) (signals.filter fun signal => signal.handle != handle) := by
  refine h.replace hname hdirection ?_ ?_ (fun _ => hmine) ?_ ?_
  · exact h.handles.sublist (List.Sublist.map _ filter_sublist)
  · intro other hother
    rw [hnone] at hother
    cases hother
  · rintro signal hsignal ⟨other,hother,hheld⟩
    refine mem_filter.mpr ⟨hsignal,?_⟩
    rw [bne_iff_ne]
    rintro rfl
    exact h.handle_ne hhandle hother hheld
  · intro signal hsignal hregistrant
    obtain ⟨hsignal,hother⟩ := mem_filter.mp hsignal
    rw [bne_iff_ne] at hother
    obtain ⟨other,hmem,hheld⟩ := h.own signal hsignal hregistrant
    rcases mem_cons.mp hmem with rfl | hmem
    · rw [hhandle,some.injEq] at hheld
      exact absurd hheld.symm hother
    · exact ⟨other,mem_cons_of_mem _ hmem,hheld⟩

end

end Owned

/-- No signal of somebody else is unregistered, and registration is allowed as before. -/
structure SignalAccess.KeepsOthers (access next : SignalAccess) : Prop where
  others : ∀ signal ∈ access.signals, signal.registrant = .other → signal ∈ next.signals
  allowed : next.bAllowRegistration = access.bAllowRegistration

namespace SignalAccess.KeepsOthers
variable {access middle next : SignalAccess}

theorem refl (access : SignalAccess) : access.KeepsOthers access := ⟨fun _ hsignal _ => hsignal,rfl⟩

theorem trans (h : access.KeepsOthers middle) (k : middle.KeepsOthers next) : access.KeepsOthers next :=
  ⟨fun signal hsignal hother => k.others signal (h.others signal hsignal hother) hother,k.allowed.trans h.allowed⟩

end SignalAccess.KeepsOthers

def DataSignal.CanRelease (signal : DataSignal) (access : SignalAccess) (answers : SignalAnswers) : Prop :=
  signal.signalHandle ≠ none → signal.itsMySignalHandle = true →
    access.bAllowRegistration = true ∧ isOk answers.unregistering = true

namespace DataSignal
variable {signal : DataSignal} {direction : SignalDirection} {holders : List Holder} {access : SignalAccess}

theorem of_getSignalHandleFromName {name : String} {handle : Nat}
    (hfound : access.getSignalHandleFromName name direction = some handle) :
    ∃ registrant, ⟨handle,name,direction,registrant⟩ ∈ access.signals := by
  obtain ⟨found,hfind,rfl⟩ := map_eq_some_iff.mp hfound
  have hmatch := find?_some hfind
  simp only [and_eq_true,beq_iff_eq] at hmatch
  refine ⟨found.registrant,?_⟩
  rw [← hmatch.1,← hmatch.2]
  exact mem_of_find?_eq_some hfind

theorem getSignalHandleFromName_ne {name : String} {handle : Nat} {registrant : Registrant}
    (hmem : ⟨handle,name,direction,registrant⟩ ∈ access.signals) :
    access.getSignalHandleFromName name direction ≠ none := by
  intro hmissing
  have hnot := find?_eq_none.mp (map_eq_none_iff.mp hmissing) _ hmem
  simp at hnot

theorem registerSignal_cases (access : SignalAccess) (name : String) (direction : SignalDirection)
    (registrant : Registrant) (answer : Result) (handle : Nat) :
    (∃ res, isFailed res = true ∧ access.registerSignal name direction registrant answer handle = (access,res)) ∨
    (access.bAllowRegistration = true ∧ handle ∉ access.signals.map (·.handle) ∧
      access.registerSignal name direction registrant answer handle =
        ({access with signals := access.signals ++ [⟨handle,name,direction,registrant⟩]},.errNoError)) := by
  rw [SignalAccess.registerSignal]
  split
  · exact .inl ⟨_,rfl,rfl⟩
  · rename_i hallowed
    split
    · exact .inl ⟨_,rfl,rfl⟩
    · split
      · rename_i hfailed
        exact .inl ⟨_,hfailed,rfl⟩
      · split
        · exact .inl ⟨_,rfl,rfl⟩
        · rename_i hnew
          exact .inr ⟨by simpa using hallowed,hnew,rfl⟩

structure Acquired (signal : DataSignal) (direction : SignalDirection) (holders : List Holder)
    (access : SignalAccess) (next : DataSignal) (after : SignalAccess) : Prop where
  owned : Owned (next.holder direction::holders) after.signals
  keeps : access.KeepsOthers after
  listeners : after.listeners = access.listeners
  name : next.name = signal.name
  allowed : next.signalHandle ≠ none → next.itsMySignalHandle = true → access.bAllowRegistration = true

theorem acquireHandle_spec (h : Owned (signal.holder direction::holders) access.signals)
    (hforeign : signal.signalHandle ≠ none → signal.itsMySignalHandle = false) (answers : SignalAnswers) :
    signal.Acquired direction holders access (signal.acquireHandle direction access answers).1
      (signal.acquireHandle direction access answers).2.1 := by
  rw [acquireHandle]
  split
  · rename_i handle hfound
    obtain ⟨registrant,hmem⟩ := of_getSignalHandleFromName hfound
    have hother : registrant = .other := h.found_other hforeign hmem rfl rfl
    refine ⟨h.replace_foreign rfl rfl ?_ (fun hfree => by cases hfree) hforeign,.refl _,rfl,rfl,?_⟩
    · intro other hhandle
      obtain rfl : handle = other := some.inj hhandle
      refine ⟨registrant,hmem,fun hown => ?_,fun hfalse => by cases hfalse⟩
      rw [hother] at hown
      cases hown
    · intro _ hfalse
      cases hfalse
  · rename_i hmissing
    rcases registerSignal_cases access signal.name direction .dataRegistry answers.registering answers.handle with
      ⟨res,hfailed,hregister⟩ | ⟨hallowed,hnew,hregister⟩
    · simp only [hregister,hfailed,if_true]
      refine ⟨h.replace_foreign rfl rfl ?_ (fun _ => rfl) hforeign,.refl _,rfl,rfl,
        fun hsome => absurd rfl hsome⟩
      intro handle hhandle
      cases hhandle
    · have hnone : signal.signalHandle = none := by
        cases hhandle : signal.signalHandle with
        | none => rfl
        | some handle =>
          obtain ⟨registrant,hmem,-⟩ := h.held _ mem_cons_self handle hhandle
          exact absurd hmissing (getSignalHandleFromName_ne hmem)
      have hmine : signal.itsMySignalHandle = true := h.free _ mem_cons_self hnone
      simp only [hregister,show isFailed .errNoError = false from rfl,false_eq_true,if_false]
      refine ⟨h.replace_registered ⟨signal.name,direction,some answers.handle,signal.itsMySignalHandle⟩
        rfl rfl hnew rfl hmine hnone,⟨?_,rfl⟩,rfl,rfl,fun _ _ => hallowed⟩
      intro other hother _
      exact mem_append_left _ hother

structure Released (signal : DataSignal) (direction : SignalDirection) (holders : List Holder)
    (access : SignalAccess) (next : DataSignal) (after : SignalAccess) : Prop where
  owned : Owned (next.holder direction::holders) after.signals
  keeps : access.KeepsOthers after
  none : next.signalHandle = none
  name : next.name = signal.name
  listeners : (∀ handle, signal.signalHandle = some handle → ∀ listener ∈ access.listeners, listener.2 ≠ handle) →
    after.listeners = access.listeners

theorem releaseHandle_spec (h : Owned (signal.holder direction::holders) access.signals)
    {answers : SignalAnswers} (hcan : signal.CanRelease access answers) :
    signal.Released direction holders access (signal.releaseHandle access answers).1
      (signal.releaseHandle access answers).2 := by
  rw [releaseHandle]
  split
  · rename_i hnone
    exact ⟨h,.refl _,hnone,rfl,fun _ => rfl⟩
  · rename_i handle hhandle
    obtain ⟨registrant,hmem,hiff⟩ := h.held _ mem_cons_self handle hhandle
    by_cases hmine : signal.itsMySignalHandle = true
    · obtain ⟨hallowed,hok⟩ := hcan (by rw [hhandle]; exact some_ne_none _) hmine
      have hknown : handle ∈ access.signals.map (·.handle) := mem_map.mpr ⟨_,hmem,rfl⟩
      have hfailed : isFailed answers.unregistering = false := by rw [isFailed,hok]; rfl
      have hunregister : (access.unregisterSignal handle answers.unregistering).1 = { access with
          signals := access.signals.filter fun signal => signal.handle != handle
          listeners := access.listeners.filter fun listener => listener.2 != handle } := by
        simp only [SignalAccess.unregisterSignal,hallowed,hknown,hfailed,Bool.not_true,Bool.false_eq_true,
          not_true_eq_false,if_false]
      rw [if_pos hmine,hunregister]
      refine ⟨h.replace_unregistered ⟨signal.name,direction,none,true⟩ rfl rfl hhandle rfl rfl,⟨?_,rfl⟩,rfl,rfl,
        ?_⟩
      · intro other hother hregistrant
        refine mem_filter.mpr ⟨hother,?_⟩
        rw [bne_iff_ne]
        rintro rfl
        have heq := h.signal_eq hother hmem rfl
        rw [heq,show registrant = .dataRegistry from hiff.mpr hmine] at hregistrant
        cases hregistrant
      · intro hlisteners
        refine filter_eq_self.mpr fun listener hlistener => ?_
        rw [bne_iff_ne]
        exact hlisteners handle hhandle listener hlistener
    · rw [if_neg hmine]
      refine ⟨h.replace_foreign rfl rfl ?_ (fun _ => rfl) (fun _ => Bool.eq_false_iff.mpr hmine),.refl _,rfl,rfl,
        fun _ => rfl⟩
      intro other hother
      cases hother

end DataSignal
end FepParticipant.DataRegistry
