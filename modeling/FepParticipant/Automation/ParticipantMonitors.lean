import FepParticipant.Automation.SystemStateCollector
import FepParticipant.Library.Reachability

/-! The monitors of the automation interface, which are told of state and name changes of the participants whose
names match a pattern, and may register and unregister monitors while they are told. -/
namespace FepParticipant.Automation
open Library OrderedMap List

/-- The key of the map for a pattern: `*` has become `.*`. -/
def strRegexName (strParticipantName : String) : String :=
  String.ofList (strParticipantName.toList.flatMap fun c => if c = '*' then ['.','*'] else [c])

structure MonitorVector where
  monitors : List Nat
  capacity : Nat

namespace MonitorVector

/-- A new element has no room without new memory. -/
def isFull (vector : MonitorVector) : Bool := vector.monitors.length = vector.capacity

/-- Memory that is full grows. -/
def pushBack (growth : Nat → Nat) (vector : MonitorVector) (pMonitor : Nat) : MonitorVector :=
  ⟨vector.monitors ++ [pMonitor],if vector.isFull then growth vector.capacity else vector.capacity⟩

end MonitorVector

/-- `monitorMapType`, in the order of its keys. -/
abbrev MonitorMap := List (String × MonitorVector)

namespace MonitorMap
variable (mapMonitors : MonitorMap)

def monitorsAt (key : String) : List Nat := ((mapMonitors.lookup key).map MonitorVector.monitors).getD []

/-- The map after `RegisterMonitoring`. -/
def register (growth : Nat → Nat) (strParticipantName : String) (pMonitor : Nat) : MonitorMap :=
  let key := strRegexName strParticipantName
  assign (key,((mapMonitors.lookup key).getD ⟨[],0⟩).pushBack growth pMonitor) mapMonitors

/-- The map after `UnregisterMonitoring`: from each vector the first hit is gone, and with the last monitor the
key. -/
def unregister (pMonitor : Nat) : MonitorMap :=
  let vecParticipants := (mapMonitors.filter fun entry =>
    pMonitor ∈ entry.2.monitors ∧ entry.2.monitors.erase pMonitor = []).map Prod.fst
  (mapMonitors.map fun entry => (entry.1,{entry.2 with monitors := entry.2.monitors.erase pMonitor})).filter
    fun entry => entry.1 ∉ vecParticipants

/-- The first monitor under a matching key, with `it` and `it2`. -/
def firstCall (fullMatch : String → String → Bool) (strSender : String) : Option (String × Nat × Nat) :=
  mapMonitors.findSome? fun entry =>
    if fullMatch entry.1 strSender then entry.2.monitors.head?.map fun monitor => (entry.1,0,monitor) else none

/-- The monitor that the loops of `Update` come to next, from the beginning or from a position. -/
def nextCall (fullMatch : String → String → Bool) (strSender : String) :
    Option (String × Nat) → Option (String × Nat × Nat)
  | none => mapMonitors.firstCall fullMatch strSender
  | some (it,it2) =>
    match (mapMonitors.monitorsAt it)[it2 + 1]? with
    | some monitor => some (it,it2 + 1,monitor)
    | none => MonitorMap.firstCall (mapMonitors.filter fun entry => it < entry.1) fullMatch strSender

end MonitorMap

inductive MonitorNotification where
  | stateChanged (eState : RemoteState)
  | nameChanged (strOldName : String)

/-- A notification that has come in. -/
structure MonitorNotice where
  strSender : String
  notification : MonitorNotification
  /-- What was registered when it came in, who has been unregistered since, and who has been called. -/
  registered : List (String × Nat)
  unregistered : List Nat
  called : List Nat

/-- An `Update` that is in the callback of the monitor at `it`, `it2`. -/
structure MonitorUpdate extends MonitorNotice where
  it : String
  it2 : Nat
  /-- The memory that the iterators point to has not been given back. -/
  valid : Bool

/-- The map, and what has been registered and not unregistered. The updates under way have the innermost first. -/
structure ParticipantMonitors where
  mapMonitors : MonitorMap
  registrations : List (String × Nat)
  updates : List MonitorUpdate
  finished : List MonitorNotice
  /-- Monitors that were called without a registration for the sender. -/
  strays : List Nat
  /-- An iterator was used after its memory had been given back. -/
  invalidAccess : Bool

inductive MonitorAction where
  | registerMonitoring (strParticipantName : String) (pMonitor : Nat)
  | unregisterMonitoring (pMonitor : Nat)
  | update (strSender : String) (notification : MonitorNotification)
  | callbackReturns

namespace ParticipantMonitors
variable (fullMatch : String → String → Bool) (growth : Nat → Nat) (monitors : ParticipantMonitors)

def new : ParticipantMonitors := ⟨[],[],[],[],[],false⟩

def movedBy (key : String) (update : MonitorUpdate) : Bool :=
  update.it = key && ((monitors.mapMonitors.lookup key).map MonitorVector.isFull).getD false

def passedBy (pMonitor : Nat) (update : MonitorUpdate) : Bool :=
  pMonitor ∈ (monitors.mapMonitors.monitorsAt update.it).take (update.it2 + 1)

def isRegistered (strSender : String) (pMonitor : Nat) : Bool :=
  monitors.registrations.any fun registration =>
    registration.2 = pMonitor && fullMatch (strRegexName registration.1) strSender

/-- An update goes on to the next monitor, or returns. -/
def proceed (notice : MonitorNotice) (position : Option (String × Nat)) : ParticipantMonitors :=
  match monitors.mapMonitors.nextCall fullMatch notice.strSender position with
  | some (it,it2,pMonitor) =>
    { monitors with
      updates := ⟨{notice with called := notice.called ++ [pMonitor]},it,it2,true⟩::monitors.updates
      strays :=
        if monitors.isRegistered fullMatch notice.strSender pMonitor then monitors.strays
        else pMonitor::monitors.strays }
  | none => {monitors with finished := notice::monitors.finished}

/-- All calls lock `_monitor_maps_sync`: what is called during an update comes from the callback of the innermost
one. -/
def step : MonitorAction → Option ParticipantMonitors
  | .registerMonitoring strParticipantName pMonitor =>
    some { monitors with
      mapMonitors := monitors.mapMonitors.register growth strParticipantName pMonitor
      registrations := monitors.registrations ++ [(strParticipantName,pMonitor)]
      updates := monitors.updates.map fun update =>
        {update with valid := update.valid && !monitors.movedBy (strRegexName strParticipantName) update} }
  | .unregisterMonitoring pMonitor =>
    some { monitors with
      mapMonitors := monitors.mapMonitors.unregister pMonitor
      registrations := monitors.registrations.filter fun registration => registration.2 ≠ pMonitor
      updates := monitors.updates.map fun update =>
        { update with
          unregistered := pMonitor::update.unregistered
          valid := update.valid && !monitors.passedBy pMonitor update } }
  | .update strSender notification =>
    some (monitors.proceed fullMatch ⟨strSender,notification,monitors.registrations,[],[]⟩ none)
  | .callbackReturns =>
    match monitors.updates with
    | [] => none
    | update::outer =>
      if update.valid then
        some (proceed fullMatch {monitors with updates := outer} update.toMonitorNotice
          (some (update.it,update.it2)))
      else some {monitors with invalidAccess := true}

structure Served (monitors : ParticipantMonitors) : Prop where
  /-- Who is called is registered under a pattern that matches the sender, so has not been unregistered since. -/
  registered : monitors.strays = []
  /-- A notification is passed to all monitors that are registered for its sender until it has been. -/
  complete : ∀ notice ∈ monitors.finished, ∀ registration ∈ notice.registered,
    fullMatch (strRegexName registration.1) notice.strSender = true → registration.2 ∉ notice.unregistered →
      registration.2 ∈ notice.called
  /-- No pattern is kept without a monitor. -/
  nonempty : ∀ entry ∈ monitors.mapMonitors, entry.2.monitors ≠ []
  /-- Every iterator that is used points to its vector. -/
  valid : monitors.invalidAccess = false

/-- No vector that an update is in is reallocated or loses a monitor up to the update's position, and none is
unregistered that is twice in a vector. -/
def Careful (monitors : ParticipantMonitors) : MonitorAction → Prop
  | .registerMonitoring strParticipantName _ =>
    ∀ update ∈ monitors.updates, monitors.movedBy (strRegexName strParticipantName) update = false
  | .unregisterMonitoring pMonitor =>
    (∀ entry ∈ monitors.mapMonitors, entry.2.monitors.count pMonitor ≤ 1) ∧
      ∀ update ∈ monitors.updates, monitors.passedBy pMonitor update = false
  | .update .. | .callbackReturns => True

instance (monitors : ParticipantMonitors) (action : MonitorAction) : Decidable (monitors.Careful action) := by
  cases action <;> unfold Careful <;> infer_instance

end ParticipantMonitors

namespace MonitorMap
variable {mapMonitors : MonitorMap} {fullMatch : String → String → Bool} {strSender key : String} {pMonitor : Nat}
variable {it : String}

theorem monitorsAt_cons (entry : String × MonitorVector) : monitorsAt (entry::mapMonitors) key =
      if key = entry.1 then entry.2.monitors else mapMonitors.monitorsAt key := by
  rw [monitorsAt,lookup_cons_eq_ite]
  split <;> rfl

theorem mem_keys_of_monitorsAt (h : mapMonitors.monitorsAt key ≠ []) : key ∈ mapMonitors.map Prod.fst := by
  induction mapMonitors with
  | nil => exact absurd rfl h
  | cons entry mapMonitors ih =>
    rw [monitorsAt_cons] at h
    split at h
    · rename_i hkey
      exact hkey ▸ mem_cons_self
    · exact mem_cons_of_mem _ (ih h)

theorem monitorsAt_of_mem (h : Sorted mapMonitors) {entry : String × MonitorVector} (hentry : entry ∈ mapMonitors) :
    mapMonitors.monitorsAt entry.1 = entry.2.monitors := by
  rw [monitorsAt,(lookup_eq_some_iff_mem h.nodup_keys).mpr hentry]
  rfl

theorem monitorsAt_register (growth : Nat → Nat) (strParticipantName : String) :
    (mapMonitors.register growth strParticipantName pMonitor).monitorsAt key =
      if strRegexName strParticipantName = key then mapMonitors.monitorsAt key ++ [pMonitor]
      else mapMonitors.monitorsAt key := by
  rw [monitorsAt,register,lookup_assign]
  by_cases hkey : strRegexName strParticipantName = key
  · rw [if_pos hkey,if_pos hkey.symm,hkey,monitorsAt]
    cases mapMonitors.lookup key <;> rfl
  · rw [if_neg hkey,if_neg (Ne.symm hkey),monitorsAt]

section
variable (h : Sorted mapMonitors)
include h

theorem monitorsAt_unregister :
    (mapMonitors.unregister pMonitor).monitorsAt key = (mapMonitors.monitorsAt key).erase pMonitor := by
  have herased := lookup_map_value
    (fun vector : MonitorVector => {vector with monitors := vector.monitors.erase pMonitor}) mapMonitors key
  rw [monitorsAt,unregister]
  rw [lookup_filter_key (fun key => decide (key ∉ _)),herased,monitorsAt]
  cases hlookup : mapMonitors.lookup key with
  | none => split <;> rfl
  | some vector =>
    split
    · rfl
    · rename_i hgone
      obtain ⟨entry,hentry,hkey⟩ := mem_map.mp (Decidable.not_not.mp fun hkept => hgone (decide_eq_true hkept))
      obtain ⟨hentry,hempty⟩ := mem_filter.mp hentry
      have hsame := monitorsAt_of_mem h hentry
      rw [hkey,monitorsAt,hlookup] at hsame
      change [] = vector.monitors.erase pMonitor
      rw [show vector.monitors = entry.2.monitors from hsame]
      exact (of_decide_eq_true hempty).2.symm

theorem sorted_register (growth : Nat → Nat) (strParticipantName : String) :
    Sorted (mapMonitors.register growth strParticipantName pMonitor) :=
  sorted_assign h

theorem sorted_unregister : Sorted (mapMonitors.unregister pMonitor) := by
  refine List.Pairwise.filter _ ?_
  rw [pairwise_map]
  exact h

theorem nonempty_register (hfull : ∀ entry ∈ mapMonitors, entry.2.monitors ≠ [])
    (growth : Nat → Nat) (strParticipantName : String) :
    ∀ entry ∈ mapMonitors.register growth strParticipantName pMonitor, entry.2.monitors ≠ [] := by
  intro entry hentry
  rcases (mem_assign h).mp hentry with rfl | ⟨hentry,-⟩
  · exact append_ne_nil_of_right_ne_nil _ (cons_ne_nil _ _)
  · exact hfull entry hentry

end

theorem nonempty_unregister (hfull : ∀ entry ∈ mapMonitors, entry.2.monitors ≠ []) :
    ∀ entry ∈ mapMonitors.unregister pMonitor, entry.2.monitors ≠ [] := by
  intro entry hentry
  obtain ⟨hentry,hkept⟩ := mem_filter.mp hentry
  obtain ⟨before,hbefore,rfl⟩ := mem_map.mp hentry
  intro hempty
  by_cases hmem : pMonitor ∈ before.2.monitors
  · refine of_decide_eq_true hkept (mem_map.mpr ⟨before,mem_filter.mpr ⟨hbefore,?_⟩,rfl⟩)
    exact decide_eq_true ⟨hmem,hempty⟩
  · exact hfull before hbefore ((erase_of_not_mem hmem).symm.trans hempty)

theorem firstCall_some (h : Sorted mapMonitors) {it2 : Nat}
    (hcall : mapMonitors.firstCall fullMatch strSender = some (it,it2,pMonitor)) :
    it2 = 0 ∧ fullMatch it strSender = true ∧ (∃ rest, mapMonitors.monitorsAt it = pMonitor::rest) ∧
      ∀ key < it, fullMatch key strSender = true → mapMonitors.monitorsAt key = [] := by
  induction mapMonitors with
  | nil => cases hcall
  | cons entry mapMonitors ih =>
    obtain ⟨hfirst,hrest⟩ := pairwise_cons.mp h
    have hsmaller {key : String} (hkey : key < entry.1) : MonitorMap.monitorsAt mapMonitors key = [] := by
      by_contra hne
      obtain ⟨other,hother,rfl⟩ := mem_map.mp (mem_keys_of_monitorsAt hne)
      exact lt_asymm hkey (hfirst other hother)
    rw [firstCall,findSome?_cons] at hcall
    split at hcall
    · rename_i found hfound
      cases hcall
      split at hfound
      · rename_i hmatch
        obtain ⟨monitor,hhead,hfound⟩ := Option.map_eq_some_iff.mp hfound
        cases hfound
        refine ⟨rfl,hmatch,?_,fun key hkey _ => ?_⟩
        · rw [monitorsAt_cons,if_pos rfl]
          exact head?_eq_some_iff.mp hhead
        · rw [monitorsAt_cons,if_neg (ne_of_lt hkey)]
          exact hsmaller hkey
      · cases hfound
    · rename_i hnone
      obtain ⟨hzero,hmatch,⟨rest,hat⟩,hbefore⟩ := ih hrest hcall
      have hlater : entry.1 < it := by
        by_contra hle
        rcases lt_or_eq_of_le (not_lt.mp hle) with hlt | rfl
        · rw [hsmaller hlt] at hat
          cases hat
        · obtain ⟨other,hother,hkey⟩ := mem_map.mp (mem_keys_of_monitorsAt (hat ▸ cons_ne_nil pMonitor rest))
          exact ne_of_gt (hfirst other hother) hkey
      refine ⟨hzero,hmatch,⟨rest,?_⟩,fun key hkey hkeymatch => ?_⟩
      · rw [monitorsAt_cons,if_neg (ne_of_gt hlater)]
        exact hat
      · rw [monitorsAt_cons]
        split
        · rename_i hsame
          rw [← hsame,if_pos hkeymatch] at hnone
          exact head?_eq_none_iff.mp (Option.map_eq_none_iff.mp hnone)
        · exact hbefore key hkey hkeymatch

theorem firstCall_none (hcall : mapMonitors.firstCall fullMatch strSender = none)
    (hmatch : fullMatch key strSender = true) : mapMonitors.monitorsAt key = [] := by
  induction mapMonitors with
  | nil => rfl
  | cons entry mapMonitors ih =>
    rw [firstCall,findSome?_cons] at hcall
    split at hcall
    · cases hcall
    · rename_i hnone
      rw [monitorsAt_cons]
      split
      · rename_i hsame
        rw [← hsame,if_pos hmatch] at hnone
        exact head?_eq_none_iff.mp (Option.map_eq_none_iff.mp hnone)
      · exact ih hcall

/-- The monitors under a key that the loops still come to. -/
def pendingMonitors (mapMonitors : MonitorMap) : Option (String × Nat) → String → List Nat
  | none, key => mapMonitors.monitorsAt key
  | some (it,it2), key =>
    if key < it then [] else if key = it then (mapMonitors.monitorsAt key).drop (it2 + 1)
    else mapMonitors.monitorsAt key

theorem monitorsAt_behind : MonitorMap.monitorsAt (mapMonitors.filter fun entry => it < entry.1) key =
      if it < key then mapMonitors.monitorsAt key else [] := by
  rw [monitorsAt,lookup_filter_key fun key => decide (it < key)]
  by_cases hkey : it < key
  · rw [if_pos (decide_eq_true hkey),if_pos hkey,monitorsAt]
  · rw [if_neg (mt of_decide_eq_true hkey),if_neg hkey]
    rfl

variable {position : Option (String × Nat)}

theorem nextCall_some (h : Sorted mapMonitors)
    (hposition : ∀ it it2, position = some (it,it2) → fullMatch it strSender = true) {it2 : Nat}
    (hcall : mapMonitors.nextCall fullMatch strSender position = some (it,it2,pMonitor)) :
    fullMatch it strSender = true ∧ pMonitor ∈ mapMonitors.monitorsAt it ∧
      ∀ key other, fullMatch key strSender = true → other ∈ mapMonitors.pendingMonitors position key →
        other = pMonitor ∨ other ∈ mapMonitors.pendingMonitors (some (it,it2)) key := by
  have hfirst {key : String} {other : Nat} {rest : List Nat} (hat : mapMonitors.monitorsAt it = pMonitor::rest)
      (hbehind : ¬key < it) (hother : other ∈ mapMonitors.monitorsAt key) :
      other = pMonitor ∨ other ∈ mapMonitors.pendingMonitors (some (it,0)) key := by
    rw [pendingMonitors,if_neg hbehind]
    split
    · rename_i hsame
      subst hsame
      rw [hat] at hother ⊢
      exact mem_cons.mp hother
    · exact .inr hother
  cases position with
  | none =>
    obtain ⟨rfl,hmatch,⟨rest,hat⟩,hbefore⟩ := firstCall_some h hcall
    refine ⟨hmatch,hat ▸ mem_cons_self,fun key other hkey hother => hfirst hat (fun hlt => ?_) hother⟩
    rw [pendingMonitors,hbefore key hlt hkey] at hother
    cases hother
  | some position =>
    obtain ⟨before,before2⟩ := position
    have hmatch := hposition before before2 rfl
    rw [nextCall] at hcall
    split at hcall
    · rename_i hnext
      cases hcall
      refine ⟨hmatch,mem_of_getElem? hnext,fun key other hkey hother => ?_⟩
      rw [pendingMonitors] at hother ⊢
      split at hother
      · cases hother
      · rename_i hlt
        rw [if_neg hlt]
        split
        · rename_i hsame
          rw [if_pos hsame,hsame,drop_eq_getElem?_toList_append,hnext] at hother
          rw [hsame]
          exact mem_cons.mp hother
        · rename_i hne
          rw [if_neg hne] at hother
          exact .inr hother
    · rename_i hend
      have hsorted : Sorted (mapMonitors.filter fun entry => before < entry.1) := List.Pairwise.filter _ h
      obtain ⟨rfl,hmatch,⟨rest,hat⟩,hbefore⟩ := firstCall_some hsorted hcall
      rw [monitorsAt_behind] at hat
      split at hat
      · rename_i hlater
        refine ⟨hmatch,hat ▸ mem_cons_self,fun key other hkey hother => ?_⟩
        rw [pendingMonitors] at hother
        split at hother
        · cases hother
        · rename_i hlt
          split at hother
          · rename_i hsame
            rw [hsame,drop_eq_nil_of_le (List.getElem?_eq_none_iff.mp hend)] at hother
            cases hother
          · rename_i hne
            refine hfirst hat (fun hbetween => ?_) hother
            have hnone := hbefore key hbetween hkey
            rw [monitorsAt_behind,if_pos (lt_of_le_of_ne (not_lt.mp hlt) (Ne.symm hne))] at hnone
            rw [hnone] at hother
            cases hother
      · cases hat

theorem nextCall_none
    (hcall : mapMonitors.nextCall fullMatch strSender position = none) (hkey : fullMatch key strSender = true) :
    mapMonitors.pendingMonitors position key = [] := by
  cases position with
  | none => exact firstCall_none hcall hkey
  | some position =>
    rw [nextCall] at hcall
    split at hcall
    · cases hcall
    · rename_i hend
      rw [pendingMonitors]
      split
      · rfl
      · rename_i hlt
        split
        · rename_i hsame
          rw [hsame]
          exact drop_eq_nil_of_le (List.getElem?_eq_none_iff.mp hend)
        · rename_i hne
          have hnone := firstCall_none hcall hkey
          rw [monitorsAt_behind,if_pos (lt_of_le_of_ne (not_lt.mp hlt) (Ne.symm hne))] at hnone
          exact hnone

theorem mem_pendingMonitors_register {other : Nat}
    (hother : other ∈ mapMonitors.pendingMonitors position key) (growth : Nat → Nat) (strParticipantName : String) :
    other ∈ (mapMonitors.register growth strParticipantName pMonitor).pendingMonitors position key := by
  have hmore : (mapMonitors.monitorsAt key).Sublist
      ((mapMonitors.register growth strParticipantName pMonitor).monitorsAt key) := by
    rw [monitorsAt_register]
    split
    · exact sublist_append_left _ _
    · exact List.Sublist.refl _
  cases position with
  | none => exact hmore.subset hother
  | some position =>
    rw [pendingMonitors] at hother ⊢
    split at hother
    · cases hother
    · rename_i hlt
      rw [if_neg hlt]
      split at hother
      · rename_i hsame
        rw [if_pos hsame]
        exact (hmore.drop _).subset hother
      · rename_i hne
        rw [if_neg hne]
        exact hmore.subset hother

theorem mem_pendingMonitors_unregister (h : Sorted mapMonitors) {it2 other : Nat}
    (hother : other ∈ mapMonitors.pendingMonitors (some (it,it2)) key) (hne : other ≠ pMonitor)
    (hbehind : pMonitor ∉ (mapMonitors.monitorsAt it).take (it2 + 1)) :
    other ∈ (mapMonitors.unregister pMonitor).pendingMonitors (some (it,it2)) key := by
  rw [pendingMonitors] at hother ⊢
  split at hother
  · cases hother
  · rename_i hlt
    rw [if_neg hlt,monitorsAt_unregister h]
    split at hother
    · rename_i hsame
      subst hsame
      have hlonger : it2 + 1 ≤ (mapMonitors.monitorsAt key).length := by
        by_contra hshort
        rw [drop_eq_nil_of_le (by omega)] at hother
        cases hother
      rw [if_pos rfl,← take_append_drop (it2 + 1) (mapMonitors.monitorsAt key),erase_append_right _ hbehind,
        drop_append_of_le_length (by rw [length_take]; omega),drop_take_self,nil_append]
      exact (mem_erase_of_ne hne).mpr hother
    · rename_i hdifferent
      rw [if_neg hdifferent]
      exact (mem_erase_of_ne hne).mpr hother

end MonitorMap

/-- The monitors registered for the sender and not unregistered have been or are still to be called. -/
def MonitorNotice.Owes (fullMatch : String → String → Bool) (notice : MonitorNotice) (pending : String → List Nat) :
    Prop :=
  ∀ registration ∈ notice.registered, fullMatch (strRegexName registration.1) notice.strSender = true →
    registration.2 ∉ notice.unregistered →
      registration.2 ∈ notice.called ∨ registration.2 ∈ pending (strRegexName registration.1)

namespace ParticipantMonitors
variable {fullMatch : String → String → Bool} {growth : Nat → Nat} {monitors after : ParticipantMonitors}
  {action : MonitorAction}

/-- What careful callers keep. -/
structure Kept (fullMatch : String → String → Bool) (monitors : ParticipantMonitors) : Prop where
  sorted : Sorted monitors.mapMonitors
  nonempty : ∀ entry ∈ monitors.mapMonitors, entry.2.monitors ≠ []
  agree : ∀ key pMonitor, pMonitor ∈ monitors.mapMonitors.monitorsAt key ↔
    ∃ registration ∈ monitors.registrations, strRegexName registration.1 = key ∧ registration.2 = pMonitor
  underWay : ∀ update ∈ monitors.updates, update.valid = true ∧ fullMatch update.it update.strSender = true ∧
    update.Owes fullMatch (monitors.mapMonitors.pendingMonitors (some (update.it,update.it2)))
  finished : ∀ notice ∈ monitors.finished, notice.Owes fullMatch fun _ => []
  registered : monitors.strays = []
  valid : monitors.invalidAccess = false

theorem Kept.proceed (h : monitors.Kept fullMatch) {notice : MonitorNotice} {position : Option (String × Nat)}
    (hposition : ∀ it it2, position = some (it,it2) → fullMatch it notice.strSender = true)
    (howes : notice.Owes fullMatch (monitors.mapMonitors.pendingMonitors position)) :
    (monitors.proceed fullMatch notice position).Kept fullMatch := by
  rw [ParticipantMonitors.proceed]
  split
  · rename_i it it2 pMonitor hcall
    obtain ⟨hmatch,hmem,hrest⟩ := MonitorMap.nextCall_some h.sorted hposition hcall
    refine ⟨h.sorted,h.nonempty,h.agree,forall_mem_cons.mpr ⟨⟨rfl,hmatch,?_⟩,h.underWay⟩,h.finished,?_,h.valid⟩
    · intro registration hregistration hkey hkept
      rcases howes registration hregistration hkey hkept with hcalled | hpending
      · exact .inl (mem_append_left _ hcalled)
      · rcases hrest _ _ hkey hpending with hsame | hpending
        · exact .inl (mem_append_right _ (mem_singleton.mpr hsame))
        · exact .inr hpending
    · obtain ⟨registration,hregistration,hkey,hsame⟩ := (h.agree it pMonitor).mp hmem
      have hregistered : monitors.isRegistered fullMatch notice.strSender pMonitor = true := by
        refine any_eq_true.mpr ⟨registration,hregistration,?_⟩
        rw [hkey,hmatch,Bool.and_true]
        exact decide_eq_true hsame
      rw [if_pos hregistered]
      exact h.registered
  · rename_i hcall
    refine ⟨h.sorted,h.nonempty,h.agree,h.underWay,forall_mem_cons.mpr ⟨?_,h.finished⟩,h.registered,h.valid⟩
    intro registration hregistration hkey hkept
    have hpending := howes registration hregistration hkey hkept
    rw [MonitorMap.nextCall_none hcall hkey] at hpending
    exact hpending

theorem Kept.step (h : monitors.Kept fullMatch) (hcareful : monitors.Careful action)
    (hstep : step fullMatch growth monitors action = some after) : after.Kept fullMatch := by
  cases action with
  | registerMonitoring strParticipantName pMonitor =>
    cases hstep
    refine ⟨MonitorMap.sorted_register h.sorted _ _,MonitorMap.nonempty_register h.sorted h.nonempty _ _,
      fun key other => ?_,forall_mem_map.mpr fun update hupdate => ?_,h.finished,h.registered,h.valid⟩
    · simp only [MonitorMap.monitorsAt_register,mem_append,mem_singleton,or_and_right,exists_or,
        exists_eq_left,← h.agree]
      split
      · rename_i hkey
        rw [mem_append,mem_singleton,and_iff_right hkey,eq_comm (a := pMonitor)]
      · rename_i hkey
        exact (or_iff_left fun hnew => hkey hnew.1).symm
    · obtain ⟨hvalid,hmatch,howes⟩ := h.underWay update hupdate
      refine ⟨?_,hmatch,fun registration hregistration hkey hkept => ?_⟩
      · rw [hvalid,hcareful update hupdate]
        rfl
      · refine (howes registration hregistration hkey hkept).imp_right fun hpending => ?_
        exact MonitorMap.mem_pendingMonitors_register hpending _ _
  | unregisterMonitoring pMonitor =>
    cases hstep
    have hgone (key : String) : pMonitor ∉ (monitors.mapMonitors.monitorsAt key).erase pMonitor := by
      have hcount : (monitors.mapMonitors.monitorsAt key).count pMonitor ≤ 1 := by
        by_cases hempty : monitors.mapMonitors.monitorsAt key = []
        · rw [hempty]
          exact Nat.zero_le 1
        · obtain ⟨entry,hentry,rfl⟩ := mem_map.mp (MonitorMap.mem_keys_of_monitorsAt hempty)
          rw [MonitorMap.monitorsAt_of_mem h.sorted hentry]
          exact hcareful.1 entry hentry
      rw [← count_eq_zero,count_erase_self]
      omega
    refine ⟨MonitorMap.sorted_unregister h.sorted,MonitorMap.nonempty_unregister h.nonempty,fun key other => ?_,
      forall_mem_map.mpr fun update hupdate => ?_,h.finished,h.registered,h.valid⟩
    · rw [MonitorMap.monitorsAt_unregister h.sorted]
      by_cases hsame : other = pMonitor
      · subst hsame
        refine iff_of_false (hgone key) ?_
        rintro ⟨registration,hregistration,-,rfl⟩
        exact of_decide_eq_true (mem_filter.mp hregistration).2 rfl
      · rw [mem_erase_of_ne hsame,h.agree]
        refine exists_congr fun registration => ?_
        rw [mem_filter,and_assoc]
        refine and_congr_right fun _ => (and_iff_right_of_imp fun hregistration => ?_).symm
        exact decide_eq_true (hregistration.2 ▸ hsame)
    · obtain ⟨hvalid,hmatch,howes⟩ := h.underWay update hupdate
      have hpassed := hcareful.2 update hupdate
      refine ⟨?_,hmatch,fun registration hregistration hkey hkept => ?_⟩
      · rw [hvalid,hpassed]
        rfl
      · refine (howes registration hregistration hkey (not_mem_of_not_mem_cons hkept)).imp_right fun hpending => ?_
        exact MonitorMap.mem_pendingMonitors_unregister h.sorted hpending (ne_of_not_mem_cons hkept)
          (of_decide_eq_false hpassed)
  | update strSender notification =>
    cases hstep
    refine h.proceed nofun fun registration hregistration _ _ => .inr ?_
    exact (h.agree _ _).mpr ⟨registration,hregistration,rfl,rfl⟩
  | callbackReturns =>
    rw [ParticipantMonitors.step] at hstep
    split at hstep
    · cases hstep
    · rename_i update outer hupdates
      have hall := h.underWay
      rw [hupdates] at hall
      obtain ⟨⟨hvalid,hmatch,howes⟩,houter⟩ := forall_mem_cons.mp hall
      rw [if_pos hvalid] at hstep
      cases hstep
      have hkept : Kept fullMatch {monitors with updates := outer} :=
        ⟨h.sorted,h.nonempty,h.agree,houter,h.finished,h.registered,h.valid⟩
      refine hkept.proceed ?_ howes
      rintro it it2 ⟨⟩
      exact hmatch

/-- In every run of careful calls, whatever the names, the expressions and the growth of the memory are. -/
theorem monitors_served (h : Reaches (step fullMatch growth) Careful new monitors) : monitors.Served fullMatch := by
  have hnew : new.Kept fullMatch :=
    ⟨List.Pairwise.nil,nofun,fun _ _ => iff_of_false not_mem_nil nofun,nofun,nofun,rfl,rfl⟩
  have hkept := h.invariant hnew fun _ _ _ hbefore hcareful hstep => hbefore.step hcareful hstep
  refine ⟨hkept.registered,fun notice hnotice registration hregistration hkey hunregistered => ?_,hkept.nonempty,
    hkept.valid⟩
  exact (hkept.finished notice hnotice registration hregistration hkey hunregistered).resolve_right not_mem_nil

/-- The new capacity of a vector that is full. -/
private def doubled (capacity : Nat) : Nat := if capacity = 0 then 1 else 2 * capacity

/-- The first of two monitors unregisters the second one. -/
theorem unregistering_the_next : ∃ monitors : ParticipantMonitors,
    monitors.Served (fun key strSender => key == strSender) ∧ monitors.finished.map MonitorNotice.called = [[1]] :=
  ⟨_,monitors_served (@reaches_of_runAllowed _ _ (step (fun key strSender => key == strSender) doubled) Careful _ new _
    [.registerMonitoring "A" 1,.registerMonitoring "A" 2,.update "A" (.nameChanged "B"),.unregisterMonitoring 2,
      .callbackReturns] rfl),rfl⟩

/-- A monitor registered twice is called after it has been unregistered; one that unregisters itself leaves the loop
with an invalid iterator. -/
theorem twice_registered_or_unregistering_itself :
    (∃ monitors : ParticipantMonitors, Reaches (step (fun key strSender => key == strSender) doubled) anyAction new
      monitors ∧ monitors.strays = [1] ∧ ¬monitors.Served fun key strSender => key == strSender) ∧
    ∃ monitors : ParticipantMonitors, Reaches (step (fun key strSender => key == strSender) doubled) anyAction new
      monitors ∧ monitors.invalidAccess = true ∧ ¬monitors.Served fun key strSender => key == strSender := by
  constructor
  · refine ⟨_,@reaches_of_runActions _ _ (step _ doubled) new _ [.registerMonitoring "A" 1,.registerMonitoring "A" 1,
      .unregisterMonitoring 1,.update "A" (.nameChanged "B")] rfl,rfl,fun hserved => ?_⟩
    have hregistered := hserved.registered
    exact absurd hregistered (by decide)
  · refine ⟨_,@reaches_of_runActions _ _ (step _ doubled) new _ [.registerMonitoring "A" 1,.registerMonitoring "A" 2,
      .update "A" (.nameChanged "B"),.unregisterMonitoring 1,.callbackReturns] rfl,rfl,fun hserved => ?_⟩
    have hvalid := hserved.valid
    exact absurd hvalid (by decide)

end ParticipantMonitors

end FepParticipant.Automation
