import FepParticipant.Automation.SystemStateCollector
import Mathlib.Data.List.Induction
import Mathlib.Data.List.Dedup

/-! What the requests for the system state deliver, in terms of the messages of the participants. -/
namespace FepParticipant.Automation
open Library StateMachine List Function OrderedMap

/-- The documented order of the states. -/
def documentedWeight : State → Nat
  | .fsShutdown => 0
  | .fsError => 1
  | .fsStartup => 2
  | .fsIdle => 3
  | .fsInitializing => 4
  | .fsReady => 5
  | .fsRunning => 6

abbrev Reports := String → Option State

structure Aggregates (participants : List String) (reports : Reports) (eState : State) : Prop where
  all : ∀ name ∈ participants, (reports name).isSome
  attained : ∃ name ∈ participants, reports name = some eState
  least : ∀ name ∈ participants, ∀ other, reports name = some other → documentedWeight eState ≤ documentedWeight other

namespace StateMessage

def sender : StateMessage → String
  | .property sender _ _ | .state sender _ => sender

def eState : StateMessage → Option RemoteState
  | .property _ strPath strState =>
    if strPath = currentStateField then
      strState.map fun strState => (RemoteState.fromString strState).getD (.known .fsShutdown)
    else none
  | .state _ eState => some eState

/-- A request for the current state considers no state notification, and none considers a property once each
participant has reported. -/
def IsConsidered (participants : List String) (waiting : Bool) (reports : Reports) : StateMessage → Prop
  | .property .. => ∃ name ∈ participants, reports name = none
  | .state .. => waiting = true

instance (participants : List String) (waiting : Bool) (reports : Reports) (message : StateMessage) :
    Decidable (message.IsConsidered participants waiting reports) :=
  match message with
  | .property .. => inferInstanceAs (Decidable (∃ name ∈ participants, reports name = none))
  | .state .. => inferInstanceAs (Decidable (waiting = true))

end StateMessage
variable {name : String}

def Reports.report (reports : Reports) (message : StateMessage) : Reports :=
  match message.eState with
  | some (.known eState) => Function.update reports message.sender (some eState)
  | _ => reports

def considered (participants : List String) (waiting : Bool) (messages : List StateMessage) : Reports :=
  messages.foldl (fun reports message =>
    if message.IsConsidered participants waiting reports then reports.report message else reports) fun _ => none

def reported (messages : List StateMessage) : Reports := messages.foldl Reports.report fun _ => none

theorem arrWeight_known (eState : State) :
    arrWeight[(RemoteState.known eState).value]? = some (documentedWeight eState) := by
  cases eState <;> decide

theorem arrStates_weight (eState : State) : arrStates[documentedWeight eState]? = some eState := by
  cases eState <;> decide

/-- The state of a participant in the map. -/
def mapped : Option State → RemoteState
  | some eState => .known eState
  | none => .fsUnknown

def mapOf (participants : List String) (reports : Reports) : CollectionMap :=
  participants.map fun name => (name,mapped (reports name))

variable {participants : List String} {reports : Reports}

theorem minWeight_mapOf (hall : ∀ name ∈ participants, (reports name).isSome) (start : State) :
    ∃ eState, minWeight (mapOf participants reports) (documentedWeight start) = some (documentedWeight eState) ∧
      (eState = start ∨ ∃ name ∈ participants, reports name = some eState) ∧
      documentedWeight eState ≤ documentedWeight start ∧
      ∀ name ∈ participants, ∀ other, reports name = some other → documentedWeight eState ≤ documentedWeight other := by
  induction participants generalizing start with
  | nil => exact ⟨start,rfl,.inl rfl,le_refl _,fun name hname => by cases hname⟩
  | cons first participants ih =>
    rw [forall_mem_cons] at hall
    obtain ⟨hfirst,hall⟩ := hall
    obtain ⟨firstState,hfirst⟩ := Option.isSome_iff_exists.mp hfirst
    have hmin : ∃ next, (next = start ∨ next = firstState) ∧
        (if documentedWeight firstState < documentedWeight start then documentedWeight firstState
          else documentedWeight start) = documentedWeight next ∧
        documentedWeight next ≤ documentedWeight start ∧ documentedWeight next ≤ documentedWeight firstState := by
      by_cases hlt : documentedWeight firstState < documentedWeight start
      · exact ⟨firstState,.inr rfl,if_pos hlt,le_of_lt hlt,le_refl _⟩
      · exact ⟨start,.inl rfl,if_neg hlt,Nat.le_refl _,Nat.le_of_not_lt hlt⟩
    obtain ⟨next,hnext,hmin,hstart,hother⟩ := hmin
    obtain ⟨eState,hweight,hattained,hle,hleast⟩ := ih hall next
    refine ⟨eState,?_,?_,hle.trans hstart,?_⟩
    · simp only [mapOf,map_cons,minWeight,hfirst,mapped,arrWeight_known]
      exact (congrArg _ hmin).trans hweight
    · rcases hattained with rfl | ⟨name,hname,hreported⟩
      · rcases hnext with rfl | rfl
        · exact .inl rfl
        · exact .inr ⟨first,mem_cons_self,hfirst⟩
      · exact .inr ⟨name,mem_cons_of_mem _ hname,hreported⟩
    · rw [forall_mem_cons]
      refine ⟨fun other hreported => ?_,hleast⟩
      obtain rfl := Option.some.inj (hfirst.symm.trans hreported)
      exact hle.trans hother

theorem getAggregatedState_mapOf (hne : participants ≠ []) (hall : ∀ name ∈ participants, (reports name).isSome) :
    ∃ eState, getAggregatedState (mapOf participants reports) = some eState ∧
    Aggregates participants reports eState := by
  obtain ⟨eState,hweight,hattained,-,hleast⟩ := minWeight_mapOf hall .fsRunning
  refine ⟨eState,?_,hall,?_,hleast⟩
  · simp only [getAggregatedState,arrWeight_known,Option.bind_eq_bind,Option.bind_some,hweight,arrStates_weight]
  · rcases hattained with rfl | hattained
    · -- no state is heavier than the one the loop starts with
      obtain ⟨first,rest,rfl⟩ := exists_cons_of_ne_nil hne
      obtain ⟨other,hother⟩ := Option.isSome_iff_exists.mp (hall first mem_cons_self)
      have hle := hleast first mem_cons_self other hother
      refine ⟨first,mem_cons_self,hother.trans ?_⟩
      cases other <;> simp [documentedWeight] at hle ⊢
    · exact hattained

def answered (participants : List String) (reports : Reports) : Nat :=
  participants.countP fun name => (reports name).isSome

theorem answered_lt_iff : answered participants reports < participants.length ↔
    ∃ name ∈ participants, reports name = none := by
  have hle : answered participants reports ≤ participants.length := countP_le_length
  rw [hle.lt_iff_ne,answered,ne_eq,countP_eq_length]
  simp

theorem answered_eq_iff : answered participants reports = participants.length ↔
    ∀ name ∈ participants, (reports name).isSome :=
  countP_eq_length

theorem answered_update (hnodup : participants.Nodup) (hname : name ∈ participants)
    (eState : State) : answered participants (Function.update reports name (some eState)) =
      answered participants reports + if reports name = none then 1 else 0 := by
  induction participants with
  | nil => cases hname
  | cons first participants ih =>
    obtain ⟨hfirst,hnodup⟩ := nodup_cons.mp hnodup
    simp only [answered,countP_cons] at ih ⊢
    by_cases hsame : first = name
    · subst hsame
      have hothers : participants.countP (fun name => (Function.update reports first (some eState) name).isSome) =
          participants.countP fun name => (reports name).isSome := by
        apply countP_congr
        intro other hother
        rw [update_of_ne fun h : other = first => hfirst (h ▸ hother)]
      rw [hothers,update_self]
      cases reports first <;> simp
    · rcases mem_cons.mp hname with rfl | hname
      · exact absurd rfl hsame
      · rw [ih hnodup hname,update_of_ne hsame]
        omega

theorem mem_mapOf (hname : name ∈ participants) :
    (name,RemoteState.fsUnknown) ∈ mapOf participants reports ↔ reports name = none := by
  rw [mapOf,mem_map]
  constructor
  · rintro ⟨other,-,hentry⟩
    obtain ⟨rfl,hmapped⟩ := Prod.mk.inj hentry
    cases hreport : reports other with
    | none => rfl
    | some eState =>
      rw [hreport] at hmapped
      cases hmapped
  · intro hreport
    exact ⟨name,hname,by rw [hreport]; rfl⟩

theorem setState_mapOf (eState : State) :
    SystemStateCollector.setState (mapOf participants reports) name (.known eState) =
      mapOf participants (Function.update reports name (some eState)) := by
  rw [SystemStateCollector.setState,mapOf,mapOf,map_map]
  apply map_congr_left
  intro other hother
  by_cases hsame : other = name
  · subst hsame
    simp [mapped]
  · simp [hsame]

structure Reflects (participants : List String) (waiting : Bool) (reports : Reports)
    (collector : SystemStateCollector) : Prop where
  map : collector.mapModuleStates = mapOf participants reports
  count : collector.responsesCollected = answered participants reports
  waiting : collector.waitForSystemState = waiting
  finished : 0 < collector.eventFinished → ∀ name ∈ participants, (reports name).isSome

variable {waiting : Bool} {collector : SystemStateCollector}

theorem Reflects.congr {other : Reports} (hsame : ∀ name ∈ participants, other name = reports name)
    (h : Reflects participants waiting reports collector) : Reflects participants waiting other collector := by
  refine ⟨?_,?_,h.waiting,?_⟩
  · rw [h.map,mapOf,mapOf]
    apply map_congr_left
    intro name hname
    rw [hsame name hname]
  · rw [h.count,answered,answered]
    apply countP_congr
    intro name hname
    rw [hsame name hname]
  · intro hfinished name hname
    rw [hsame name hname]
    exact h.finished hfinished name hname

theorem onStateReceived_reflects (hnodup : participants.Nodup) (hname : name ∈ participants)
    (eState : State) (h : Reflects participants waiting reports collector) :
    Reflects participants waiting (Function.update reports name (some eState))
      (collector.onStateReceived name (.known eState)) := by
  have hcount : (if (name,.fsUnknown) ∈ collector.mapModuleStates then collector.responsesCollected + 1
      else collector.responsesCollected) =
      answered participants (Function.update reports name (some eState)) := by
    rw [answered_update hnodup hname,h.map,h.count]
    by_cases hnew : reports name = none
    · rw [if_pos ((mem_mapOf hname).mpr hnew),if_pos hnew]
    · rw [if_neg ((mem_mapOf hname).not.mpr hnew),if_neg hnew]
      rfl
  have hmap : SystemStateCollector.setState collector.mapModuleStates name (.known eState) =
      mapOf participants (Function.update reports name (some eState)) := by
    rw [h.map,setState_mapOf]
  have hlength : (mapOf participants (Function.update reports name (some eState))).length = participants.length :=
    length_map _
  rw [SystemStateCollector.onStateReceived]
  simp only [hcount,hmap,hlength]
  split
  · rename_i hall
    exact ⟨rfl,rfl,h.waiting,fun _ => answered_eq_iff.mp hall.1⟩
  · refine ⟨rfl,rfl,h.waiting,fun hfinished other hother => ?_⟩
    have hbefore := h.finished hfinished other hother
    by_cases hsame : other = name
    · rw [hsame,update_self]
      rfl
    · rw [update_of_ne hsame]
      exact hbefore

theorem lists_iff (h : Reflects participants waiting reports collector) :
    collector.lists name = true ↔ name ∈ participants := by
  rw [SystemStateCollector.lists,h.map,mapOf,any_map]
  simp [comp_def]

theorem report_of_not_mem {message : StateMessage} (hsender : message.sender ∉ participants) :
    ∀ name ∈ participants, reports.report message name = reports name := by
  intro name hname
  have hother : name ≠ message.sender := fun h => hsender (h ▸ hname)
  cases hstate : message.eState with
  | none => rw [Reports.report,hstate]
  | some eState =>
    rw [Reports.report,hstate]
    cases eState with
    | known eState => exact update_of_ne hother _ _
    | fsUnknown => rfl

section
variable (hnodup : participants.Nodup)
include hnodup

theorem update_property_reflects {sender strPath : String}
    (hsender : sender ∈ participants) {strState : Option String}
    (hknown : (StateMessage.property sender strPath strState).eState ≠ some .fsUnknown)
    (h : Reflects participants waiting reports collector) : Reflects participants waiting
      (if ∃ name ∈ participants, reports name = none then reports.report (.property sender strPath strState)
        else reports)
      (collector.update (.property sender strPath strState)) := by
  have hlists := (lists_iff h).mpr hsender
  have hopen : collector.responsesCollected < collector.mapModuleStates.length ↔
      ∃ name ∈ participants, reports name = none := by
    rw [h.count,h.map,mapOf,length_map]
    exact answered_lt_iff
  by_cases hwanted : ∃ name ∈ participants, reports name = none
  case neg =>
    have hrefused : collector.update (.property sender strPath strState) = collector :=
      if_neg fun hguard => hwanted (hopen.mp hguard.1)
    rw [if_neg hwanted,hrefused]
    exact h
  rw [if_pos hwanted,Reports.report,StateMessage.eState]
  by_cases hpath : strPath = currentStateField
  case neg =>
    have hrefused : collector.update (.property sender strPath strState) = collector :=
      if_neg fun hguard => hpath hguard.2.1
    rw [if_neg hpath,hrefused]
    exact h
  rw [StateMessage.eState,if_pos hpath] at hknown
  rw [if_pos hpath]
  cases strState with
  | none =>
    have hkeeps : collector.update (.property sender strPath none) = collector := ite_self _
    rw [hkeeps]
    exact h
  | some strState =>
    have hreceived : collector.update (.property sender strPath (some strState)) =
        collector.onStateReceived sender ((RemoteState.fromString strState).getD (.known .fsShutdown)) :=
      if_pos ⟨hopen.mpr hwanted,hpath,hlists⟩
    rw [hreceived]
    simp only [Option.map_some,ne_eq,Option.some.injEq] at hknown ⊢
    cases hstate : (RemoteState.fromString strState).getD (.known .fsShutdown) with
    | fsUnknown => exact absurd hstate hknown
    | known eState => exact onStateReceived_reflects hnodup hsender eState h

theorem update_reflects {message : StateMessage}
    (hknown : message.eState ≠ some .fsUnknown) (h : Reflects participants waiting reports collector) :
    Reflects participants waiting
      (if message.IsConsidered participants waiting reports then reports.report message else reports)
      (collector.update message) := by
  by_cases hsender : message.sender ∈ participants
  case neg =>
    have hkeeps : collector.update message = collector := by
      cases message with
      | property sender strPath strState => exact if_neg fun hguard => hsender ((lists_iff h).mp hguard.2.2)
      | state sender eState => exact if_neg fun hguard => hsender ((lists_iff h).mp hguard.2)
    rw [hkeeps]
    refine h.congr fun name hname => ?_
    by_cases hconsidered : message.IsConsidered participants waiting reports
    · rw [if_pos hconsidered]
      exact report_of_not_mem hsender name hname
    · rw [if_neg hconsidered]
  cases message with
  | property sender strPath strState => exact update_property_reflects hnodup hsender hknown h
  | state sender eState =>
    cases eState with
    | fsUnknown => exact absurd rfl hknown
    | known eState =>
      have hlists := (lists_iff h).mpr hsender
      by_cases hwaiting : waiting = true
      · have hupdate : collector.update (.state sender (.known eState)) =
            collector.onStateReceived sender (.known eState) := if_pos ⟨h.waiting.trans hwaiting,hlists⟩
        rw [hupdate]
        exact (if_pos hwaiting).symm ▸ onStateReceived_reflects hnodup hsender eState h
      · have hupdate : collector.update (.state sender (.known eState)) = collector :=
          if_neg fun hguard => hwaiting (h.waiting.symm.trans hguard.1)
        rw [hupdate]
        exact (if_neg hwaiting).symm ▸ h

theorem run_reflects {messages : List StateMessage} (hknown : ∀ message ∈ messages, message.eState ≠ some .fsUnknown)
    (h : Reflects participants waiting (fun _ => none) collector) :
    Reflects participants waiting (considered participants waiting messages) (collector.run messages) := by
  induction messages using List.reverseRecOn with
  | nil => exact h
  | append_singleton messages message ih =>
    have hbefore := ih fun other hother => hknown other (mem_append_left _ hother)
    have hlast := hknown message (mem_append_right _ mem_cons_self)
    have hstep := update_reflects hnodup hlast hbefore
    rw [SystemStateCollector.run,foldl_append,considered,foldl_append]
    exact hstep

end

namespace Collection

variable {collection : Collection} {names : List String} {mapModuleStates : CollectionMap}

/-- The participants of a request. -/
def listed (collection : Collection) (names : List String) : List String := (names.map collection.trim).dedup

theorem initLoop_spec {before : CollectionMap} (hsorted : OrderedMap.Sorted before)
    (hunknown : ∀ entry ∈ before, entry.2 = .fsUnknown) (h : collection.initLoop names before = some mapModuleStates) :
    OrderedMap.Sorted mapModuleStates ∧ (∀ entry ∈ mapModuleStates, entry.2 = .fsUnknown) ∧
      ∀ key, key ∈ mapModuleStates.map Prod.fst ↔ key ∈ names.map collection.trim ∨ key ∈ before.map Prod.fst := by
  induction names generalizing before with
  | nil =>
    cases h
    exact ⟨hsorted,hunknown,fun key => by simp⟩
  | cons name names ih =>
    rw [initLoop] at h
    split at h
    · cases h
    · have hnext : ∀ entry ∈ OrderedMap.insert (collection.trim name,RemoteState.fsUnknown) before,
          entry.2 = .fsUnknown := by
        intro entry hentry
        rcases mem_of_mem_insert hentry with rfl | hbefore
        · rfl
        · exact hunknown entry hbefore
      obtain ⟨hsorted,hunknown,hkeys⟩ := ih (sorted_insert hsorted) hnext h
      refine ⟨hsorted,hunknown,fun key => ?_⟩
      rw [hkeys,mem_keys_insert,map_cons,mem_cons,or_assoc,or_left_comm]

theorem init_spec (h : collection.init names = some mapModuleStates) :
    ∃ keys : List String, keys.Perm (collection.listed names) ∧ keys ≠ [] ∧
      mapModuleStates = mapOf keys fun _ => none := by
  rw [init] at h
  split at h
  · cases h
  · rename_i hne
    obtain ⟨hsorted,hunknown,hkeys⟩ := initLoop_spec List.Pairwise.nil (fun _ hentry => by cases hentry) h
    simp only [map_nil,not_mem_nil,or_false] at hkeys
    refine ⟨mapModuleStates.map Prod.fst,?_,?_,?_⟩
    · rw [listed,perm_ext_iff_of_nodup hsorted.nodup_keys (nodup_dedup _)]
      intro name
      rw [hkeys,mem_dedup]
    · obtain ⟨name,rest,rfl⟩ := exists_cons_of_ne_nil (by simpa using hne)
      exact ne_nil_of_mem ((hkeys (collection.trim name)).mpr mem_cons_self)
    · rw [mapOf,map_map]
      refine (map_id _).symm.trans (map_congr_left fun entry hentry => ?_)
      exact Prod.ext rfl (hunknown entry hentry)

theorem askForStates_ok {collector waited : SystemStateCollector} {tmTimeout : Int}
    (h : collection.askForStates collector names tmTimeout = some (.errNoError,waited)) :
    ∃ mapModuleStates, collection.init names = some mapModuleStates ∧
      let asked := {collector with mapModuleStates := mapModuleStates, responsesCollected := 0}
      0 < (asked.run collection.during).eventFinished ∧ waited = asked.run (collection.during ++ collection.after) := by
  rw [askForStates] at h
  split at h
  · cases h
  · rename_i mapModuleStates hinit
    dsimp only at h
    split at h
    · rename_i hfailed
      obtain ⟨hresult,-⟩ := Prod.mk.inj (Option.some.inj h)
      rw [hresult] at hfailed
      cases hfailed
    · split at h
      · rename_i hfinished
        obtain ⟨-,hwaited⟩ := Prod.mk.inj (Option.some.inj h)
        refine ⟨mapModuleStates,hinit,hfinished,?_⟩
        rw [← hwaited,SystemStateCollector.run,SystemStateCollector.run,SystemStateCollector.run,foldl_append]
      · split at h <;> cases h

end Collection
variable {messages : List StateMessage}

theorem considered_congr {keys : List String} (hmem : ∀ name, name ∈ keys ↔ name ∈ participants) :
    considered keys waiting messages = considered participants waiting messages := by
  rw [considered,considered]
  congr 1
  funext reports message
  have hiff : message.IsConsidered keys waiting reports ↔ message.IsConsidered participants waiting reports := by
    cases message with
    | property sender strPath strState => exact exists_congr fun name => and_congr_left fun _ => hmem name
    | state sender eState => exact Iff.rfl
  simp only [hiff]

theorem aggregates_congr {keys : List String} (hmem : ∀ name, name ∈ keys ↔ name ∈ participants) {eState : State}
    (h : Aggregates keys reports eState) : Aggregates participants reports eState := by
  obtain ⟨name,hname,hattained⟩ := h.attained
  exact ⟨fun name hname => h.all name ((hmem name).mpr hname),⟨name,(hmem name).mp hname,hattained⟩,
    fun name hname => h.least name ((hmem name).mpr hname)⟩

theorem reported_grow (hall : ∀ name ∈ participants, (considered participants waiting messages name).isSome)
    (more : List StateMessage) :
    ∀ name ∈ participants, (considered participants waiting (messages ++ more) name).isSome := by
  induction more using List.reverseRecOn with
  | nil => rwa [append_nil]
  | append_singleton more message ih =>
    intro name hname
    rw [← append_assoc,considered,foldl_append]
    rw [considered] at ih
    have hbefore := ih name hname
    generalize (messages ++ more).foldl _ _ = reports at hbefore ⊢
    by_cases hconsidered : message.IsConsidered participants waiting reports
    · simp only [foldl_cons,foldl_nil,if_pos hconsidered,Reports.report]
      split
      · rw [update_apply]
        split
        · rfl
        · exact hbefore
      · exact hbefore
    · simp only [foldl_cons,foldl_nil,if_neg hconsidered]
      exact hbefore

theorem considered_all
    (hall : ∀ name ∈ participants, (considered participants false messages name).isSome) (more : List StateMessage) :
    considered participants false (messages ++ more) = considered participants false messages := by
  induction more using List.reverseRecOn with
  | nil => rw [append_nil]
  | append_singleton more message ih =>
    have hrefused : ¬message.IsConsidered participants false (considered participants false messages) := by
      cases message with
      | property sender strPath strState =>
        rintro ⟨name,hname,hnone⟩
        have hsome := hall name hname
        rw [hnone] at hsome
        cases hsome
      | state sender eState => exact Bool.false_ne_true
    rw [← append_assoc,considered,foldl_append]
    rw [considered] at ih
    rw [ih]
    exact if_neg hrefused

namespace Collection

variable {collection : Collection} {names : List String} {mapModuleStates : CollectionMap}
variable {target : RemoteState} {tmTimeout : Int}

def asked (waiting : Bool) (target : RemoteState) (mapModuleStates : CollectionMap) : SystemStateCollector :=
  {SystemStateCollector.new waiting target with mapModuleStates := mapModuleStates, responsesCollected := 0}

theorem asked_reflects (keys : List String) (waiting : Bool) (target : RemoteState) :
    Reflects keys waiting (fun _ => none) (asked waiting target (mapOf keys fun _ => none)) := by
  refine ⟨rfl,?_,rfl,fun hfinished => absurd hfinished (lt_irrefl _)⟩
  exact (countP_eq_zero.mpr (by simp)).symm

theorem counts_once (h : collection.init names = some mapModuleStates)
    {received : List StateMessage} (hknown : ∀ message ∈ received, message.eState ≠ some .fsUnknown) :
    ((asked waiting target mapModuleStates).run received).responsesCollected =
      answered (collection.listed names) (considered (collection.listed names) waiting received) := by
  obtain ⟨keys,hperm,-,rfl⟩ := init_spec h
  have hnodup : keys.Nodup := hperm.nodup_iff.mpr (nodup_dedup _)
  rw [(run_reflects hnodup hknown (asked_reflects keys waiting target)).count,
    considered_congr fun name => hperm.mem_iff]
  exact hperm.countP_eq _

section
variable (hknown : ∀ message ∈ collection.during ++ collection.after, message.eState ≠ some .fsUnknown)
include hknown

theorem current_state {waited : SystemStateCollector} {target : RemoteState} {tmTimeout : Int}
    (h : collection.askForStates (.new false target) names tmTimeout = some (.errNoError,waited)) :
    ∃ keys, keys.Perm (collection.listed names) ∧ keys ≠ [] ∧
      waited.mapModuleStates = mapOf keys (considered (collection.listed names) false collection.during) ∧
      ∀ name ∈ keys, (considered (collection.listed names) false collection.during name).isSome := by
  obtain ⟨mapModuleStates,hinit,hfinished,rfl⟩ := askForStates_ok h
  obtain ⟨keys,hperm,hne,rfl⟩ := init_spec hinit
  have hnodup : keys.Nodup := hperm.nodup_iff.mpr (nodup_dedup _)
  have hstart := asked_reflects keys false target
  have hduring := run_reflects hnodup (fun message hmem => hknown message (mem_append_left _ hmem)) hstart
  have hall := hduring.finished hfinished
  have hwaited := (run_reflects hnodup hknown hstart).map
  rw [considered_all hall,considered_congr fun name => hperm.mem_iff] at hwaited
  rw [considered_congr fun name => hperm.mem_iff] at hall
  exact ⟨keys,hperm,hne,hwaited,hall⟩

theorem getSystemState_ok {output : Aggregate}
    (h : collection.getSystemState names tmTimeout = some (.errNoError,output)) :
    ∃ eState, output = .state (.known eState) ∧ Aggregates (collection.listed names)
      (considered (collection.listed names) false collection.during) eState := by
  rw [getSystemState] at h
  split at h
  · cases h
  · obtain ⟨⟨nResult,waited⟩,hasked,hresult⟩ := Option.map_eq_some_iff.mp h
    have hok : nResult = .errNoError := by
      dsimp only at hresult
      split at hresult
      · split at hresult <;> exact (Prod.mk.inj hresult).1
      · exact (Prod.mk.inj hresult).1
    subst hok
    obtain ⟨keys,hperm,hne,hmap,hall⟩ := current_state hknown hasked
    obtain ⟨eState,haggregated,haggregates⟩ := getAggregatedState_mapOf hne hall
    simp only [hmap,haggregated,isOk,beq_self_eq_true,Bool.true_or,if_true] at hresult
    exact ⟨eState,(Prod.mk.inj hresult).2.symm,aggregates_congr (fun name => hperm.mem_iff) haggregates⟩

theorem getParticipantsState_ok {output : Option CollectionMap}
    (h : collection.getParticipantsState names tmTimeout = some (.errNoError,output)) :
    let participants := collection.listed names
    (∀ name ∈ participants, (considered participants false collection.during name).isSome) ∧
      ∃ states, output = some states ∧ ∀ entry, entry ∈ states ↔ ∃ name ∈ participants, ∃ eState,
        considered participants false collection.during name = some eState ∧ entry = (name,.known eState) := by
  rw [getParticipantsState] at h
  split at h
  · cases h
  · obtain ⟨⟨nResult,waited⟩,hasked,hresult⟩ := Option.map_eq_some_iff.mp h
    have hok : nResult = .errNoError := by
      dsimp only at hresult
      split at hresult <;> exact (Prod.mk.inj hresult).1
    subst hok
    obtain ⟨keys,hperm,-,hmap,hall⟩ := current_state hknown hasked
    refine ⟨fun name hname => hall name (hperm.mem_iff.mpr hname),_,(Prod.mk.inj hresult).2.symm,?_⟩
    intro entry
    rw [hmap,mapOf,mem_map]
    constructor
    · rintro ⟨name,hname,rfl⟩
      obtain ⟨eState,heState⟩ := Option.isSome_iff_exists.mp (hall name hname)
      exact ⟨name,hperm.mem_iff.mp hname,eState,heState,by rw [heState,mapped]⟩
    · rintro ⟨name,hname,eState,heState,rfl⟩
      exact ⟨name,hperm.mem_iff.mpr hname,by rw [heState,mapped]⟩

theorem waitForSystemState_ok {target : RemoteState} {tmTimeout : Int}
    (h : collection.waitForSystemState target names tmTimeout = some .errNoError) :
    ∃ received eState, received <+: collection.during ++ collection.after ∧ target = .known eState ∧
      Aggregates (collection.listed names) (considered (collection.listed names) true received) eState := by
  rw [waitForSystemState] at h
  split at h
  · cases h
  · obtain ⟨⟨nResult,waited⟩,hasked,hresult⟩ := Option.map_eq_some_iff.mp h
    dsimp only at hresult
    split at hresult
    · rename_i hfailed
      rw [hresult] at hfailed
      cases hfailed with
      | inl htimeout => cases htimeout
      | inr hinvalid => cases hinvalid
    · split at hresult
      · rename_i htarget
        subst hresult
        -- the target is compared once more when the wait is over
        obtain ⟨mapModuleStates,hinit,hfinished,rfl⟩ := askForStates_ok hasked
        obtain ⟨keys,hperm,hne,rfl⟩ := init_spec hinit
        have hnodup : keys.Nodup := hperm.nodup_iff.mpr (nodup_dedup _)
        have hreflects := run_reflects hnodup hknown (asked_reflects keys true target)
        have hduring := run_reflects hnodup (fun message hmem => hknown message (mem_append_left _ hmem))
          (asked_reflects keys true target)
        have hall := reported_grow (hduring.finished hfinished) collection.after
        obtain ⟨eState,haggregated,haggregates⟩ := getAggregatedState_mapOf hne hall
        have hmap := hreflects.map
        rw [asked] at hmap
        rw [hmap,haggregated] at htarget
        refine ⟨_,eState,prefix_rfl,(Option.some.inj htarget).symm,?_⟩
        rw [considered_congr fun name => hperm.mem_iff] at haggregates
        exact aggregates_congr (fun name => hperm.mem_iff) haggregates
      · cases hresult

end

/-- Every participant is counted once. `GetSystemState` and `GetParticipantsState` succeed only after each has
answered, and deliver the minimum of the last considered states, or these; `WaitForSystemState` succeeds only if at
one moment the target was their minimum. -/
theorem system_state_collection
    (hknown : ∀ message ∈ collection.during ++ collection.after, message.eState ≠ some .fsUnknown) :
    let participants := collection.listed names
    (∀ mapModuleStates, collection.init names = some mapModuleStates → ∀ waiting target received,
      received <+: collection.during ++ collection.after →
        ((asked waiting target mapModuleStates).run received).responsesCollected =
          answered participants (considered participants waiting received)) ∧
    (∀ tmTimeout output, collection.getSystemState names tmTimeout = some (.errNoError,output) →
      ∃ eState, output = .state (.known eState) ∧
        Aggregates participants (considered participants false collection.during) eState) ∧
    (∀ tmTimeout output, collection.getParticipantsState names tmTimeout = some (.errNoError,output) →
      (∀ name ∈ participants, (considered participants false collection.during name).isSome) ∧
        ∃ states, output = some states ∧ ∀ entry, entry ∈ states ↔ ∃ name ∈ participants, ∃ eState,
          considered participants false collection.during name = some eState ∧ entry = (name,.known eState)) ∧
    ∀ target tmTimeout, collection.waitForSystemState target names tmTimeout = some .errNoError →
      ∃ received eState, received <+: collection.during ++ collection.after ∧ target = .known eState ∧
        Aggregates participants (considered participants true received) eState := by
  refine ⟨?_,fun _ _ h => getSystemState_ok hknown h,fun _ _ h => getParticipantsState_ok hknown h,
    fun _ _ h => waitForSystemState_ok hknown h⟩
  intro mapModuleStates hinit waiting target received hreceived
  exact counts_once hinit fun message hmem => hknown message (hreceived.subset hmem)

/-- A request to two participants, the first of which changes its state after it has answered. -/
def changing : Collection :=
  { trim := id
    registered := .errNoError
    transmitted := fun _ => .errNoError
    during := [.property "A" currentStateField (some "FS_IDLE"),.state "A" (.known .fsInitializing),
      .property "B" currentStateField (some "FS_RUNNING")]
    after := [] }

theorem system_state_collection_changing :
    changing.getSystemState ["A","B"] 5 = some (.errNoError,.state (.known .fsIdle)) ∧ ∃ eState,
      Aggregates (changing.listed ["A","B"]) (considered (changing.listed ["A","B"]) false changing.during) eState := by
  have hresult : changing.getSystemState ["A","B"] 5 = some (.errNoError,.state (.known .fsIdle)) := by
    decide +kernel
  have hknown : ∀ message ∈ changing.during ++ changing.after, message.eState ≠ some .fsUnknown := by decide +kernel
  obtain ⟨eState,-,haggregates⟩ := (system_state_collection hknown).2.1 5 _ hresult
  exact ⟨hresult,eState,haggregates⟩

/-- A state notification is not considered when only the current state is asked for: the state delivered is not the
minimum of what was reported last. -/
theorem notification_not_considered :
    changing.getSystemState ["A","B"] 5 = some (.errNoError,.state (.known .fsIdle)) ∧
      reported changing.during "A" = some .fsInitializing ∧
      ¬Aggregates (changing.listed ["A","B"]) (reported (changing.during ++ changing.after)) .fsIdle := by
  refine ⟨by decide +kernel,by decide +kernel,fun haggregates => ?_⟩
  have hattained : ¬∃ name ∈ changing.listed ["A","B"],
      reported (changing.during ++ changing.after) name = some .fsIdle := by decide +kernel
  exact hattained haggregates.attained

end Collection
end FepParticipant.Automation
