import FepParticipant.Incident
import FepParticipant.Result
import FepParticipant.Library.CircularList
import FepParticipant.Library.Reachability

/-! The incident history: two buffers, of which one takes the incidents and the other may be handed out. -/
namespace FepParticipant.Incidents
open Library Nat Option List

/-- `tIncidentEntry`, whose texts are what fits into their arrays. -/
structure IncidentEntry where
  nTimeStamp : Int
  nIncident : Int
  eSeverity : SeverityLevel
  strSource : String
  strMessage : String
  strOrigin : String
  tmSimTime : Int

/-- What a strategy is told of an incident, with the time at which it is told. -/
structure HandledIncident where
  nTimeStamp : Int
  nIncident : Int
  severity : SeverityLevel
  tmSimTime : Int
  strDescription : String

/-- `sHistoryInternal`. -/
structure HistoryInternal where
  incidents : List IncidentEntry
  bLocked : Bool
  nNumEntries : Nat

namespace HistoryInternal

def new : HistoryInternal := ⟨[],false,0⟩

variable (history : HistoryInternal)

/-- There is no successor where an empty deque would be popped. -/
def pushBack (sEntry : IncidentEntry) : Option HistoryInternal :=
  if history.incidents.length = history.nNumEntries then
    match history.incidents with
    | [] => none
    | _::rest => some {history with incidents := rest ++ [sEntry]}
  else some {history with incidents := history.incidents ++ [sEntry]}

def lock : HistoryInternal × Result :=
  if !history.bLocked then ({history with bLocked := true},.errNoError) else (history,.errAccessDenied)

def unlock : HistoryInternal × Result :=
  if history.bLocked then ({history with bLocked := false},.errNoError) else (history,.errAccessDenied)

def resize (nNumEntries : Nat) : HistoryInternal := {history with nNumEntries := nNumEntries}

def clear : HistoryInternal := {history with incidents := []}

end HistoryInternal

/-- `cIncidentHistoryStrategy`; the two pointers to the buffers are the buffers. -/
structure IncidentHistoryStrategy where
  writeHistory : HistoryInternal
  readHistory : HistoryInternal
  bEnabled : Bool
  sIncidentEntry : IncidentEntry

namespace IncidentHistoryStrategy

def new (bEnabled : Bool) (sIncidentEntry : IncidentEntry) : IncidentHistoryStrategy :=
  ⟨HistoryInternal.new.resize 1,HistoryInternal.new.resize 1,bEnabled,sIncidentEntry⟩

variable (strategy : IncidentHistoryStrategy)

def entryOf (strSource : String) (strOrigin : Option String) (incident : HandledIncident) : IncidentEntry :=
  ⟨incident.nTimeStamp,incident.nIncident,incident.severity,strSource,incident.strDescription,
    strOrigin.getD strategy.sIncidentEntry.strOrigin,incident.tmSimTime⟩

def pushEntry (sEntry : IncidentEntry) : Option (IncidentHistoryStrategy × Result) :=
  (strategy.writeHistory.pushBack sEntry).map fun history =>
    ({strategy with writeHistory := history, sIncidentEntry := sEntry},.errNoError)

/-- `pModuleContext` is given by its name. -/
def handleLocalIncident (pModuleContext : Option String) (strOrigin : Option String) (incident : HandledIncident) :
    Option (IncidentHistoryStrategy × Result) :=
  match strategy.bEnabled, pModuleContext with
  | true, some strSource => strategy.pushEntry (strategy.entryOf strSource strOrigin incident)
  | _, _ => some (strategy,.errNoError)

def handleGlobalIncident (strSource : String) (incident : HandledIncident) :
    Option (IncidentHistoryStrategy × Result) :=
  if strategy.bEnabled then strategy.pushEntry (strategy.entryOf strSource none incident)
  else some (strategy,.errNoError)

def purgeHistory : IncidentHistoryStrategy × Result :=
  ({strategy with writeHistory := strategy.writeHistory.clear, readHistory := strategy.readHistory.clear},
    .errNoError)

/-- What is between the two iterators is handed out with the result. -/
def lockHistory : IncidentHistoryStrategy × Result × List IncidentEntry :=
  if !strategy.bEnabled then (strategy,.errNotReady,[])
  else if strategy.readHistory.bLocked then (strategy,.errDeviceInUse,[])
  else if strategy.writeHistory.incidents.isEmpty then (strategy,.errEmpty,[])
  else
    let (locked,result) := strategy.writeHistory.lock
    if isFailed result then (strategy,.errAccessDenied,[])
    else ({strategy with writeHistory := strategy.readHistory.clear, readHistory := locked},.errNoError,
      locked.incidents)

def unlockHistory : IncidentHistoryStrategy × Result :=
  let (unlocked,result) := strategy.readHistory.unlock
  if isOk result then ({strategy with readHistory := unlocked.clear},result) else (strategy,result)

/-- `RefreshConfiguration` for the property `nQueueSize`, with what `GetValue` gives. -/
def refreshQueueSize (getValue : Except Result Nat) : IncidentHistoryStrategy × Result :=
  if strategy.writeHistory.bLocked || strategy.readHistory.bLocked then (strategy,.errAccessDenied)
  else match getValue with
    | .error result => (strategy,result)
    | .ok nValue =>
      ({ strategy with
        writeHistory := strategy.writeHistory.resize nValue
        readHistory := strategy.readHistory.resize nValue },.errNoError)

end IncidentHistoryStrategy

inductive HistoryAction where
  | handleLocalIncident (pModuleContext : Option String) (strOrigin : Option String) (incident : HandledIncident)
  | handleGlobalIncident (strSource : String) (incident : HandledIncident)
  | refreshQueueSize (getValue : Except Result Nat)
  | lockHistory
  | unlockHistory
  | purgeHistory

namespace IncidentHistoryStrategy

/-- The strategy after an action and what the action returned; no successor where the behaviour is undefined. -/
def call (strategy : IncidentHistoryStrategy) : HistoryAction → Option (IncidentHistoryStrategy × Result)
  | .handleLocalIncident pModuleContext strOrigin incident =>
    strategy.handleLocalIncident pModuleContext strOrigin incident
  | .handleGlobalIncident strSource incident => strategy.handleGlobalIncident strSource incident
  | .refreshQueueSize getValue => some (strategy.refreshQueueSize getValue)
  | .lockHistory =>
    let (next,result,_) := strategy.lockHistory
    some (next,result)
  | .unlockHistory => some strategy.unlockHistory
  | .purgeHistory => some strategy.purgeHistory

def appended (strategy : IncidentHistoryStrategy) : HistoryAction → Option IncidentEntry
  | .handleLocalIncident (some strSource) strOrigin incident => some (strategy.entryOf strSource strOrigin incident)
  | .handleGlobalIncident strSource incident => some (strategy.entryOf strSource none incident)
  | .handleLocalIncident none _ _ | .refreshQueueSize _ | .lockHistory | .unlockHistory | .purgeHistory => none

end IncidentHistoryStrategy

/-- The most recent incidents of those handled since the history was last emptied, and those that are handed out. -/
structure HistoryWindow where
  window : List IncidentEntry
  handled : List IncidentEntry
  handedOut : Option (List IncidentEntry)
  suffix : window <:+ handled

namespace HistoryWindow

def new : HistoryWindow := ⟨[],[],none,suffix_refl _⟩

variable (history : HistoryWindow)

/-- An entry pushes out what has no room. -/
def append (count : Nat) (sEntry : IncidentEntry) : HistoryWindow where
  window := keepLast count (history.window ++ [sEntry])
  handled := history.handled ++ [sEntry]
  handedOut := history.handedOut
  suffix := by
    obtain ⟨dropped,hdropped⟩ := history.suffix
    refine keepLast_suffix.trans ⟨dropped,?_⟩
    rw [← append_assoc,hdropped]

def resize (count : Nat) : HistoryWindow where
  window := keepLast count history.window
  handled := history.handled
  handedOut := history.handedOut
  suffix := keepLast_suffix.trans history.suffix

def purge : HistoryWindow := ⟨[],[],history.handedOut,suffix_refl _⟩

def handOut : HistoryWindow := ⟨[],[],some history.window,suffix_refl _⟩

def release : HistoryWindow := {history with handedOut := none}

def observe (strategy next : IncidentHistoryStrategy) (result : Result) (action : HistoryAction) : HistoryWindow :=
  match action with
  | .handleLocalIncident .. | .handleGlobalIncident .. =>
    match strategy.appended action with
    | none => history
    | some sEntry => history.append next.writeHistory.nNumEntries sEntry
  | .refreshQueueSize _ => history.resize next.writeHistory.nNumEntries
  | .lockHistory => if isOk result then history.handOut else history
  | .unlockHistory => if isOk result then history.release else history
  | .purgeHistory => history.purge

end HistoryWindow

/-- A strategy with the window it is to hold. -/
structure ObservedHistory where
  strategy : IncidentHistoryStrategy
  history : HistoryWindow

namespace ObservedHistory

def new (sEntry : IncidentEntry) : ObservedHistory := ⟨.new true sEntry,.new⟩

def step (observed : ObservedHistory) (action : HistoryAction) : Option ObservedHistory :=
  (observed.strategy.call action).map fun outcome =>
    ⟨outcome.1,observed.history.observe observed.strategy outcome.1 outcome.2 action⟩

/-- The history that is written holds the window and no more entries than are configured, and what is handed out is
still there. -/
structure Faithful (observed : ObservedHistory) : Prop where
  bounded : observed.strategy.writeHistory.incidents.length ≤ observed.strategy.writeHistory.nNumEntries
  recent : observed.strategy.writeHistory.incidents = observed.history.window
  handedOut (entries : List IncidentEntry) :
    observed.history.handedOut = some entries → observed.strategy.readHistory.incidents = entries

/-- The action pops no empty history, and leaves the strategy faithful. -/
def Keeps (observed : ObservedHistory) (action : HistoryAction) : Prop :=
  ∃ next, observed.step action = some next ∧ next.Faithful

end ObservedHistory

/-- No incident is handled while the configured number is zero, no accepted number is below the number of entries,
and a locked history is not purged. -/
def IncidentHistoryStrategy.Careful (strategy : IncidentHistoryStrategy) : HistoryAction → Prop
  | .handleLocalIncident (some _) .. | .handleGlobalIncident .. => strategy.writeHistory.nNumEntries ≠ 0
  | .refreshQueueSize (.ok nValue) =>
    strategy.readHistory.bLocked = true ∨ strategy.writeHistory.incidents.length ≤ nValue
  | .purgeHistory => strategy.readHistory.bLocked = false
  | .handleLocalIncident none .. | .refreshQueueSize (.error _) | .lockHistory | .unlockHistory => True

theorem HistoryInternal.pushBack_eq {history : HistoryInternal} (h : history.incidents.length ≤ history.nNumEntries)
    (hroom : history.nNumEntries ≠ 0) (sEntry : IncidentEntry) : history.pushBack sEntry =
      some {history with incidents := keepLast history.nNumEntries (history.incidents ++ [sEntry])} := by
  unfold pushBack
  by_cases hfull : history.incidents.length = history.nNumEntries
  · rw [if_pos hfull]
    cases hincidents : history.incidents with
    | nil => exact absurd (hfull.symm.trans (by rw [hincidents]; rfl)) hroom
    | cons first rest => rw [keepLast_append_of_full (hincidents ▸ hfull)]
  · rw [if_neg hfull,keepLast_of_le]
    rw [length_append,length_singleton]
    omega

namespace ObservedHistory
variable {observed next : ObservedHistory}
variable {sEntry : IncidentEntry}

/-- What careful calls keep. -/
structure Inv (observed : ObservedHistory) : Prop extends Faithful observed where
  enabled : observed.strategy.bEnabled = true
  sameCount : observed.strategy.readHistory.nNumEntries = observed.strategy.writeHistory.nNumEntries
  unlocked : observed.strategy.writeHistory.bLocked = false
  locked : observed.strategy.readHistory.bLocked = observed.history.handedOut.isSome
  released : observed.history.handedOut = none → observed.strategy.readHistory.incidents = []
  nonempty : observed.history.handedOut ≠ some []

theorem inv_new (sEntry : IncidentEntry) : (new sEntry).Inv where
  bounded := zero_le _
  recent := rfl
  handedOut _ h := nomatch h
  enabled := rfl
  sameCount := rfl
  unlocked := rfl
  locked := rfl
  released _ := rfl
  nonempty h := nomatch h

theorem inv_push (h : observed.Inv) (hroom : observed.strategy.writeHistory.nNumEntries ≠ 0) :
    ∃ next result, observed.strategy.pushEntry sEntry = some (next,result) ∧
      Inv ⟨next,observed.history.append next.writeHistory.nNumEntries sEntry⟩ := by
  refine ⟨_,_,by rw [IncidentHistoryStrategy.pushEntry,HistoryInternal.pushBack_eq h.bounded hroom]; rfl,?_⟩
  exact {
    bounded := by
      rw [length_keepLast]
      exact min_le_right _ _
    recent := by
      dsimp only [HistoryWindow.append]
      rw [h.recent]
    handedOut := h.handedOut
    enabled := h.enabled
    sameCount := h.sameCount
    unlocked := h.unlocked
    locked := h.locked
    released := h.released
    nonempty := h.nonempty }

theorem resize_of_le {history : HistoryWindow} {count : Nat} (h : history.window.length ≤ count) :
    history.resize count = history := by
  cases history with
  | mk window handled handedOut suffix =>
    simp only [HistoryWindow.resize,HistoryWindow.mk.injEq,and_true]
    exact keepLast_of_le h

variable {action : HistoryAction}

theorem step_appended (henabled : observed.strategy.bEnabled = true)
    (h : observed.strategy.appended action = some sEntry) :
    observed.step action = (observed.strategy.pushEntry sEntry).map fun outcome =>
      ⟨outcome.1,observed.history.append outcome.1.writeHistory.nNumEntries sEntry⟩ := by
  cases action with
  | handleLocalIncident pModuleContext strOrigin incident =>
    cases pModuleContext with
    | none => cases h
    | some strSource =>
      cases h
      rw [step,IncidentHistoryStrategy.call,IncidentHistoryStrategy.handleLocalIncident]
      · rfl
      · exact henabled
  | handleGlobalIncident strSource incident =>
    cases h
    rw [step,IncidentHistoryStrategy.call,IncidentHistoryStrategy.handleGlobalIncident,if_pos henabled]
    rfl
  | refreshQueueSize getValue => cases h
  | lockHistory => cases h
  | unlockHistory => cases h
  | purgeHistory => cases h

section
variable (h : observed.Inv)
include h

theorem step_inv_appended (happended : observed.strategy.appended action = some sEntry)
    (hroom : observed.strategy.writeHistory.nNumEntries ≠ 0) : ∃ next, observed.step action = some next ∧ next.Inv := by
  obtain ⟨next,result,hpush,hinv⟩ := inv_push h hroom
  exact ⟨_,by rw [step_appended h.enabled happended,hpush]; rfl,hinv⟩

theorem step_appended_none (happended : observed.strategy.appended action = some sEntry)
    (hroom : observed.strategy.writeHistory.nNumEntries = 0) : observed.step action = none := by
  have hincidents : observed.strategy.writeHistory.incidents = [] :=
    eq_nil_of_length_eq_zero (le_zero.mp (hroom ▸ h.bounded))
  have hpush : observed.strategy.writeHistory.pushBack sEntry = none := by
    rw [HistoryInternal.pushBack,hincidents,hroom]
    rfl
  rw [step_appended h.enabled happended,IncidentHistoryStrategy.pushEntry,hpush]
  rfl

theorem inv_refreshQueueSize {getValue : Except Result Nat}
    (hcareful : observed.strategy.Careful (.refreshQueueSize getValue)) :
    Inv ⟨(observed.strategy.refreshQueueSize getValue).1,
      observed.history.resize (observed.strategy.refreshQueueSize getValue).1.writeHistory.nNumEntries⟩ := by
  have hsame := resize_of_le (h.recent ▸ h.bounded)
  unfold IncidentHistoryStrategy.refreshQueueSize
  rw [h.unlocked,Bool.false_or]
  cases hlocked : observed.strategy.readHistory.bLocked with
  | true =>
    rw [if_pos rfl,hsame]
    exact h
  | false =>
    rw [if_neg Bool.false_ne_true]
    cases getValue with
    | error result =>
      rw [hsame]
      exact h
    | ok nValue =>
      have hroom : observed.strategy.writeHistory.incidents.length ≤ nValue :=
        hcareful.resolve_left fun hno => Bool.noConfusion (hlocked.symm.trans hno)
      have hresized : observed.history.resize nValue = observed.history := resize_of_le (h.recent ▸ hroom)
      dsimp only [HistoryInternal.resize]
      rw [hresized]
      exact {h with bounded := hroom, sameCount := rfl}

theorem inv_lockHistory : Inv ⟨observed.strategy.lockHistory.1,
      if isOk observed.strategy.lockHistory.2.1 then observed.history.handOut else observed.history⟩ := by
  unfold IncidentHistoryStrategy.lockHistory
  rw [h.enabled,Bool.not_true,if_neg Bool.false_ne_true]
  cases hlocked : observed.strategy.readHistory.bLocked with
  | true => exact h
  | false =>
    by_cases hempty : observed.strategy.writeHistory.incidents.isEmpty = true
    · rw [if_pos hempty]
      exact h
    · rw [if_neg hempty,HistoryInternal.lock,h.unlocked]
      exact {
        bounded := zero_le _
        recent := rfl
        handedOut := fun entries hentries => h.recent.trans (some.inj hentries)
        enabled := rfl
        sameCount := h.sameCount.symm
        unlocked := hlocked
        locked := rfl
        released := fun hno => nomatch hno
        nonempty := fun hno => hempty (by rw [h.recent,some.inj hno]; rfl) }

private theorem inv_unlockHistory : Inv ⟨observed.strategy.unlockHistory.1,
      if isOk observed.strategy.unlockHistory.2 then observed.history.release else observed.history⟩ := by
  unfold IncidentHistoryStrategy.unlockHistory HistoryInternal.unlock
  cases hlocked : observed.strategy.readHistory.bLocked with
  | false => exact h
  | true =>
    exact { h with
      handedOut := fun _ hno => nomatch hno
      locked := rfl
      released := fun _ => rfl
      nonempty := fun hno => nomatch hno }

private theorem inv_purgeHistory (hcareful : observed.strategy.Careful .purgeHistory) :
    Inv ⟨observed.strategy.purgeHistory.1,observed.history.purge⟩ := by
  have hnone : observed.history.handedOut = none := by
    rw [← not_isSome_iff_eq_none,← h.locked,hcareful]
    exact Bool.false_ne_true
  exact { h with
    bounded := zero_le _
    recent := rfl
    handedOut := fun entries hno => nomatch hnone.symm.trans hno
    released := fun _ => rfl }

theorem step_careful (hcareful : observed.strategy.Careful action) :
    ∃ next, observed.step action = some next ∧ next.Inv := by
  cases action with
  | handleLocalIncident pModuleContext strOrigin incident =>
    cases pModuleContext with
    | none =>
      refine ⟨observed,?_,h⟩
      rw [step,IncidentHistoryStrategy.call,IncidentHistoryStrategy.handleLocalIncident]
      · rfl
      · exact fun _ _ hno => nomatch hno
    | some strSource => exact step_inv_appended h rfl hcareful
  | handleGlobalIncident strSource incident => exact step_inv_appended h rfl hcareful
  | refreshQueueSize getValue => exact ⟨_,rfl,inv_refreshQueueSize h hcareful⟩
  | lockHistory => exact ⟨_,rfl,inv_lockHistory h⟩
  | unlockHistory => exact ⟨_,rfl,inv_unlockHistory h⟩
  | purgeHistory => exact ⟨_,rfl,inv_purgeHistory h hcareful⟩

private theorem not_keeps_purgeHistory (hlocked : observed.strategy.readHistory.bLocked = true) :
    ¬observed.Keeps .purgeHistory := by
  rintro ⟨next,hstep,hfaithful⟩
  cases hstep
  obtain ⟨entries,hentries⟩ := isSome_iff_exists.mp (h.locked.symm.trans hlocked)
  have hempty : [] = entries := hfaithful.handedOut entries hentries
  exact h.nonempty (hempty ▸ hentries)

private theorem not_keeps_refreshQueueSize (hlocked : observed.strategy.readHistory.bLocked = false)
    {nValue : Nat} (hsmall : nValue < observed.strategy.writeHistory.incidents.length) :
    ¬observed.Keeps (.refreshQueueSize (.ok nValue)) := by
  rintro ⟨next,hstep,hfaithful⟩
  cases hstep
  have hbounded := hfaithful.bounded
  simp only [IncidentHistoryStrategy.refreshQueueSize,h.unlocked,hlocked,Bool.or_self,Bool.false_eq_true,
    if_false,HistoryInternal.resize] at hbounded
  exact absurd hbounded (Nat.not_le_of_lt hsmall)

theorem keeps_iff (action : HistoryAction) : observed.Keeps action ↔ observed.strategy.Careful action := by
  constructor
  · intro hkeeps
    obtain ⟨next,hstep,hfaithful⟩ := hkeeps
    have hroom {sEntry : IncidentEntry} (happended : observed.strategy.appended action = some sEntry) :
        observed.strategy.writeHistory.nNumEntries ≠ 0 := by
      intro hzero
      rw [step_appended_none h happended hzero] at hstep
      cases hstep
    cases action with
    | handleLocalIncident pModuleContext strOrigin incident =>
      cases pModuleContext with
      | none => trivial
      | some strSource => exact hroom rfl
    | handleGlobalIncident strSource incident => exact hroom rfl
    | refreshQueueSize getValue =>
      cases getValue with
      | error result => trivial
      | ok nValue =>
        refine Classical.or_iff_not_imp_left.mpr fun hunlocked => not_lt.mp fun hsmall => ?_
        exact not_keeps_refreshQueueSize h (Bool.not_eq_true _ ▸ hunlocked) hsmall ⟨next,hstep,hfaithful⟩
    | lockHistory => trivial
    | unlockHistory => trivial
    | purgeHistory =>
      exact Bool.eq_false_iff.mpr fun hlocked => not_keeps_purgeHistory h hlocked ⟨next,hstep,hfaithful⟩
  · intro hcareful
    obtain ⟨next,hstep,hinv⟩ := step_careful h hcareful
    exact ⟨next,hstep,hinv.toFaithful⟩

end

/-- In a run every action keeps the strategy faithful exactly if all are careful. -/
theorem history_window_iff (sEntry : IncidentEntry) (actions : List HistoryAction) :
    Throughout step Keeps (new sEntry) actions ↔
      Throughout step (fun observed action => observed.strategy.Careful action) (new sEntry) actions := by
  have hstep (observed : ObservedHistory) (action : HistoryAction) (next : ObservedHistory) (h : observed.Inv)
      (hcareful : observed.strategy.Careful action) (hnext : observed.step action = some next) : next.Inv := by
    obtain ⟨other,hother,hinv⟩ := step_careful h hcareful
    exact some.inj (hother.symm.trans hnext) ▸ hinv
  exact throughout_iff (fun observed action h => keeps_iff h action) hstep (inv_new sEntry) actions

/-- A number of entries that is made smaller than the history leaves too many in it. -/
theorem shrunk_history : ¬∀ (sEntry : IncidentEntry) (actions : List HistoryAction),
    Throughout step Keeps (new sEntry) actions := by
  intro h
  obtain ⟨-,h⟩ := h ⟨0,0,.info,"","","",0⟩ [.refreshQueueSize (.ok 2),
    .handleGlobalIncident "Camera" ⟨1,5,.warning,1,"first"⟩,
    .handleGlobalIncident "Camera" ⟨2,5,.warning,2,"second"⟩,.refreshQueueSize (.ok 1)]
  obtain ⟨-,h⟩ := h _ rfl
  obtain ⟨-,h⟩ := h _ rfl
  obtain ⟨⟨next,hstep,hfaithful⟩,-⟩ := h _ rfl
  cases hstep
  exact absurd hfaithful.bounded (by decide)

end ObservedHistory
end FepParticipant.Incidents
