import FepParticipant.Automation.AutomationRequests
import FepParticipant.Automation.SystemStateCollection
import FepParticipant.Library.MachineWord

/-! How the tooling waits for participants to reach a state, and the participants it reports when they do not. -/
namespace FepParticipant.Tooling
open Library Automation StateMachine List Option Bool

/-- What a poll of the states depends on, and the time in microseconds when it is over. -/
structure Poll where
  registered : Result
  transmitted : String → Result
  during : List StateMessage
  after : List StateMessage
  now : Int

/-- What an operation depends on: how names are trimmed, the results of the events, the time when the polls
begin, and the polls. -/
structure Attempt where
  trim : String → String
  triggerEvent : ControlEvent → String → Result
  started : Int
  polls : List Poll

def maxTimeoutMs : Nat := 5000

def transitionMultiplier : Nat := 5

/-- What is found in the map, or `FS_UNKNOWN`. -/
def findState (stateMap : CollectionMap) (p : String) : RemoteState :=
  match stateMap.find? fun entry => entry.1 == p with
  | some entry => entry.2
  | none => .fsUnknown

namespace Attempt

/-- `GetParticipantsState` with an empty map. -/
def getParticipantsState (attempt : Attempt) (participants : List String) (timeoutTm : Nat) (poll : Poll) :
    Option (Result × CollectionMap) :=
  -- several small lookups instead of one long
  let timeoutLimiter := if timeoutTm > maxTimeoutMs then maxTimeoutMs else timeoutTm
  let collection : Collection := ⟨attempt.trim,poll.registered,poll.transmitted,poll.during,poll.after⟩
  (collection.getParticipantsState participants timeoutLimiter).map fun (res,stateMap) => (res,stateMap.getD [])

/-- The end of the wait. -/
def deadline (attempt : Attempt) (timeoutTm : Nat) : Int :=
  wrap64 (attempt.started + timeoutTm * transitionMultiplier * 1000)

def expires (attempt : Attempt) (timeoutTm : Nat) (poll : Poll) : Bool :=
  let remaining := attempt.deadline timeoutTm - poll.now
  remaining < wrap64 timeoutTm

/-- The loop of `awaitParticipantsState`; none if the polls are not enough to end it. -/
def pollLoop (attempt : Attempt) (participants : List String) (predicate : RemoteState → Bool)
    (states : CollectionMap) (timeoutTm : Nat) : List Poll → Option (Bool × CollectionMap)
  | [] => none
  | poll::polls =>
    match attempt.getParticipantsState participants timeoutTm poll with
    | none => none
    | some (res,stateMap) =>
      if (isOk res || res == .errTimeout) && stateMap.all fun p => predicate p.2 then some (true,states)
      else if attempt.expires timeoutTm poll then
        some (false,OrderedMap.ofEntries (participants.map fun p => (p,findState stateMap p)))
      else attempt.pollLoop participants predicate states timeoutTm polls

def awaitParticipantsState (attempt : Attempt) (participants : List String) (predicate : RemoteState → Bool)
    (states : CollectionMap) (timeoutTm : Nat) : Option (Bool × CollectionMap) :=
  if participants.isEmpty then some (true,states)
  else attempt.pollLoop participants predicate states timeoutTm attempt.polls

/-- What the operations have in common: if the wait fails, the participants whose state `isListed` replace the
failed ones. -/
def awaitOrList (attempt : Attempt) (participants failedParticipants : List String)
    (predicate isListed : RemoteState → Bool) (timeoutTm : Nat) : Option (Bool × List String) :=
  (attempt.awaitParticipantsState participants predicate [] timeoutTm).map fun (res,actualStates) =>
    if res then (res,failedParticipants)
    else (res,(actualStates.filter fun p => isListed p.2).map Prod.fst)

def awaitParticipants (attempt : Attempt) (baseTimeoutMs : Nat) (participants failedParticipants : List String) :
    Option (Bool × List String) :=
  attempt.awaitOrList participants failedParticipants (fun s => s != .fsUnknown)
    (fun s => s == .fsUnknown || s == .known .fsShutdown) baseTimeoutMs

def awaitParticipantsIdle (attempt : Attempt) (baseTimeoutMs : Nat) (participants failedParticipants : List String) :
    Option (Bool × List String) :=
  attempt.awaitOrList participants failedParticipants (fun s => s == .known .fsIdle) (fun s => s != .known .fsIdle)
    baseTimeoutMs

/-- The loop that sends the events, which ends with the first failure. -/
def sendEvents (attempt : Attempt) (ev : ControlEvent) : List String → Bool
  | [] => true
  | p::participants => if isFailed (attempt.triggerEvent ev p) then false else attempt.sendEvents ev participants

def triggerParticipants (attempt : Attempt) (participants failedParticipants : List String) (ev : ControlEvent)
    (state : RemoteState) (timeoutTm : Nat) : Option (Bool × List String) :=
  if attempt.sendEvents ev participants then
    attempt.awaitOrList participants failedParticipants
      (fun s => s == state || (s == .fsUnknown && state == .known .fsShutdown)) (fun s => s != state) timeoutTm
  else some (false,failedParticipants)

def initParticipants (attempt : Attempt) (timeoutMs : Nat) (participants failedParticipants : List String) :
    Option (Bool × List String) :=
  attempt.triggerParticipants participants failedParticipants .ceInitialize (.known .fsReady) timeoutMs

def startParticipants (attempt : Attempt) (timeoutMs : Nat) (participants failedParticipants : List String) :
    Option (Bool × List String) :=
  attempt.triggerParticipants participants failedParticipants .ceStart (.known .fsRunning) timeoutMs

def stopParticipants (attempt : Attempt) (timeoutMs : Nat) (participants failedParticipants : List String) :
    Option (Bool × List String) :=
  attempt.triggerParticipants participants failedParticipants .ceStop (.known .fsIdle) timeoutMs

def shutdownParticipants (attempt : Attempt) (timeoutMs : Nat) (participants failedParticipants : List String) :
    Option (Bool × List String) :=
  attempt.triggerParticipants participants failedParticipants .ceShutdown (.known .fsShutdown) timeoutMs

end Attempt
variable {collector : SystemStateCollector}

theorem keys_run (collector : SystemStateCollector) (messages : List StateMessage) :
    (collector.run messages).mapModuleStates.map Prod.fst = collector.mapModuleStates.map Prod.fst := by
  have hreceived (collector : SystemStateCollector) (name : String) (eState : RemoteState) :
      (collector.onStateReceived name eState).mapModuleStates.map Prod.fst =
        collector.mapModuleStates.map Prod.fst := by
    have hset : (SystemStateCollector.setState collector.mapModuleStates name eState).map Prod.fst =
        collector.mapModuleStates.map Prod.fst := by
      rw [SystemStateCollector.setState,List.map_map]
      apply map_congr_left
      intro entry _
      dsimp only [Function.comp]
      split <;> rfl
    unfold SystemStateCollector.onStateReceived
    -- the counter and the event do not matter
    dsimp only
    generalize (if (name,RemoteState.fsUnknown) ∈ collector.mapModuleStates then collector.responsesCollected + 1
      else collector.responsesCollected) = responsesCollected
    split <;> exact hset
  induction messages generalizing collector with
  | nil => rfl
  | cons message messages ih =>
    refine (ih (collector.update message)).trans ?_
    cases message with
    | property sender strPath strState =>
      cases strState with
      | some strState =>
        simp only [SystemStateCollector.update]
        split
        · exact hreceived _ _ _
        · rfl
      | none => simp only [SystemStateCollector.update,ite_self]
    | state sender eState =>
      simp only [SystemStateCollector.update]
      split
      · exact hreceived _ _ _
      · rfl

theorem sorted_of_keys {first second : CollectionMap} (hkeys : second.map Prod.fst = first.map Prod.fst)
    (h : OrderedMap.Sorted first) : OrderedMap.Sorted second := by
  have hfirst : (first.map Prod.fst).Pairwise (· < ·) := pairwise_map.mpr h
  rw [← hkeys] at hfirst
  exact pairwise_map.mp hfirst

/-- A map with an entry for each trimmed name and no others. -/
structure Lists (trim : String → String) (participants : List String) (stateMap : CollectionMap) : Prop where
  sorted : OrderedMap.Sorted stateMap
  keys : ∀ key, key ∈ stateMap.map Prod.fst ↔ key ∈ participants.map trim

theorem timeout_of_askForStates {collection : Collection} {participants : List String} {tmTimeout : Int}
    (h : collection.askForStates collector participants tmTimeout = none) : tmTimeout = -1 := by
  unfold Collection.askForStates at h
  split at h
  · cases h
  · dsimp only at h
    split at h
    · cases h
    · split at h
      · cases h
      · split at h
        · assumption
        · cases h

theorem askForStates_lists {collection : Collection} {participants : List String} {tmTimeout : Int}
    {res : Result} {collector waited : SystemStateCollector} (hres : (isOk res || res == .errTimeout) = true)
    (h : collection.askForStates collector participants tmTimeout = some (res,waited)) :
    Lists collection.trim participants waited.mapModuleStates := by
  rw [Collection.askForStates] at h
  split at h
  · cases h
    cases hres
  · rename_i mapModuleStates hinit
    have hmap : Lists collection.trim participants mapModuleStates := by
      rw [Collection.init] at hinit
      split at hinit
      · cases hinit
      · obtain ⟨hsorted,-,hkeys⟩ := Collection.initLoop_spec List.Pairwise.nil (fun _ hentry => by cases hentry) hinit
        exact ⟨hsorted,fun key => (hkeys key).trans (or_iff_left not_mem_nil)⟩
    have hwaited : waited.mapModuleStates.map Prod.fst = mapModuleStates.map Prod.fst := by
      dsimp only at h
      split at h
      · cases h
        exact keys_run _ _
      · split at h
        · cases h
          rw [keys_run,keys_run]
        · split at h
          · cases h
          · cases h
            rw [keys_run,keys_run]
    exact ⟨sorted_of_keys hwaited hmap.sorted,fun key => hwaited ▸ hmap.keys key⟩

namespace Attempt

variable {attempt : Attempt} {participants : List String} {timeoutTm : Nat}
variable {poll : Poll}

/-- A poll that has been successful or has timed out, and is evaluated. -/
def Completed (attempt : Attempt) (participants : List String) (timeoutTm : Nat) (poll : Poll) : Prop :=
  ∃ res stateMap, attempt.getParticipantsState participants timeoutTm poll = some (res,stateMap) ∧
    (res = .errNoError ∨ res = .errTimeout)

/-- The state of a participant in a poll, or `FS_UNKNOWN`. -/
def stateIn (attempt : Attempt) (participants : List String) (timeoutTm : Nat) (poll : Poll) (p : String) :
    RemoteState :=
  match attempt.getParticipantsState participants timeoutTm poll with
  | some (_,stateMap) => findState stateMap (attempt.trim p)
  | none => .fsUnknown

theorem getParticipantsState_ends : ∃ res stateMap,
      attempt.getParticipantsState participants timeoutTm poll = some (res,stateMap) ∧
        (if (isOk res || res == .errTimeout) = true then Lists attempt.trim participants stateMap
          else stateMap = []) := by
  rw [getParticipantsState]
  generalize (if timeoutTm > maxTimeoutMs then maxTimeoutMs else timeoutTm) = timeoutLimiter
  rw [Collection.getParticipantsState]
  split
  · exact ⟨_,_,rfl,rfl⟩
  · rename_i hpositive
    generalize hcollection : (⟨attempt.trim,poll.registered,poll.transmitted,poll.during,poll.after⟩ :
      Collection) = collection
    have htrim : collection.trim = attempt.trim := hcollection ▸ rfl
    cases hasked : collection.askForStates (.new false (.known .fsShutdown)) participants timeoutLimiter with
    | none =>
      have hendless := timeout_of_askForStates hasked
      omega
    | some outcome =>
      obtain ⟨res,waited⟩ := outcome
      by_cases hres : (isOk res || res == .errTimeout) = true
      · refine ⟨res,waited.mapModuleStates,by simp only [map_some,if_pos hres]; rfl,?_⟩
        rw [if_pos hres]
        exact htrim ▸ askForStates_lists hres hasked
      · refine ⟨res,[],by simp only [map_some,if_neg hres]; rfl,?_⟩
        rw [if_neg hres]

/-- What the loop asks of a poll. -/
def isDone (attempt : Attempt) (participants : List String) (predicate : RemoteState → Bool) (timeoutTm : Nat)
    (poll : Poll) : Bool :=
  match attempt.getParticipantsState participants timeoutTm poll with
  | some (res,stateMap) => (isOk res || res == .errTimeout) && stateMap.all fun p => predicate p.2
  | none => false

def lastStates (attempt : Attempt) (participants : List String) (timeoutTm : Nat) (poll : Poll) :
    CollectionMap :=
  match attempt.getParticipantsState participants timeoutTm poll with
  | some (_,stateMap) => OrderedMap.ofEntries (participants.map fun p => (p,findState stateMap p))
  | none => []

theorem pollLoop_eq (predicate : RemoteState → Bool) (states : CollectionMap) (polls : List Poll) :
    attempt.pollLoop participants predicate states timeoutTm polls = (polls.find? fun poll =>
        attempt.isDone participants predicate timeoutTm poll || attempt.expires timeoutTm poll).map fun poll =>
          if attempt.isDone participants predicate timeoutTm poll then (true,states)
          else (false,attempt.lastStates participants timeoutTm poll) := by
  induction polls with
  | nil => rfl
  | cons poll polls ih =>
    obtain ⟨res,stateMap,hpoll,-⟩ := getParticipantsState_ends
    have hdone : attempt.isDone participants predicate timeoutTm poll =
        ((isOk res || res == .errTimeout) && stateMap.all fun p => predicate p.2) := by
      rw [isDone,hpoll]
    have hstates : attempt.lastStates participants timeoutTm poll =
        OrderedMap.ofEntries (participants.map fun p => (p,findState stateMap p)) := by
      rw [lastStates,hpoll]
    rw [pollLoop,hpoll]
    dsimp only
    rw [← hdone,← hstates,ih,find?_cons]
    cases hcase : attempt.isDone participants predicate timeoutTm poll with
    | true => simp [hcase]
    | false => cases hexpires : attempt.expires timeoutTm poll <;> simp [hcase]

private theorem findState_of_mem {stateMap : CollectionMap} (hsorted : OrderedMap.Sorted stateMap) {key : String}
    {eState : RemoteState} (h : (key,eState) ∈ stateMap) : findState stateMap key = eState := by
  rw [findState,(OrderedMap.find?_eq_some_iff hsorted).mpr h]

theorem findState_of_not_mem {stateMap : CollectionMap} {key : String} (h : key ∉ stateMap.map Prod.fst) :
    findState stateMap key = .fsUnknown := by
  have hnone : stateMap.find? (fun entry => entry.1 == key) = none := by
    rw [find?_eq_none]
    rintro entry hentry hkey
    exact h (mem_map.mpr ⟨entry,hentry,eq_of_beq hkey⟩)
  rw [findState,hnone]

theorem isDone_iff {predicate : RemoteState → Bool} :
    attempt.isDone participants predicate timeoutTm poll = true ↔ attempt.Completed participants timeoutTm poll ∧
      ∀ p ∈ participants, predicate (attempt.stateIn participants timeoutTm poll p) = true := by
  obtain ⟨res,stateMap,hpoll,hmap⟩ := getParticipantsState_ends
  have hcompleted : (isOk res || res == .errTimeout) = true ↔ attempt.Completed participants timeoutTm poll := by
    rw [or_eq_true,isOk_iff,beq_iff_eq]
    constructor
    · exact fun hres => ⟨res,stateMap,hpoll,hres⟩
    · rintro ⟨other,otherMap,hother,hres⟩
      rw [hpoll] at hother
      cases hother
      exact hres
  simp only [isDone,stateIn,hpoll]
  rw [and_eq_true,hcompleted]
  refine and_congr_right fun h => ?_
  rw [if_pos (hcompleted.mpr h)] at hmap
  rw [List.all_eq_true]
  constructor
  · intro hall p hp
    obtain ⟨entry,hentry,hkey⟩ := mem_map.mp ((hmap.keys _).mpr (mem_map_of_mem hp))
    rw [← hkey,findState_of_mem hmap.sorted hentry]
    exact hall entry hentry
  · intro hall entry hentry
    obtain ⟨p,hp,hkey⟩ := mem_map.mp ((hmap.keys _).mp (mem_map_of_mem hentry))
    have hstate := hall p hp
    rwa [hkey,findState_of_mem hmap.sorted hentry] at hstate

theorem mem_listed_iff (htrim : ∀ name, attempt.trim (attempt.trim name) = attempt.trim name)
    (isListed : RemoteState → Bool) {p : String} :
    p ∈ ((attempt.lastStates participants timeoutTm poll).filter fun p => isListed p.2).map Prod.fst ↔
      p ∈ participants ∧ isListed (if attempt.trim p = p then attempt.stateIn participants timeoutTm poll p
        else .fsUnknown) = true := by
  obtain ⟨res,stateMap,hpoll,hmap⟩ := getParticipantsState_ends
  have hfound : (if attempt.trim p = p then attempt.stateIn participants timeoutTm poll p else .fsUnknown) =
      findState stateMap p := by
    rw [stateIn,hpoll]
    split
    · rename_i htrimmed
      rw [htrimmed]
    · rename_i huntrimmed
      refine (findState_of_not_mem fun hkey => ?_).symm
      split at hmap
      · obtain ⟨other,-,hother⟩ := mem_map.mp ((hmap.keys p).mp hkey)
        exact huntrimmed (by rw [← hother,htrim])
      · rw [hmap] at hkey
        cases hkey
  have hentries {entry : String × RemoteState}
      (h : entry ∈ OrderedMap.ofEntries (participants.map fun p => (p,findState stateMap p))) :
      entry.1 ∈ participants ∧ entry.2 = findState stateMap entry.1 := by
    obtain ⟨name,hname,rfl⟩ := mem_map.mp (OrderedMap.mem_of_mem_ofEntries h)
    exact ⟨hname,rfl⟩
  rw [hfound,lastStates,hpoll]
  constructor
  · intro h
    obtain ⟨entry,hentry,rfl⟩ := mem_map.mp h
    obtain ⟨hentry,hlisted⟩ := mem_filter.mp hentry
    obtain ⟨hname,hstate⟩ := hentries hentry
    exact ⟨hname,hstate ▸ hlisted⟩
  · rintro ⟨hname,hlisted⟩
    have hkey : p ∈ (OrderedMap.ofEntries (participants.map fun p => (p,findState stateMap p))).map Prod.fst := by
      rw [OrderedMap.mem_keys_ofEntries,List.map_map]
      exact mem_map.mpr ⟨p,hname,rfl⟩
    obtain ⟨entry,hentry,rfl⟩ := mem_map.mp hkey
    obtain ⟨-,hstate⟩ := hentries hentry
    exact mem_map_of_mem (mem_filter.mpr ⟨hentry,hstate ▸ hlisted⟩)

/-- The operation makes this poll: none of those before it ends the wait. -/
def Polls (attempt : Attempt) (timeoutTm : Nat) (poll : Poll) : Prop :=
  ∃ before after, attempt.polls = before ++ poll::after ∧
    ∀ earlier ∈ before, attempt.expires timeoutTm earlier = false

/-- The poll that ends the wait if none is done. -/
def lastPoll (attempt : Attempt) (timeoutTm : Nat) : Option Poll := attempt.polls.find? (attempt.expires timeoutTm)

theorem decides_iff {done : Poll → Bool} :
    (∃ poll, attempt.polls.find? (fun poll => done poll || attempt.expires timeoutTm poll) = some poll ∧
      done poll = true) ↔ ∃ poll, attempt.Polls timeoutTm poll ∧ done poll = true := by
  constructor
  · rintro ⟨poll,hfirst,hdone⟩
    obtain ⟨-,before,after,hpolls,hbefore⟩ := find?_eq_some_iff_append.mp hfirst
    refine ⟨poll,⟨before,after,hpolls,fun earlier hearlier => ?_⟩,hdone⟩
    have hneither := hbefore earlier hearlier
    rw [not_eq_true',or_eq_false_iff] at hneither
    exact hneither.2
  · rintro ⟨poll,⟨before,after,hpolls,hbefore⟩,hdone⟩
    rw [hpolls,find?_append]
    cases hfirst : before.find? fun poll => done poll || attempt.expires timeoutTm poll with
    | some earlier =>
      have hdecides := find?_some hfirst
      rw [hbefore earlier (mem_of_find?_eq_some hfirst),Bool.or_false] at hdecides
      exact ⟨earlier,rfl,hdecides⟩
    | none => exact ⟨poll,by rw [none_or,find?_cons,hdone]; rfl,hdone⟩

theorem decides_last {done : Poll → Bool} :
    (attempt.polls.find? (fun poll => done poll || attempt.expires timeoutTm poll) = some poll ∧ done poll = false) ↔
      (∀ other, attempt.Polls timeoutTm other → done other = false) ∧ attempt.lastPoll timeoutTm = some poll := by
  constructor
  · rintro ⟨hfirst,hdone⟩
    refine ⟨fun other hother => ?_,?_⟩
    · by_contra hnot
      obtain ⟨earlier,hearlier,hdoneEarlier⟩ := decides_iff.mpr ⟨other,hother,not_eq_false _ ▸ hnot⟩
      rw [hfirst] at hearlier
      cases hearlier
      rw [hdone] at hdoneEarlier
      cases hdoneEarlier
    · obtain ⟨hdecides,before,after,hpolls,hbefore⟩ := find?_eq_some_iff_append.mp hfirst
      rw [hdone,Bool.false_or] at hdecides
      refine find?_eq_some_iff_append.mpr ⟨hdecides,before,after,hpolls,fun earlier hearlier => ?_⟩
      have hneither := hbefore earlier hearlier
      rw [not_eq_true',or_eq_false_iff] at hneither
      rw [hneither.2]
      rfl
  · rintro ⟨hnone,hlast⟩
    obtain ⟨hexpires,before,after,hpolls,hbefore⟩ := find?_eq_some_iff_append.mp hlast
    have hlive : ∀ earlier ∈ before, attempt.expires timeoutTm earlier = false := fun earlier hearlier => by
      simpa using hbefore earlier hearlier
    refine ⟨find?_eq_some_iff_append.mpr ⟨?_,before,after,hpolls,fun earlier hearlier => ?_⟩,
      hnone poll ⟨before,after,hpolls,hlive⟩⟩
    · rw [hexpires,Bool.or_true]
    · obtain ⟨first,rest,hsplit⟩ := append_of_mem hearlier
      have hmade : attempt.Polls timeoutTm earlier :=
        ⟨first,rest ++ poll::after,by rw [hpolls,hsplit,append_assoc,cons_append],
          fun other hother => hlive other (hsplit ▸ mem_append_left _ hother)⟩
      rw [hnone earlier hmade,hlive earlier hearlier]
      rfl

def Satisfies (attempt : Attempt) (participants : List String) (condition : RemoteState → Bool) (timeoutTm : Nat)
    (poll : Poll) : Prop :=
  attempt.Completed participants timeoutTm poll ∧
    ∀ p ∈ participants, condition (attempt.stateIn participants timeoutTm poll p) = true

section
variable {failedParticipants : List String} {predicate isListed : RemoteState → Bool}

section
variable (hne : participants ≠ [])
include hne

theorem awaitOrList_eq :
    attempt.awaitOrList participants failedParticipants predicate isListed timeoutTm = (attempt.polls.find? fun poll =>
        attempt.isDone participants predicate timeoutTm poll || attempt.expires timeoutTm poll).map fun poll =>
          if attempt.isDone participants predicate timeoutTm poll then (true,failedParticipants)
          else (false,
            ((attempt.lastStates participants timeoutTm poll).filter fun p => isListed p.2).map Prod.fst) := by
  have hnonempty : ¬participants.isEmpty := by rwa [List.isEmpty_iff]
  rw [awaitOrList,awaitParticipantsState,if_neg hnonempty,pollLoop_eq,Option.map_map]
  congr 1
  funext poll
  by_cases hdone : attempt.isDone participants predicate timeoutTm poll = true <;> simp [hdone]

theorem awaitOrList_isSome (h : (attempt.lastPoll timeoutTm).isSome) :
    (attempt.awaitOrList participants failedParticipants predicate isListed timeoutTm).isSome := by
  rw [awaitOrList_eq hne,isSome_map,find?_isSome]
  obtain ⟨poll,hpoll,hexpires⟩ := find?_isSome.mp h
  exact ⟨poll,hpoll,by rw [hexpires,Bool.or_true]⟩

theorem awaitOrList_true_iff :
    (∃ failed, attempt.awaitOrList participants failedParticipants predicate isListed timeoutTm = some (true,failed)) ↔
      ∃ poll, attempt.Polls timeoutTm poll ∧ attempt.Satisfies participants predicate timeoutTm poll := by
  have hdecides := @decides_iff attempt timeoutTm (attempt.isDone participants predicate timeoutTm)
  refine Iff.trans ?_ (hdecides.trans (exists_congr fun poll => and_congr_right fun _ => isDone_iff))
  rw [awaitOrList_eq hne]
  constructor
  · rintro ⟨failed,h⟩
    obtain ⟨poll,hpoll,houtcome⟩ := map_eq_some_iff.mp h
    split at houtcome
    · exact ⟨poll,hpoll,by assumption⟩
    · cases houtcome
  · rintro ⟨poll,hpoll,hdone⟩
    exact ⟨_,by rw [hpoll,map_some,if_pos hdone]⟩

theorem awaitOrList_false_iff {failed : List String} :
    attempt.awaitOrList participants failedParticipants predicate isListed timeoutTm = some (false,failed) ↔
      (∀ poll, attempt.Polls timeoutTm poll → ¬attempt.Satisfies participants predicate timeoutTm poll) ∧
        ∃ poll, attempt.lastPoll timeoutTm = some poll ∧
          failed = ((attempt.lastStates participants timeoutTm poll).filter fun p => isListed p.2).map Prod.fst := by
  have hnone : (∀ poll, attempt.Polls timeoutTm poll → ¬attempt.Satisfies participants predicate timeoutTm poll) ↔
      ∀ poll, attempt.Polls timeoutTm poll → attempt.isDone participants predicate timeoutTm poll = false :=
    forall₂_congr fun poll _ => (not_congr isDone_iff.symm).trans (not_eq_true _).to_iff
  rw [hnone,awaitOrList_eq hne,map_eq_some_iff]
  constructor
  · rintro ⟨poll,hpoll,houtcome⟩
    split at houtcome
    · cases houtcome
    · rename_i hdone
      obtain ⟨hothers,hlast⟩ := decides_last.mp ⟨hpoll,eq_false_of_not_eq_true hdone⟩
      cases houtcome
      exact ⟨hothers,poll,hlast,rfl⟩
  · rintro ⟨hothers,poll,hlast,rfl⟩
    obtain ⟨hpoll,hdone⟩ := decides_last.mpr ⟨hothers,hlast⟩
    exact ⟨poll,hpoll,by rw [hdone]; rfl⟩

end

end

end Attempt

inductive Operation where
  | awaitParticipants
  | awaitParticipantsIdle
  | initParticipants
  | startParticipants
  | stopParticipants
  | shutdownParticipants

namespace Operation

def run (attempt : Attempt) (baseTimeoutMs timeoutMs : Nat) (participants failedParticipants : List String) :
    Operation → Option (Bool × List String)
  | awaitParticipants => attempt.awaitParticipants baseTimeoutMs participants failedParticipants
  | awaitParticipantsIdle => attempt.awaitParticipantsIdle baseTimeoutMs participants failedParticipants
  | initParticipants => attempt.initParticipants timeoutMs participants failedParticipants
  | startParticipants => attempt.startParticipants timeoutMs participants failedParticipants
  | stopParticipants => attempt.stopParticipants timeoutMs participants failedParticipants
  | shutdownParticipants => attempt.shutdownParticipants timeoutMs participants failedParticipants

def event : Operation → Option ControlEvent
  | awaitParticipants | awaitParticipantsIdle => none
  | initParticipants => some .ceInitialize
  | startParticipants => some .ceStart
  | stopParticipants => some .ceStop
  | shutdownParticipants => some .ceShutdown

/-- What the state of each participant must satisfy; a participant that is shut down may be unknown. -/
def condition : Operation → RemoteState → Bool
  | awaitParticipants, s => s != .fsUnknown
  | awaitParticipantsIdle, s | stopParticipants, s => s == .known .fsIdle
  | initParticipants, s => s == .known .fsReady
  | startParticipants, s => s == .known .fsRunning
  | shutdownParticipants, s => s == .known .fsShutdown || s == .fsUnknown

def timeout (baseTimeoutMs timeoutMs : Nat) : Operation → Nat
  | awaitParticipants | awaitParticipantsIdle => baseTimeoutMs
  | _ => timeoutMs

/-- The state that satisfies the condition but is listed. -/
def exception : Operation → Option RemoteState
  | awaitParticipants => some (.known .fsShutdown)
  | shutdownParticipants => some .fsUnknown
  | _ => none

def isListed (operation : Operation) (s : RemoteState) : Bool :=
  !operation.condition s || operation.exception == some s

/-- All events could be sent. -/
def Sent (operation : Operation) (attempt : Attempt) (participants : List String) : Prop :=
  ∀ ev, operation.event = some ev → ∀ p ∈ participants, attempt.triggerEvent ev p = .errNoError

variable {attempt : Attempt} {baseTimeoutMs timeoutMs : Nat} {participants failedParticipants : List String}
  {operation : Operation}

theorem sendEvents_iff {ev : ControlEvent} :
    attempt.sendEvents ev participants = true ↔ ∀ p ∈ participants, attempt.triggerEvent ev p = .errNoError := by
  induction participants with
  | nil => exact iff_of_true rfl fun _ h => absurd h not_mem_nil
  | cons p participants ih =>
    rw [Attempt.sendEvents,forall_mem_cons,← ih]
    by_cases h : attempt.triggerEvent ev p = .errNoError <;> simp [h]

private theorem triggerParticipants_of_sent {ev : ControlEvent} {state : RemoteState} {timeoutTm : Nat}
    (h : ∀ p ∈ participants, attempt.triggerEvent ev p = .errNoError) :
    attempt.triggerParticipants participants failedParticipants ev state timeoutTm =
      attempt.awaitOrList participants failedParticipants
        (fun s => s == state || (s == .fsUnknown && state == .known .fsShutdown)) (fun s => s != state) timeoutTm := by
  rw [Attempt.triggerParticipants,if_pos (sendEvents_iff.mpr h)]

private theorem eq_of_all {first second : RemoteState → Bool} (h : ∀ s ∈ RemoteState.all, first s = second s) :
    first = second := by
  funext s
  refine h s ?_
  cases s with
  | known state => cases state <;> decide
  | fsUnknown => decide

theorem run_of_sent (h : operation.Sent attempt participants) :
    operation.run attempt baseTimeoutMs timeoutMs participants failedParticipants =
      attempt.awaitOrList participants failedParticipants operation.condition operation.isListed
        (operation.timeout baseTimeoutMs timeoutMs) := by
  cases operation with
  | awaitParticipants =>
    rw [run,Attempt.awaitParticipants]
    congr 1
    exact eq_of_all (by decide)
  | awaitParticipantsIdle =>
    rw [run,Attempt.awaitParticipantsIdle]
    congr 1
    exact eq_of_all (by decide)
  | initParticipants =>
    rw [run,Attempt.initParticipants,triggerParticipants_of_sent (h _ rfl)]
    congr 1 <;> exact eq_of_all (by decide)
  | startParticipants =>
    rw [run,Attempt.startParticipants,triggerParticipants_of_sent (h _ rfl)]
    congr 1 <;> exact eq_of_all (by decide)
  | stopParticipants =>
    rw [run,Attempt.stopParticipants,triggerParticipants_of_sent (h _ rfl)]
    congr 1 <;> exact eq_of_all (by decide)
  | shutdownParticipants =>
    rw [run,Attempt.shutdownParticipants,triggerParticipants_of_sent (h _ rfl)]
    congr 1 <;> exact eq_of_all (by decide)

theorem run_of_not_sent (h : ¬operation.Sent attempt participants) :
    operation.run attempt baseTimeoutMs timeoutMs participants failedParticipants =
      some (false,failedParticipants) := by
  have hfails {ev : ControlEvent} (hev : operation.event = some ev) : ¬attempt.sendEvents ev participants = true := by
    rw [sendEvents_iff]
    intro hall
    refine h fun other hother => ?_
    rw [hev] at hother
    exact some.inj hother ▸ hall
  cases operation with
  | awaitParticipants => exact absurd (fun _ hev => nomatch hev) h
  | awaitParticipantsIdle => exact absurd (fun _ hev => nomatch hev) h
  | initParticipants => exact if_neg (hfails rfl)
  | startParticipants => exact if_neg (hfails rfl)
  | stopParticipants => exact if_neg (hfails rfl)
  | shutdownParticipants => exact if_neg (hfails rfl)

/-- The operation returns once its deadline has come, true exactly if the events could be sent and a poll satisfies its
condition, and lists those that do not in the last poll. -/
structure ReportsExactly (operation : Operation) (attempt : Attempt) (baseTimeoutMs timeoutMs : Nat)
    (participants failedParticipants : List String) : Prop where
  returns : (attempt.lastPoll (operation.timeout baseTimeoutMs timeoutMs)).isSome →
    (operation.run attempt baseTimeoutMs timeoutMs participants failedParticipants).isSome
  true_iff : (∃ failed, operation.run attempt baseTimeoutMs timeoutMs participants failedParticipants =
      some (true,failed)) ↔ operation.Sent attempt participants ∧
    ∃ poll, attempt.Polls (operation.timeout baseTimeoutMs timeoutMs) poll ∧
      attempt.Satisfies participants operation.condition (operation.timeout baseTimeoutMs timeoutMs) poll
  failed_iff : operation.Sent attempt participants →
    ∀ failed, operation.run attempt baseTimeoutMs timeoutMs participants failedParticipants = some (false,failed) →
      ∃ poll, attempt.lastPoll (operation.timeout baseTimeoutMs timeoutMs) = some poll ∧
        ∀ p, p ∈ failed ↔ p ∈ participants ∧
          operation.condition (attempt.stateIn participants (operation.timeout baseTimeoutMs timeoutMs) poll p) = false

/-- If no poll satisfies the condition, each participant that does in the last one has a trimmed name and another
state than the exception. -/
def ListsNoOther (operation : Operation) (attempt : Attempt) (baseTimeoutMs timeoutMs : Nat)
    (participants : List String) : Prop :=
  operation.Sent attempt participants →
    (∀ poll, attempt.Polls (operation.timeout baseTimeoutMs timeoutMs) poll →
      ¬attempt.Satisfies participants operation.condition (operation.timeout baseTimeoutMs timeoutMs) poll) →
    ∀ poll, attempt.lastPoll (operation.timeout baseTimeoutMs timeoutMs) = some poll → ∀ p ∈ participants,
      operation.condition (attempt.stateIn participants (operation.timeout baseTimeoutMs timeoutMs) poll p) = true →
        attempt.trim p = p ∧ operation.exception ≠
          some (attempt.stateIn participants (operation.timeout baseTimeoutMs timeoutMs) poll p)

private theorem isListed_unknown : operation.isListed .fsUnknown = true := by
  cases operation <;> decide

theorem isListed_iff {s : RemoteState} {p : String} :
    operation.isListed (if attempt.trim p = p then s else .fsUnknown) = true ↔
      (operation.condition s = true → ¬(attempt.trim p = p ∧ operation.exception ≠ some s)) := by
  by_cases htrimmed : attempt.trim p = p
  · cases hcondition : operation.condition s <;> simp [htrimmed,isListed,hcondition]
  · simp [htrimmed,isListed_unknown]

theorem run_isSome (hne : participants ≠ [])
    (hlast : (attempt.lastPoll (operation.timeout baseTimeoutMs timeoutMs)).isSome) :
    (operation.run attempt baseTimeoutMs timeoutMs participants failedParticipants).isSome := by
  by_cases hsent : operation.Sent attempt participants
  · rw [run_of_sent hsent]
    exact Attempt.awaitOrList_isSome hne hlast
  · rw [run_of_not_sent hsent]
    rfl

private theorem run_true_iff (hne : participants ≠ []) :
    (∃ failed, operation.run attempt baseTimeoutMs timeoutMs participants failedParticipants = some (true,failed)) ↔
      operation.Sent attempt participants ∧ ∃ poll, attempt.Polls (operation.timeout baseTimeoutMs timeoutMs) poll ∧
          attempt.Satisfies participants operation.condition (operation.timeout baseTimeoutMs timeoutMs) poll := by
  by_cases hsent : operation.Sent attempt participants
  · rw [run_of_sent hsent,Attempt.awaitOrList_true_iff hne,and_iff_right hsent]
  · rw [run_of_not_sent hsent]
    exact iff_of_false (by simp) fun hboth => hsent hboth.1

private theorem run_false_iff (hne : participants ≠ []) (hsent : operation.Sent attempt participants)
    {failed : List String} :
    operation.run attempt baseTimeoutMs timeoutMs participants failedParticipants = some (false,failed) ↔
      (∀ poll, attempt.Polls (operation.timeout baseTimeoutMs timeoutMs) poll →
        ¬attempt.Satisfies participants operation.condition (operation.timeout baseTimeoutMs timeoutMs) poll) ∧
      ∃ poll, attempt.lastPoll (operation.timeout baseTimeoutMs timeoutMs) = some poll ∧
        failed = ((attempt.lastStates participants (operation.timeout baseTimeoutMs timeoutMs) poll).filter fun p =>
          operation.isListed p.2).map Prod.fst := by
  rw [run_of_sent hsent]
  exact Attempt.awaitOrList_false_iff hne

/-- The failed participants are exact as long as none that satisfies the condition is listed for its state or name. -/
theorem failed_participants_exact (hne : participants ≠ [])
    (htrim : ∀ name, attempt.trim (attempt.trim name) = attempt.trim name) :
    operation.ReportsExactly attempt baseTimeoutMs timeoutMs participants failedParticipants ↔
      operation.ListsNoOther attempt baseTimeoutMs timeoutMs participants := by
  constructor
  · intro h hsent hnone poll hlast p hp hcondition
    obtain ⟨other,hother,hlisted⟩ := h.failed_iff hsent _ ((run_false_iff hne hsent).mpr ⟨hnone,poll,hlast,rfl⟩)
    rw [hlast] at hother
    cases hother
    by_contra hmistaken
    have hmem := (Attempt.mem_listed_iff htrim operation.isListed).mpr ⟨hp,isListed_iff.mpr fun _ => hmistaken⟩
    obtain ⟨-,hviolates⟩ := (hlisted p).mp hmem
    rw [hcondition] at hviolates
    cases hviolates
  · intro h
    refine ⟨run_isSome hne,run_true_iff hne,fun hsent failed hrun => ?_⟩
    obtain ⟨hnone,poll,hlast,rfl⟩ := (run_false_iff hne hsent).mp hrun
    refine ⟨poll,hlast,fun p => ?_⟩
    rw [Attempt.mem_listed_iff htrim,isListed_iff]
    refine and_congr_right fun hp => ?_
    constructor
    · intro hlisted
      by_contra hcondition
      rw [not_eq_false] at hcondition
      exact hlisted hcondition (h hsent hnone poll hlast p hp hcondition)
    · intro hviolates hcondition
      rw [hviolates] at hcondition
      cases hcondition

/-- One poll of two participants, after which the wait is over. -/
def onePoll (during : List StateMessage) : Attempt :=
  { trim := id
    triggerEvent := fun _ _ => .errNoError
    started := 0
    polls := [⟨.errNoError,fun _ => .errNoError,during,[],10000000⟩] }

/-- One of the participants is not idle in time. -/
theorem running_participant_listed :
    awaitParticipantsIdle.run (onePoll [.property "A" currentStateField (some "FS_IDLE"),
        .property "B" currentStateField (some "FS_RUNNING")]) 2000 0 ["A","B"] [] = some (false,["B"]) ∧
      awaitParticipantsIdle.ReportsExactly (onePoll [.property "A" currentStateField (some "FS_IDLE"),
        .property "B" currentStateField (some "FS_RUNNING")]) 2000 0 ["A","B"] [] :=
  ⟨by decide +kernel,(failed_participants_exact (by decide) fun _ => rfl).mpr
    fun _ _ _ _ _ _ _ => ⟨rfl,fun h => nomatch h⟩⟩

/-- A participant that has gone counts as shut down, but it is listed when another one does not shut down in time. -/
theorem gone_participant_listed : let attempt := onePoll [.property "B" currentStateField (some "FS_RUNNING")]
    shutdownParticipants.run attempt 2000 2000 ["A","B"] [] = some (false,["A","B"]) ∧
      (∀ poll, attempt.lastPoll 2000 = some poll →
        shutdownParticipants.condition (attempt.stateIn ["A","B"] 2000 poll "A") = true) ∧
      ¬shutdownParticipants.ReportsExactly attempt 2000 2000 ["A","B"] [] := by
  intro attempt
  have hrun : shutdownParticipants.run attempt 2000 2000 ["A","B"] [] = some (false,["A","B"]) := by
    decide +kernel
  have hgone : ∀ poll, attempt.lastPoll 2000 = some poll →
      shutdownParticipants.condition (attempt.stateIn ["A","B"] 2000 poll "A") = true := by
    intro poll hpoll
    cases hpoll
    decide +kernel
  refine ⟨hrun,hgone,fun h => ?_⟩
  obtain ⟨poll,hlast,hlisted⟩ := h.failed_iff (fun _ _ _ _ => rfl) _ hrun
  obtain ⟨-,hviolates⟩ := (hlisted "A").mp mem_cons_self
  exact Bool.noConfusion ((hgone poll hlast).symm.trans hviolates)

end Operation
end FepParticipant.Tooling
