import FepParticipant.Library.Interleaving
import FepParticipant.Result
import Mathlib.Data.List.TakeWhile

/-! The queue of the responses of one server element, which all requests to the element share,
and the threads that push and wait on it. -/
namespace FepParticipant.RPC
open Library List

inductive Item where
  | stop
  | response (requestId : Nat) (strResponse : String)
  deriving DecidableEq

/-- Whether a waiting request takes the item: every request takes a stop. -/
def Item.matches (requestId : Nat) : Item → Bool
  | .stop => true
  | .response id _ => id == requestId

/-- `cResponseQueue`: the list, and the counter that decides whether it is empty. -/
structure ResponseQueue where
  lstItems : List Item
  szCurrentCount : Nat
  deriving DecidableEq

/-- The values of a `size_t`. -/
def sizeRange : Nat := 18446744073709551616

/-- The values of a `uint32_t`. -/
def idRange : Nat := 4294967296

namespace ResponseQueue
variable (queue : ResponseQueue)

def new : ResponseQueue := ⟨[],0⟩

def isEmpty : Bool := !decide (0 < queue.szCurrentCount)

/-- A counter of type `size_t` goes down by one. -/
def decrement (count : Nat) : Nat := (count + (sizeRange - 1)) % sizeRange

/-- A list that can hold no further item throws. -/
def push (item : Item) : Option ResponseQueue :=
  if queue.lstItems.length + 1 < sizeRange then
    some ⟨queue.lstItems ++ [item],(queue.szCurrentCount + 1) % sizeRange⟩
  else none

/-- The loop of `PopItemMatchesRequestId`: the items before a match, and a stop itself, are kept for the backup. -/
def popLoop (requestId : Nat) : List Item → Nat → List Item → ResponseQueue × List Item × Option Item
  | [], count, backup => (⟨[],count⟩,backup,none)
  | item::items, count, backup =>
    if item.matches requestId then
      (⟨items,decrement count⟩,if item = .stop then backup ++ [item] else backup,some item)
    else popLoop requestId items (decrement count) (backup ++ [item])

/-- The backup goes to the end of the list; it is counted if the counter is not zero. -/
def pushBackup (backup : List Item) : ResponseQueue :=
  ⟨queue.lstItems ++ backup,
    if 0 < queue.szCurrentCount then (queue.szCurrentCount + backup.length) % sizeRange
    else queue.szCurrentCount⟩

def popItemMatchesRequestId (requestId : Nat) : ResponseQueue × Option Item :=
  let (popped,backup,found) := popLoop requestId queue.lstItems queue.szCurrentCount []
  (popped.pushBackup backup,found)

end ResponseQueue

/-- The counter of the request ids and the queue; on record every item pushed and every response a request was given. -/
structure Connection where
  requestIds : Nat
  queue : ResponseQueue
  pushed : List Item
  delivered : List (Nat × Item)

def Connection.new (requestIds : Nat) : Connection := ⟨requestIds,.new,[],[]⟩

/-- The position of a thread that pushes an item (`HandleResponse`, `StopAllConnections`), or of one
in `SendRequest` and its `wait_for_response`. -/
inductive RPCThread where
  | handleResponse (item : Item)
  | entering
  | incremented
  | transmitting (requestId : Nat)
  | waiting (requestId : Nat)
  | sleeping (requestId : Nat)
  | popping (requestId : Nat)
  | checking (requestId : Nat)
  | finished (result : Result) (response : Option String)

/-- What a step of a thread finds: the result of the transmission, the timeout property, and whether
the timeout is over. -/
structure RPCChoice where
  transmitCommand : Result
  timeoutMS : Int
  timedOut : Bool

namespace Connection

/-- A thread in `wait_for_response` calls `PopItemMatchesRequestId`. -/
def pop (connection : Connection) (requestId : Nat) : Connection × RPCThread :=
  match connection.queue.popItemMatchesRequestId requestId with
  | (queue,none) => ({connection with queue := queue},.checking requestId)
  | (queue,some .stop) => ({connection with queue := queue},.finished .errCancelled none)
  | (queue,some (.response id text)) =>
    ({ connection with
        queue := queue
        delivered := connection.delivered ++ [(requestId,.response id text)] },
      .finished .errNoError (some text))

/-- The next step of a thread; the mutex of the queue makes each call on it one step, and a waiting
thread may wake up at any time. -/
def next (connection : Connection) (_ : Nat) (choice : RPCChoice) :
    RPCThread → Option (Connection × RPCThread)
  | .handleResponse item => (connection.queue.push item).map fun queue =>
      ({connection with queue := queue, pushed := connection.pushed ++ [item]},.finished .errNoError none)
  | .entering => some ({connection with requestIds := (connection.requestIds + 1) % idRange},.incremented)
  | .incremented => some (connection,.transmitting connection.requestIds)
  | .transmitting requestId =>
    some (connection,
      if isFailed choice.transmitCommand then .finished choice.transmitCommand none
      else if choice.timeoutMS < 1 then .finished .errInvalidArg none
      else .waiting requestId)
  | .waiting requestId =>
    some (connection,if connection.queue.isEmpty then .sleeping requestId else .popping requestId)
  | .sleeping requestId =>
    some (connection,if connection.queue.isEmpty then .checking requestId else .popping requestId)
  | .popping requestId => some (connection.pop requestId)
  | .checking requestId =>
    some (connection,if choice.timedOut then .finished .errTimeout none else .waiting requestId)
  | .finished .. => none

end Connection

/-- Threads are started to push an item or to send a request. -/
def RPCThread.starts : RPCThread → Bool
  | .handleResponse _ | .entering => true
  | _ => false

abbrev RPCSystem := Threads Connection RPCThread

def RPCSystem.step (system : RPCSystem) (action : ThreadAction RPCThread RPCChoice) : Option RPCSystem :=
  system.act Connection.next RPCThread.starts action

namespace ResponseQueue

variable {queue : ResponseQueue} {requestId : Nat} {items : List Item}

private theorem decrement_of_pos {count : Nat} (hpos : 0 < count) (hlt : count < sizeRange) :
    decrement count = count - 1 := by
  unfold decrement sizeRange at *
  omega

theorem popLoop_cases (count : Nat) (backup : List Item)
    (hcount : items.length ≤ count) (hlt : count < sizeRange) : ((∀ item ∈ items, item.matches requestId = false) ∧
      popLoop requestId items count backup = (⟨[],count - items.length⟩,backup ++ items,none)) ∨
    ∃ before item after, items = before ++ item::after ∧ (∀ other ∈ before, other.matches requestId = false) ∧
      item.matches requestId = true ∧ popLoop requestId items count backup =
        (⟨after,count - (before.length + 1)⟩,backup ++ before ++ (if item = .stop then [item] else []),
          some item) := by
  induction items generalizing count backup with
  | nil => exact .inl ⟨by simp,by simp [popLoop]⟩
  | cons item items ih =>
    have hpos : 0 < count := lt_of_lt_of_le (Nat.succ_pos _) hcount
    rw [popLoop,decrement_of_pos hpos hlt]
    by_cases hmatch : item.matches requestId = true
    · refine .inr ⟨[],item,items,rfl,by simp,hmatch,?_⟩
      rw [if_pos hmatch]
      by_cases hstop : item = .stop <;> simp [hstop]
    · rw [if_neg hmatch]
      rw [length_cons] at hcount
      have hmiss : item.matches requestId = false := Bool.eq_false_iff.mpr hmatch
      rcases ih (count - 1) (backup ++ [item]) (by omega) (by omega) with
        ⟨hnone,heq⟩ | ⟨before,found,after,hitems,hbefore,hfound,heq⟩
      · refine .inl ⟨by simpa [hmiss] using hnone,?_⟩
        rw [heq,append_assoc,length_cons,Nat.sub_sub,Nat.add_comm 1]
        rfl
      · refine .inr ⟨item::before,found,after,by rw [hitems]; rfl,by simpa [hmiss] using hbefore,hfound,?_⟩
        rw [heq,length_cons,Nat.sub_sub,Nat.add_comm 1,append_assoc backup [item] before]
        rfl

/-- Something stays behind the item that is found, or nothing is put back. -/
def countSurvives (items : List Item) (requestId : Nat) : Bool :=
  match items.dropWhile (!·.matches requestId) with
  | [] => items.isEmpty
  | item::after => !after.isEmpty || ((items.takeWhile (!·.matches requestId)).isEmpty && item != .stop)

/-- The counter tells the length of the list, which is in the range of the counter. -/
structure Counted (queue : ResponseQueue) : Prop where
  count : queue.szCurrentCount = queue.lstItems.length
  bound : queue.lstItems.length < sizeRange

theorem Counted.isEmpty_iff (h : queue.Counted) : queue.isEmpty = true ↔ queue.lstItems = [] := by
  rw [isEmpty,h.count]
  cases queue.lstItems <;> simp

theorem Counted.push {next : ResponseQueue} {item : Item} (h : queue.Counted) (hpush : queue.push item = some next) :
    next.Counted ∧ next.lstItems = queue.lstItems ++ [item] := by
  unfold ResponseQueue.push at hpush
  split at hpush
  · rename_i hroom
    cases hpush
    refine ⟨⟨?_,?_⟩,rfl⟩
    · rw [h.count,Nat.mod_eq_of_lt hroom,length_append,length_singleton]
    · rw [length_append,length_singleton]
      exact hroom
  · cases hpush

/-- Nothing matches and the order stays, or a match is found, and taken out unless it is a stop. -/
inductive Popped (queue : ResponseQueue) (requestId : Nat) : ResponseQueue → Option Item → Prop
  | missed {next : ResponseQueue} : (∀ item ∈ queue.lstItems, item.matches requestId = false) →
      next.lstItems = queue.lstItems → Popped queue requestId next none
  | stopped {next : ResponseQueue} : next.lstItems.Perm queue.lstItems → .stop ∈ queue.lstItems →
      Popped queue requestId next (some .stop)
  | taken {next : ResponseQueue} {id : Nat} {text : String} : id = requestId →
      queue.lstItems.Perm (.response id text::next.lstItems) →
      Popped queue requestId next (some (.response id text))

theorem takeWhile_misses {before after : List Item} {item : Item}
    (hbefore : ∀ other ∈ before, other.matches requestId = false) (hitem : item.matches requestId = true) :
    (before ++ item::after).takeWhile (!·.matches requestId) = before ∧
      (before ++ item::after).dropWhile (!·.matches requestId) = item::after := by
  have hmisses : ∀ other ∈ before, (!other.matches requestId) = true := fun other hmem => by
    rw [hbefore other hmem,Bool.not_false]
  rw [takeWhile_append_of_pos hmisses,dropWhile_append_of_pos hmisses]
  constructor <;> simp [hitem]

private theorem dropWhile_misses (hnone : ∀ item ∈ items, item.matches requestId = false) :
    items.dropWhile (!·.matches requestId) = [] := by
  rw [dropWhile_eq_nil_iff]
  intro item hmem
  rw [hnone item hmem,Bool.not_false]

private theorem counted_pushBackup {count : Nat} {after backup : List Item} (hcount : count = after.length)
    (hput : backup = [] ∨ after ≠ []) (hbound : after.length + backup.length < sizeRange) :
    (pushBackup ⟨after,count⟩ backup).Counted := by
  subst hcount
  refine ⟨?_,by rw [pushBackup,length_append]; exact hbound⟩
  rcases hput with rfl | hafter
  · simp only [pushBackup,length_nil,append_nil,add_zero]
    split
    · exact Nat.mod_eq_of_lt (by simpa using hbound)
    · rfl
  · rw [pushBackup,if_pos (length_pos_iff.mpr hafter),Nat.mod_eq_of_lt hbound,length_append]

theorem Counted.pop (h : queue.Counted) (hsurvives : countSurvives queue.lstItems requestId = true) :
    (queue.popItemMatchesRequestId requestId).1.Counted ∧
      Popped queue requestId (queue.popItemMatchesRequestId requestId).1
      (queue.popItemMatchesRequestId requestId).2 := by
  have hlt : queue.szCurrentCount < sizeRange := h.count ▸ h.bound
  rw [popItemMatchesRequestId]
  rcases popLoop_cases queue.szCurrentCount [] (le_of_eq h.count.symm) hlt with
    ⟨hnone,heq⟩ | ⟨before,item,after,hitems,hbefore,hitem,heq⟩
  · rw [heq,nil_append]
    rw [countSurvives,dropWhile_misses hnone,List.isEmpty_iff] at hsurvives
    refine ⟨counted_pushBackup (by simp [h.count]) (.inl hsurvives) (by simpa using h.bound),.missed hnone rfl⟩
  · rw [heq,nil_append]
    obtain ⟨htake,hdrop⟩ := @takeWhile_misses requestId before after item hbefore hitem
    rw [countSurvives,hitems,hdrop,htake] at hsurvives
    have hlength : queue.lstItems.length = before.length + (after.length + 1) := by
      rw [hitems,length_append,length_cons]
    have hcount : queue.szCurrentCount - (before.length + 1) = after.length := by
      rw [h.count]
      omega
    have hbound := h.bound
    cases item with
    | stop =>
      have hafter : after ≠ [] := by simpa using hsurvives
      refine ⟨counted_pushBackup hcount (.inr hafter) ?_,.stopped ?_ (by rw [hitems]; simp)⟩
      · simp only [if_true,length_append,length_singleton]
        omega
      · rw [hitems]
        have hrotated : (after ++ (before ++ [Item.stop])).Perm (before ++ [Item.stop] ++ after) := perm_append_comm
        rw [append_assoc,singleton_append] at hrotated
        exact hrotated
    | response id text =>
      have hput : before = [] ∨ after ≠ [] := by
        rcases Bool.or_eq_true_iff.mp hsurvives with hafter | hbefore
        · exact .inr (by simpa using hafter)
        · exact .inl (by simpa using hbefore)
      refine ⟨counted_pushBackup hcount (by simpa using hput) ?_,.taken (by simpa [Item.matches] using hitem) ?_⟩
      · simp only [reduceCtorEq,if_false,append_nil]
        omega
      · simp only [reduceCtorEq,if_false,append_nil,pushBackup]
        rw [hitems]
        exact perm_middle.trans (List.Perm.cons _ perm_append_comm)

theorem Counted.pop_finds {item : Item} (h : queue.Counted) (hmem : item ∈ queue.lstItems)
    (hmatch : item.matches requestId = true) : ∃ found ∈ queue.lstItems, found.matches requestId = true ∧
      (queue.popItemMatchesRequestId requestId).2 = some found := by
  have hlt : queue.szCurrentCount < sizeRange := h.count ▸ h.bound
  rw [popItemMatchesRequestId]
  rcases popLoop_cases queue.szCurrentCount [] (le_of_eq h.count.symm) hlt with
    ⟨hnone,-⟩ | ⟨before,found,after,hitems,-,hfound,heq⟩
  · rw [hnone item hmem] at hmatch
    cases hmatch
  · exact ⟨found,by rw [hitems]; simp,hfound,by rw [heq]⟩

end ResponseQueue

namespace Connection

variable {connection connection' : Connection} {requestId : Nat}

/-- The counter is right; every item pushed is in the list or was handed over, as a response to the very request. -/
structure Reliable (connection : Connection) : Prop where
  counted : connection.queue.Counted
  conserved : connection.pushed.Perm (connection.queue.lstItems ++ connection.delivered.map (·.2))
  own : ∀ entry ∈ connection.delivered, ∃ text, entry.2 = .response entry.1 text

theorem Reliable.new (requestIds : Nat) : (Connection.new requestIds).Reliable :=
  ⟨⟨rfl,Nat.zero_lt_succ _⟩,.refl _,by simp [Connection.new]⟩

theorem Reliable.of_queue (h : connection.Reliable) (hqueue : connection'.queue = connection.queue)
    (hpushed : connection'.pushed = connection.pushed) (hdelivered : connection'.delivered = connection.delivered) :
    connection'.Reliable :=
  ⟨hqueue ▸ h.counted,by rw [hpushed,hqueue,hdelivered]; exact h.conserved,by rw [hdelivered]; exact h.own⟩

theorem Reliable.push {item : Item} {queue : ResponseQueue} (h : connection.Reliable)
    (hpush : connection.queue.push item = some queue) :
    Reliable {connection with queue := queue, pushed := connection.pushed ++ [item]} := by
  obtain ⟨hcounted,hitems⟩ := h.counted.push hpush
  refine ⟨hcounted,?_,h.own⟩
  simp only [hitems,append_assoc,singleton_append]
  have hlast : (connection.pushed ++ [item]).Perm (item::connection.pushed) := perm_append_singleton _ _
  exact hlast.trans ((h.conserved.cons item).trans perm_middle.symm)

theorem Reliable.pop (h : connection.Reliable)
    (hsurvives : ResponseQueue.countSurvives connection.queue.lstItems requestId = true) :
    (connection.pop requestId).1.Reliable := by
  obtain ⟨hcounted,hpopped⟩ := h.counted.pop hsurvives
  unfold Connection.pop
  revert hcounted hpopped
  generalize connection.queue.popItemMatchesRequestId requestId = popped
  obtain ⟨queue,found⟩ := popped
  intro hcounted hpopped
  cases hpopped with
  | missed _ hitems => exact ⟨hcounted,hitems ▸ h.conserved,h.own⟩
  | stopped hperm _ => exact ⟨hcounted,h.conserved.trans (hperm.symm.append_right _),h.own⟩
  | taken hid hperm =>
    rename_i id text
    refine ⟨hcounted,h.conserved.trans ?_,fun entry hentry => ?_⟩
    · rw [map_append,← append_assoc]
      refine (hperm.append_right _).trans ?_
      exact (perm_append_singleton _ _).symm
    · rcases mem_append.mp hentry with hentry | hentry
      · exact h.own entry hentry
      · rw [mem_singleton.mp hentry,hid]
        exact ⟨text,rfl⟩

end Connection

/-- A pop loses the count if it puts items back into a list that it has emptied. -/
def RPCThread.keepsCount (queue : ResponseQueue) : RPCThread → Bool
  | .popping requestId => ResponseQueue.countSurvives queue.lstItems requestId
  | _ => true

namespace RPCSystem

variable {system system' : RPCSystem}

/-- No request empties the list and puts items back. -/
def CountKept (system : RPCSystem) : ThreadAction RPCThread RPCChoice → Prop
  | .step index _ => (system.threads[index]?).all (·.keepsCount system.shared.queue) = true
  | .start _ => True

private theorem reliable_next {connection connection' : Connection} {index : Nat} {choice : RPCChoice}
    {thread thread' : RPCThread} (h : connection.Reliable) (hkeeps : thread.keepsCount connection.queue = true)
    (hnext : connection.next index choice thread = some (connection',thread')) : connection'.Reliable := by
  cases thread with
  | handleResponse item =>
    obtain ⟨queue,hpush,heq⟩ := Option.map_eq_some_iff.mp hnext
    cases heq
    exact h.push hpush
  | popping requestId =>
    have heq : (connection.pop requestId).1 = connection' := congrArg Prod.fst (Option.some.inj hnext)
    exact heq ▸ h.pop hkeeps
  | entering =>
    cases hnext
    exact h.of_queue rfl rfl rfl
  | incremented | transmitting _ | waiting _ | sleeping _ | checking _ =>
    cases hnext
    exact h
  | finished => cases hnext

private theorem reliable_step {action : ThreadAction RPCThread RPCChoice} (h : system.shared.Reliable)
    (hkept : CountKept system action) (hstep : step system action = some system') : system'.shared.Reliable := by
  rcases Threads.act_cases hstep with
    ⟨index,choice,thread,connection,thread',rfl,hthread,hnext,rfl⟩ | ⟨thread,rfl,-,rfl⟩
  · have hkeeps : thread.keepsCount system.shared.queue = true := by simpa [CountKept,hthread] using hkept
    exact reliable_next h hkeeps hnext
  · exact h

/-- The counter is the length of the list, no item is lost, requests get their own responses and leave a stop to the
others, and a request for which the list holds an item goes on to pop it. -/
structure ResponsesReach (connection : Connection) : Prop where
  counter : connection.queue.szCurrentCount = connection.queue.lstItems.length
  conserved : connection.pushed.Perm (connection.queue.lstItems ++ connection.delivered.map (·.2))
  own : ∀ entry ∈ connection.delivered, ∃ text, entry.2 = .response entry.1 text
  stopped : .stop ∈ connection.pushed → .stop ∈ connection.queue.lstItems
  goesOn (requestId index : Nat) (choice : RPCChoice) (item : Item) : item ∈ connection.queue.lstItems →
    item.matches requestId = true →
      connection.next index choice (.waiting requestId) = some (connection,.popping requestId) ∧
      connection.next index choice (.sleeping requestId) = some (connection,.popping requestId)
  found (requestId : Nat) (item : Item) : item ∈ connection.queue.lstItems → item.matches requestId = true →
    ∃ found ∈ connection.queue.lstItems, found.matches requestId = true ∧
      (connection.queue.popItemMatchesRequestId requestId).2 = some found

/-- In every run of any number of requests and arriving responses in which no request empties the
list and puts items back, responses reach their requests. -/
theorem responses_reach (requestIds : Nat) (hreach : Reaches step CountKept ⟨.new requestIds,[]⟩ system) :
    ResponsesReach system.shared := by
  have h : (fun system : RPCSystem => system.shared.Reliable) system :=
    hreach.invariant (Connection.Reliable.new requestIds) fun _ _ _ hinv hkept hstep => reliable_step hinv hkept hstep
  refine ⟨h.counted.count,h.conserved,h.own,fun hstop => ?_,fun requestId index choice item hmem _ => ?_,
    fun requestId item hmem hmatch => h.counted.pop_finds hmem hmatch⟩
  · rcases mem_append.mp (h.conserved.mem_iff.mp hstop) with hlist | hdelivered
    · exact hlist
    · obtain ⟨entry,hentry,heq⟩ := mem_map.mp hdelivered
      obtain ⟨text,hown⟩ := h.own entry hentry
      cases heq.symm.trans hown
  · have hnonempty : system.shared.queue.isEmpty = false := by
      rw [Bool.eq_false_iff,ne_eq,h.counted.isEmpty_iff]
      exact ne_nil_of_mem hmem
    simp [Connection.next,hnonempty]

instance (system : RPCSystem) (action : ThreadAction RPCThread RPCChoice) : Decidable (CountKept system action) :=
  match action with
  | .step .. => inferInstanceAs (Decidable (_ = true))
  | .start _ => inferInstanceAs (Decidable True)

/-- A thread takes a number of steps, with its transmission accepted and its timeout not over. -/
def threadSteps (index n : Nat) : List (ThreadAction RPCThread RPCChoice) :=
  List.replicate n (.step index ⟨.errNoError,5000,false⟩)

def answers (requestId : Nat) (response : String) : List (ThreadAction RPCThread RPCChoice) :=
  [.start (.handleResponse (.response requestId response))]

def twoRequests : List (ThreadAction RPCThread RPCChoice) :=
  [.start .entering,.start .entering] ++ threadSteps 0 3 ++ threadSteps 1 3

/-- The first request puts the response of the second one, which is in front of its own, behind that of the third. -/
def threeRequests : List (ThreadAction RPCThread RPCChoice) :=
  twoRequests ++ [.start .entering] ++ threadSteps 2 3 ++ answers 2 "second" ++ answers 1 "first" ++
    answers 3 "third" ++ threadSteps 3 1 ++ threadSteps 4 1 ++ threadSteps 5 1 ++ threadSteps 0 2 ++
    threadSteps 2 2 ++ threadSteps 1 2

theorem responses_reach_three_requests : ∃ system : RPCSystem, Reaches step CountKept ⟨.new 0,[]⟩ system ∧
      system.shared.delivered = [(1,.response 1 "first"),(3,.response 3 "third"),(2,.response 2 "second")] ∧
      ResponsesReach system.shared := by
  obtain ⟨system,hreach,hthree⟩ : ∃ system, Reaches step CountKept ⟨.new 0,[]⟩ system ∧
      system.shared.delivered = [(1,.response 1 "first"),(3,.response 3 "third"),(2,.response 2 "second")] :=
    exists_of_runAllowed threeRequests (by decide +kernel)
  exact ⟨system,hreach,hthree,responses_reach 0 hreach⟩

/-- The first request finds only the response of the second and puts it back uncounted. -/
theorem foreign_response_not_counted : ∃ system : RPCSystem,
    Reaches step anyAction ⟨.new 0,[]⟩ system ∧ ¬ResponsesReach system.shared := by
  obtain ⟨system,hreach,hlost⟩ : ∃ system, Reaches step anyAction ⟨.new 0,[]⟩ system ∧
      system.shared.queue = ⟨[.response 2 "second"],0⟩ :=
    exists_of_runActions (twoRequests ++ answers 2 "second" ++ threadSteps 2 1 ++ threadSteps 0 2) (by decide +kernel)
  refine ⟨system,hreach,fun h => ?_⟩
  have hcounter := h.counter
  rw [hlost] at hcounter
  cases hcounter

end RPCSystem
end FepParticipant.RPC
