import FepParticipant.Library.MachineWord
import FepParticipant.Library.Reachability
import FepParticipant.Result
import Mathlib.Data.List.TakeWhile
import Mathlib.Data.Nat.ModEq

/-! The ring of slots for console messages, which one thread at a time fills while the timer prints them. -/
namespace FepParticipant.Incidents
open Library List Nat

/-- `tLogLevel`. -/
inductive LogLevel where
  | none
  | exception
  | error
  | warning
  | info
  | dump
  deriving DecidableEq

def ascii (text : String) : List UInt8 := text.toList.map fun c => UInt8.ofNat c.toNat

def lengthExceeded : List UInt8 := ascii "Could not log message to Console. Length exceeds buffer size.\n"

def queueOverrun : List UInt8 := ascii "Queue overrun. Message lost. Are you logging too quickly?\n"

/-- The text that a pointer to bytes stands for. -/
def cString (bytes : List UInt8) : List UInt8 := bytes.takeWhile (· ≠ 0)

/-- The conversion of an `int` to `size_t`. -/
def sizeT (i : Int) : Nat := (i % 2 ^ 64).toNat

/-- The level and the bytes from `strMsg` on. -/
structure LogEntry where
  eLogLvl : LogLevel
  strMsg : List UInt8

/-- Where `QueueConsoleLog` is; a call it makes of itself is its last action but for the result. -/
inductive QueuePosition where
  | length
  | level
  | overrun
  | full
  | copy
  | enqueue
  | advance
  | count
  deriving DecidableEq

/-- A `QueueConsoleLog` that holds `m_oQueueGuard`, with the number of its steps. -/
structure QueueCall where
  strMessage : List UInt8
  eLvl : LogLevel
  nResult : Result
  position : QueuePosition
  steps : Nat

/-- Where `CollectAndPrintConsoleLog` is. -/
inductive PrintPosition where
  | idle
  | dequeued (slot : Nat)
  | printed
  deriving DecidableEq

/-- `cLogMessageMgr`. The queue holds slots instead of pointers. -/
structure LogMessageMgr where
  nMaxQueueSlotNo : Int
  nMaxMessageLength : Int
  nMaxQueueMemSize : Nat
  slots : Nat → LogEntry
  nNextSlot : Nat
  nQueueLevel : Int
  consoleMessageQueue : List Nat
  queueing : Option QueueCall
  printing : PrintPosition
  /-- What has been enqueued and what has been printed, and the results of the calls that returned. -/
  accepted : List (LogLevel × List UInt8)
  printed : List (LogLevel × List UInt8)
  results : List Result
  /-- A slot was written that was queued or about to be printed, or memory outside of a slot was. -/
  overwritten : Bool
  outside : Bool

/-- `QueueConsoleLog` is called or goes on, or the timer takes an entry, prints it and counts it. -/
inductive LogAction where
  | queueConsoleLog (strMessage : List UInt8) (eLvl : LogLevel)
  | queueStep
  | tryDequeue
  | print
  | release

namespace LogMessageMgr
variable (copy : Nat → List UInt8 → List UInt8) (mgr : LogMessageMgr)

/-- The constructor with parameters; the other one has 50 slots for 255 characters. -/
def create (nNumSlots nMaxMessageSize : Nat) : LogMessageMgr where
  nMaxQueueSlotNo := wrap32 nNumSlots
  nMaxMessageLength := wrap32 nMaxMessageSize
  nMaxQueueMemSize := (wrap32 (wrap32 nNumSlots * (wrap32 nMaxMessageSize + 1))).toNat
  slots := fun _ => ⟨.none,[]⟩
  nNextSlot := 0
  nQueueLevel := 0
  consoleMessageQueue := []
  queueing := none
  printing := .idle
  accepted := []
  printed := []
  results := []
  overwritten := false
  outside := false

def fits (text : List UInt8) : Bool := text.length + 1 ≤ sizeT mgr.nMaxMessageLength

def isPrinting (slot : Nat) : Bool := mgr.printing = .dequeued slot

/-- `a_util::strings::copy` to the slot that is next. -/
def write (call : QueueCall) : LogMessageMgr :=
  let slotSize := sizeT mgr.nMaxMessageLength + 1
  let bytes := copy slotSize (cString call.strMessage)
  let written := mgr.nNextSlot * slotSize + 1 + bytes.length
  { mgr with
    slots := Function.update mgr.slots mgr.nNextSlot ⟨call.eLvl,bytes⟩
    overwritten := mgr.overwritten || mgr.nNextSlot ∈ mgr.consoleMessageQueue || mgr.isPrinting mgr.nNextSlot
    outside := mgr.outside || (mgr.nNextSlot + 1) * slotSize < written || mgr.nMaxQueueMemSize < written }

def goOn (call : QueueCall) (position : QueuePosition) : LogMessageMgr :=
  {mgr with queueing := some {call with position := position, steps := call.steps + 1}}

/-- The call is made with a warning instead, and will return this result. -/
def warn (call : QueueCall) (strInternalMsg : List UInt8) : LogMessageMgr :=
  mgr.goOn {call with strMessage := strInternalMsg, eLvl := .warning, nResult := .errInvalidIndex} .length

def returns (nResult : Result) : LogMessageMgr := {mgr with queueing := none, results := nResult::mgr.results}

def queueStep (call : QueueCall) : LogMessageMgr :=
  match call.position with
  | .length => if mgr.fits call.strMessage then mgr.goOn call .level else mgr.warn call lengthExceeded
  | .level => mgr.goOn call (if mgr.nQueueLevel = mgr.nMaxQueueSlotNo - 1 then .overrun else .full)
  | .overrun => warn {mgr with nQueueLevel := mgr.nQueueLevel - 1} call queueOverrun
  | .full => if mgr.nQueueLevel = mgr.nMaxQueueSlotNo then mgr.returns .errInvalidIndex else mgr.goOn call .copy
  | .copy => (mgr.write copy call).goOn call .enqueue
  | .enqueue =>
    goOn { mgr with
      consoleMessageQueue := mgr.consoleMessageQueue ++ [mgr.nNextSlot]
      accepted := mgr.accepted ++ [(call.eLvl,call.strMessage)] } call .advance
  | .advance =>
    goOn {mgr with nNextSlot := if (mgr.nNextSlot : Int) + 1 = mgr.nMaxQueueSlotNo then 0 else mgr.nNextSlot + 1}
      call .count
  | .count => returns {mgr with nQueueLevel := mgr.nQueueLevel + 1} call.nResult

def step : LogAction → Option LogMessageMgr
  | .queueConsoleLog strMessage eLvl =>
    if mgr.queueing.isSome then none
    else some {mgr with queueing := some ⟨strMessage,eLvl,.errNoError,.length,0⟩}
  | .queueStep => mgr.queueing.map (mgr.queueStep copy)
  | .tryDequeue =>
    match mgr.printing, mgr.consoleMessageQueue with
    | .idle, slot::queue => some {mgr with consoleMessageQueue := queue, printing := .dequeued slot}
    | _, _ => none
  | .print =>
    match mgr.printing with
    | .dequeued slot =>
      some { mgr with
        printing := .printed
        printed := mgr.printed ++ [((mgr.slots slot).eLogLvl,cString (mgr.slots slot).strMsg)] }
    | _ => none
  | .release =>
    if mgr.printing = .printed then some {mgr with printing := .idle, nQueueLevel := mgr.nQueueLevel - 1} else none

/-- What the ring of slots promises. -/
structure Promises (mgr : LogMessageMgr) : Prop where
  terminates : ∀ call ∈ mgr.queueing, call.steps ≤ 8
  level : mgr.queueing = none → mgr.printing = .idle →
    mgr.nQueueLevel = mgr.consoleMessageQueue.length ∧ mgr.nQueueLevel ≤ mgr.nMaxQueueSlotNo
  slots : mgr.overwritten = false ∧ mgr.outside = false
  /-- What has been printed are the first texts that were accepted, and the others are queued. -/
  printed : mgr.printed <+: mgr.accepted ∧
    (mgr.printing = .idle → mgr.printed.length + mgr.consoleMessageQueue.length = mgr.accepted.length)

/-- A message that fits has no zero, for one that does not the warning fits, and none comes when all slots but one
are in use. -/
def Careful (mgr : LogMessageMgr) : LogAction → Prop
  | .queueConsoleLog strMessage _ => if mgr.fits strMessage then 0 ∉ strMessage else mgr.fits lengthExceeded
  | .queueStep => ∀ call ∈ mgr.queueing, call.position = .level → mgr.nQueueLevel ≠ mgr.nMaxQueueSlotNo - 1
  | .tryDequeue | .print | .release => True

instance (mgr : LogMessageMgr) (action : LogAction) : Decidable (mgr.Careful action) := by
  cases action <;> unfold Careful <;> infer_instance

end LogMessageMgr

namespace PrintPosition

/-- An entry that is not in the queue any more but not yet printed. -/
def taken : PrintPosition → Nat
  | .dequeued _ => 1
  | .idle | .printed => 0

/-- An entry that is printed but still counted. -/
def uncounted : PrintPosition → Nat
  | .printed => 1
  | .idle | .dequeued _ => 0

end PrintPosition

namespace QueuePosition

/-- An entry is enqueued whose slot is still the next one. -/
def advancing : QueuePosition → Nat
  | .advance => 1
  | _ => 0

/-- An entry is enqueued that is not yet counted. -/
def counting : QueuePosition → Nat
  | .advance | .count => 1
  | _ => 0

/-- A slot is needed that has been found free. -/
def needed : QueuePosition → Nat
  | .full | .copy | .enqueue => 1
  | _ => 0

/-- The steps of a call that is not repeated. -/
def done : QueuePosition → Nat
  | .length => 1
  | .level | .overrun => 2
  | .full => 3
  | .copy => 4
  | .enqueue => 5
  | .advance => 6
  | .count => 7

end QueuePosition

namespace LogMessageMgr
variable {text : List UInt8}

/-- A number that depends on where the call is. -/
def atPosition (mgr : LogMessageMgr) (number : QueuePosition → Nat) : Nat :=
  (mgr.queueing.map fun call => number call.position).getD 0

/-- The call queues a text that fits and has no zero, or is about to find that the message does not fit. -/
structure CallSound (m : Nat) (call : QueueCall) : Prop where
  text : (call.strMessage.length < m ∧ 0 ∉ call.strMessage) ∨
    (call.position = .length ∧ call.steps = 0 ∧ m ≤ call.strMessage.length ∧ lengthExceeded.length < m)
  position : call.position ≠ .overrun
  steps : call.steps ≤ call.position.done

/-- What is kept by a ring of `n` slots for `m` characters. -/
structure Sound (n m : Nat) (mgr : LogMessageMgr) : Prop where
  slotNo : mgr.nMaxQueueSlotNo = n
  length : sizeT mgr.nMaxMessageLength = m
  memory : mgr.nMaxQueueMemSize = n * (m + 1)
  taken : mgr.printed.length + mgr.printing.taken ≤ mgr.accepted.length
  uncounted : mgr.printing.uncounted ≤ mgr.printed.length
  queue : mgr.consoleMessageQueue = (List.range' (mgr.printed.length + mgr.printing.taken)
    (mgr.accepted.length - (mgr.printed.length + mgr.printing.taken))).map (· % n)
  dequeued : ∀ slot, mgr.printing = .dequeued slot → slot = mgr.printed.length % n
  advancing : mgr.atPosition QueuePosition.advancing ≤ mgr.accepted.length
  next : mgr.nNextSlot = (mgr.accepted.length - mgr.atPosition QueuePosition.advancing) % n
  level : mgr.nQueueLevel + mgr.atPosition QueuePosition.counting + mgr.printed.length =
    mgr.accepted.length + mgr.printing.uncounted
  room : mgr.accepted.length + mgr.printing.uncounted + mgr.atPosition QueuePosition.needed < n + mgr.printed.length
  contents : ∀ j, mgr.printed.length ≤ j → j < mgr.accepted.length →
    mgr.accepted[j]? = some ((mgr.slots (j % n)).eLogLvl,cString (mgr.slots (j % n)).strMsg)
  written : ∀ call ∈ mgr.queueing, call.position = .enqueue →
    (call.eLvl,call.strMessage) = ((mgr.slots mgr.nNextSlot).eLogLvl,cString (mgr.slots mgr.nNextSlot).strMsg)
  printed : mgr.printed <+: mgr.accepted
  call : ∀ call ∈ mgr.queueing, CallSound m call
  unharmed : mgr.overwritten = false ∧ mgr.outside = false

variable {copy : Nat → List UInt8 → List UInt8} {n m : Nat} {mgr after : LogMessageMgr} {call : QueueCall}
  {action : LogAction}

theorem sizeT_natCast (h : m < 2 ^ 64) : sizeT m = m := by
  unfold sizeT
  omega

theorem cString_of_not_mem (h : 0 ∉ text) : cString text = text := by
  rw [cString,takeWhile_eq_self_iff]
  intro c hc
  exact decide_eq_true fun hzero => h (hzero ▸ hc)

theorem cString_append_zero (h : 0 ∉ text) : cString (text ++ [0]) = text := by
  rw [cString,takeWhile_append_of_pos,takeWhile_cons_of_neg (by decide),append_nil]
  intro c hc
  exact decide_eq_true fun hzero => h (hzero ▸ hc)

theorem not_mem_lengthExceeded : 0 ∉ lengthExceeded := by decide

theorem Sound.next_free (h : mgr.Sound n m) (hfree : mgr.atPosition QueuePosition.advancing = 0)
    (hroom : mgr.accepted.length < n - 1 + mgr.printed.length) :
    mgr.nNextSlot ∉ mgr.consoleMessageQueue ∧ mgr.printing ≠ .dequeued mgr.nNextSlot ∧
      ∀ j, mgr.printed.length ≤ j → j < mgr.accepted.length → j % n ≠ mgr.nNextSlot := by
  have hother (j : Nat) (hle : mgr.printed.length ≤ j) (hlt : j < mgr.accepted.length) : j % n ≠ mgr.nNextSlot := by
    rw [h.next,hfree,Nat.sub_zero]
    intro hsame
    have hmod : j ≡ mgr.accepted.length [MOD n] := hsame
    have hdvd := (modEq_iff_dvd' (le_of_lt hlt)).mp hmod
    exact absurd (le_of_dvd (by omega) hdvd) (by omega)
  have htaken := h.taken
  refine ⟨fun hmem => ?_,fun hprinting => ?_,hother⟩
  · rw [h.queue] at hmem
    obtain ⟨j,hj,hslot⟩ := mem_map.mp hmem
    rw [mem_range'_1] at hj
    exact hother j (by omega) (by omega) hslot
  · rw [hprinting] at htaken
    exact hother mgr.printed.length (le_refl _) htaken (h.dequeued _ hprinting).symm

theorem CallSound.text_of_ne (h : CallSound m call) (hposition : call.position ≠ .length) :
    call.strMessage.length < m ∧ 0 ∉ call.strMessage :=
  h.text.resolve_right fun hlength => hposition hlength.1

theorem Sound.fits_iff (h : mgr.Sound n m) : mgr.fits text = true ↔ text.length < m := by
  rw [fits,h.length,decide_eq_true_iff,succ_le_iff]

theorem atPosition_some (hcall : mgr.queueing = some call) (number : QueuePosition → Nat) :
    mgr.atPosition number = number call.position := by
  rw [atPosition,hcall]
  rfl

section
variable (h : mgr.Sound n m)
include h

theorem Sound.goOn (hcall : mgr.queueing = some call) {next : QueueCall}
    (hold : call.position.counting = 0) (hnew : next.position.counting = 0)
    (hroom : mgr.accepted.length + mgr.printing.uncounted + next.position.needed < n + mgr.printed.length)
    (hposition : next.position ≠ .enqueue) (hsound : CallSound m next) :
    Sound n m {mgr with queueing := some next} := by
  have hadvancing {position : QueuePosition} (hzero : position.counting = 0) : position.advancing = 0 := by
    cases position <;> first | rfl | cases hzero
  have hbefore := h.next
  have hlevel := h.level
  rw [atPosition_some hcall,hadvancing hold] at hbefore
  rw [atPosition_some hcall,hold] at hlevel
  refine ⟨h.slotNo,h.length,h.memory,h.taken,h.uncounted,h.queue,h.dequeued,?_,?_,?_,hroom,h.contents,?_,
    h.printed,?_,h.unharmed⟩
  · change next.position.advancing ≤ _
    rw [hadvancing hnew]
    exact zero_le _
  · change mgr.nNextSlot = (mgr.accepted.length - next.position.advancing) % n
    rw [hadvancing hnew]
    exact hbefore
  · change mgr.nQueueLevel + next.position.counting + mgr.printed.length = _
    rw [hnew]
    exact hlevel
  · rintro other ⟨⟩ henqueue
    exact absurd henqueue hposition
  · rintro other ⟨⟩
    exact hsound

theorem Sound.copies (hslots : 0 < n) (hcopy : ∀ size text, text.length < size → copy size text = text ++ [0])
    (hcall : mgr.queueing = some call) (hposition : call.position = .copy) :
    ((mgr.write copy call).goOn call .enqueue).Sound n m := by
  have hsound := h.call call hcall
  have hnumber := atPosition_some hcall
  obtain ⟨hlength,hzero⟩ := hsound.text_of_ne (hposition ▸ nofun)
  have hroom := h.room
  rw [hnumber,hposition,QueuePosition.needed] at hroom
  have hadvancing : mgr.atPosition QueuePosition.advancing = 0 := by rw [hnumber,hposition]; rfl
  obtain ⟨hqueued,hprinting,hother⟩ := h.next_free hadvancing (by omega)
  have hbytes : copy (m + 1) (cString call.strMessage) = call.strMessage ++ [0] := by
    rw [cString_of_not_mem hzero,hcopy _ _ (by omega)]
  have hnext : mgr.nNextSlot < n := h.next ▸ mod_lt _ hslots
  have hlast : (mgr.nNextSlot + 1) * (m + 1) ≤ n * (m + 1) := mul_le_mul_right _ hnext
  rw [succ_mul] at hlast
  have hbefore := h.next
  have hlevel := h.level
  rw [hadvancing] at hbefore
  rw [hnumber,hposition] at hlevel
  rw [LogMessageMgr.goOn,write]
  refine ⟨h.slotNo,h.length,h.memory,h.taken,h.uncounted,h.queue,h.dequeued,zero_le _,hbefore,hlevel,hroom,
    fun j hle hlt => ?_,?_,h.printed,?_,?_,?_⟩
  · dsimp only
    rw [Function.update_of_ne (hother j hle hlt)]
    exact h.contents j hle hlt
  · rintro other ⟨⟩ -
    change _ = ((Function.update mgr.slots mgr.nNextSlot _ mgr.nNextSlot).eLogLvl,cString
      (Function.update mgr.slots mgr.nNextSlot _ mgr.nNextSlot).strMsg)
    rw [Function.update_self,h.length,hbytes,cString_append_zero hzero]
  · rintro other ⟨⟩
    have hsteps := hsound.steps
    rw [hposition] at hsteps
    exact ⟨.inl ⟨hlength,hzero⟩,nofun,succ_le_succ hsteps⟩
  · change (mgr.overwritten || _ || decide (mgr.printing = .dequeued mgr.nNextSlot)) = false
    rw [h.unharmed.1,decide_eq_false hqueued,decide_eq_false hprinting]
    rfl
  · change (mgr.outside || decide (_ < mgr.nNextSlot * (sizeT mgr.nMaxMessageLength + 1) + 1 +
      (copy (sizeT mgr.nMaxMessageLength + 1) (cString call.strMessage)).length) || decide (mgr.nMaxQueueMemSize < _)) =
        false
    rw [h.unharmed.2,h.length,hbytes,h.memory,length_append,length_singleton,succ_mul,
      decide_eq_false (by omega),decide_eq_false (by omega)]
    rfl

theorem Sound.enqueues (hcall : mgr.queueing = some call)
    (hposition : call.position = .enqueue) : (mgr.queueStep copy call).Sound n m := by
  have hsound := h.call call hcall
  have hnumber := atPosition_some hcall
  have hbefore := h.next
  have hlevel := h.level
  have hroom := h.room
  have htaken := h.taken
  rw [hnumber,hposition] at hbefore hlevel hroom
  have hlength : (mgr.accepted ++ [(call.eLvl,call.strMessage)]).length = mgr.accepted.length + 1 := length_append
  rw [queueStep,hposition]
  dsimp only [LogMessageMgr.goOn]
  refine ⟨h.slotNo,h.length,h.memory,?_,h.uncounted,?_,h.dequeued,?_,?_,?_,?_,fun j hle hlt => ?_,?_,
    h.printed.trans (prefix_append _ _),?_,h.unharmed⟩
  · dsimp only
    rw [hlength]
    exact le_succ_of_le htaken
  · dsimp only
    rw [hlength,Nat.succ_sub htaken,range'_1_concat,map_append,← h.queue,hbefore,Nat.add_sub_cancel' htaken]
    rfl
  · change 1 ≤ (mgr.accepted ++ [(call.eLvl,call.strMessage)]).length
    rw [hlength]
    exact succ_pos _
  · dsimp only
    rw [hlength]
    exact hbefore
  · change mgr.nQueueLevel + (1 : Nat) + mgr.printed.length =
      (mgr.accepted ++ [(call.eLvl,call.strMessage)]).length + mgr.printing.uncounted
    change mgr.nQueueLevel + (0 : Nat) + mgr.printed.length = _ at hlevel
    omega
  · change (mgr.accepted ++ [(call.eLvl,call.strMessage)]).length + mgr.printing.uncounted + 0 < _
    change _ + 1 < _ at hroom
    dsimp only
    omega
  · dsimp only at hlt ⊢
    rcases Nat.lt_succ_iff_lt_or_eq.mp (hlength ▸ hlt) with hlt | rfl
    · rw [getElem?_append_left hlt]
      exact h.contents j hle hlt
    · rw [getElem?_concat_length,h.written call hcall hposition,hbefore]
      rfl
  · rintro other ⟨⟩ ⟨⟩
  · rintro other ⟨⟩
    have hsteps := hsound.steps
    rw [hposition] at hsteps
    exact ⟨.inl (hsound.text_of_ne (hposition ▸ nofun)),nofun,succ_le_succ hsteps⟩

theorem Sound.advances (hslots : 0 < n) (hcall : mgr.queueing = some call)
    (hposition : call.position = .advance) : (mgr.queueStep copy call).Sound n m := by
  have hsound := h.call call hcall
  have hnumber := atPosition_some hcall
  have hslotNo := h.slotNo
  have hbefore := h.next
  have hlevel := h.level
  have hroom := h.room
  have hone := h.advancing
  rw [hnumber,hposition] at hbefore hlevel hroom hone
  have hnext : mgr.accepted.length % n = (mgr.nNextSlot + 1) % n := by
    rw [hbefore,mod_add_mod]
    exact congrArg (· % n) (Nat.sub_add_cancel hone).symm
  rw [queueStep,hposition]
  refine ⟨h.slotNo,h.length,h.memory,h.taken,h.uncounted,h.queue,h.dequeued,zero_le _,?_,hlevel,hroom,
    h.contents,?_,h.printed,?_,h.unharmed⟩
  · change (if (mgr.nNextSlot : Int) + 1 = mgr.nMaxQueueSlotNo then 0 else mgr.nNextSlot + 1) = mgr.accepted.length % n
    rw [hnext]
    split
    · rw [show mgr.nNextSlot + 1 = n by omega,mod_self]
    · have hlt : mgr.nNextSlot < n := hbefore ▸ mod_lt _ hslots
      exact (mod_eq_of_lt (by omega)).symm
  · rintro other ⟨⟩ ⟨⟩
  · rintro other ⟨⟩
    have hsteps := hsound.steps
    rw [hposition] at hsteps
    exact ⟨.inl (hsound.text_of_ne (hposition ▸ nofun)),nofun,succ_le_succ hsteps⟩

private theorem Sound.counts (hcall : mgr.queueing = some call)
    (hposition : call.position = .count) : (mgr.queueStep copy call).Sound n m := by
  have hnumber := atPosition_some hcall
  have hbefore := h.next
  have hlevel := h.level
  have hroom := h.room
  rw [hnumber,hposition] at hbefore hlevel hroom
  rw [queueStep,hposition]
  refine ⟨h.slotNo,h.length,h.memory,h.taken,h.uncounted,h.queue,h.dequeued,zero_le _,hbefore,?_,hroom,
    h.contents,nofun,h.printed,nofun,h.unharmed⟩
  change mgr.nQueueLevel + 1 + (0 : Nat) + mgr.printed.length = mgr.accepted.length + mgr.printing.uncounted
  change mgr.nQueueLevel + (1 : Nat) + mgr.printed.length = _ at hlevel
  omega

theorem Sound.queueStep (hslots : 0 < n) (hcopy : ∀ size text, text.length < size → copy size text = text ++ [0])
    (hcareful : mgr.Careful .queueStep) (hcall : mgr.queueing = some call) : (mgr.queueStep copy call).Sound n m := by
  have hsound := h.call call hcall
  have hroom := h.room
  rw [atPosition_some hcall] at hroom
  cases hposition : call.position with
  | length =>
    rw [LogMessageMgr.queueStep,hposition]
    have hsteps := hsound.steps
    rw [hposition] at hroom hsteps
    rcases hsound.text with htext | ⟨-,hfirst,hlong,hwarning⟩
    · rw [if_pos (h.fits_iff.mpr htext.1)]
      exact h.goOn hcall (hposition ▸ rfl) rfl hroom nofun ⟨.inl htext,nofun,succ_le_succ hsteps⟩
    · rw [if_neg fun hfits => not_lt.mpr hlong (h.fits_iff.mp hfits)]
      exact h.goOn hcall (hposition ▸ rfl) rfl hroom nofun
        ⟨.inl ⟨hwarning,not_mem_lengthExceeded⟩,nofun,succ_le_succ (le_of_eq hfirst)⟩
  | level =>
    rw [LogMessageMgr.queueStep,hposition]
    have hfree := hcareful call hcall hposition
    have hlevel := h.level
    have hsteps := hsound.steps
    rw [atPosition_some hcall,hposition] at hlevel
    rw [hposition] at hroom hsteps
    rw [if_neg hfree]
    refine h.goOn hcall (hposition ▸ rfl) rfl ?_ nofun
      ⟨.inl (hsound.text_of_ne (hposition ▸ nofun)),nofun,succ_le_succ hsteps⟩
    rw [h.slotNo] at hfree
    change mgr.nQueueLevel + (0 : Nat) + mgr.printed.length = _ at hlevel
    change _ + 1 < _
    omega
  | overrun => exact absurd hposition hsound.position
  | full =>
    rw [LogMessageMgr.queueStep,hposition]
    dsimp only
    have hlevel := h.level
    have hsteps := hsound.steps
    rw [hposition] at hroom hsteps
    rw [if_neg]
    · exact h.goOn hcall (hposition ▸ rfl) rfl hroom nofun
        ⟨.inl (hsound.text_of_ne (hposition ▸ nofun)),nofun,succ_le_succ hsteps⟩
    · rw [h.slotNo]
      omega
  | copy =>
    have hcopied := h.copies hslots hcopy hcall hposition
    rw [LogMessageMgr.queueStep,hposition]
    exact hcopied
  | enqueue => exact h.enqueues hcall hposition
  | advance => exact h.advances hslots hcall hposition
  | count => exact h.counts hcall hposition

theorem Sound.tryDequeue (hidle : mgr.printing = .idle) {slot : Nat} {queue : List Nat}
    (hqueue : mgr.consoleMessageQueue = slot::queue) :
    Sound n m {mgr with consoleMessageQueue := queue, printing := .dequeued slot} := by
  have hentries := h.queue
  have htaken := h.taken
  have hroom := h.room
  have hlevel := h.level
  rw [hidle] at hentries htaken hroom hlevel
  rw [hqueue] at hentries
  obtain ⟨rest,hrest⟩ : ∃ rest, mgr.accepted.length - (mgr.printed.length + 0) = rest + 1 := by
    refine exists_eq_succ_of_ne_zero fun hempty => ?_
    rw [PrintPosition.taken,hempty] at hentries
    cases hentries
  rw [PrintPosition.taken,hrest,range'_succ,map_cons] at hentries
  obtain ⟨hslot,hqueue⟩ := List.cons.inj hentries
  refine ⟨h.slotNo,h.length,h.memory,?_,zero_le _,?_,?_,h.advancing,h.next,hlevel,hroom,h.contents,
    h.written,h.printed,h.call,h.unharmed⟩
  · change mgr.printed.length + 1 ≤ mgr.accepted.length
    omega
  · change queue = (List.range' (mgr.printed.length + 1) (mgr.accepted.length - (mgr.printed.length + 1))).map (· % n)
    rw [hqueue,show mgr.accepted.length - (mgr.printed.length + 1) = rest by omega]
  · rintro other ⟨⟩
    exact hslot

theorem Sound.print {slot : Nat} (hprinting : mgr.printing = .dequeued slot) : Sound n m { mgr with
      printing := .printed
      printed := mgr.printed ++ [((mgr.slots slot).eLogLvl,cString (mgr.slots slot).strMsg)] } := by
  have hentries := h.queue
  have htaken := h.taken
  have hroom := h.room
  have hlevel := h.level
  rw [hprinting] at hentries htaken hroom hlevel
  have hcontent := h.contents mgr.printed.length (le_refl _) htaken
  rw [← h.dequeued slot hprinting] at hcontent
  have hlength : (mgr.printed ++ [((mgr.slots slot).eLogLvl,cString (mgr.slots slot).strMsg)]).length =
      mgr.printed.length + 1 := length_append
  refine ⟨h.slotNo,h.length,h.memory,?_,?_,?_,nofun,h.advancing,h.next,?_,?_,fun j hle hlt => ?_,h.written,
    ?_,h.call,h.unharmed⟩
  · dsimp only
    rw [hlength]
    exact htaken
  · dsimp only
    rw [hlength]
    exact succ_pos _
  · dsimp only
    rw [hlength]
    exact hentries
  · dsimp only
    rw [hlength]
    change mgr.nQueueLevel + mgr.atPosition QueuePosition.counting + (mgr.printed.length + 1 : Nat) =
      mgr.accepted.length + (1 : Nat)
    change _ = mgr.accepted.length + ((0 : Nat) : Int) at hlevel
    omega
  · dsimp only
    rw [hlength]
    change mgr.accepted.length + 1 + mgr.atPosition QueuePosition.needed < n + (mgr.printed.length + 1)
    omega
  · dsimp only at hle hlt ⊢
    rw [hlength] at hle
    exact h.contents j (le_of_succ_le hle) hlt
  · obtain ⟨rest,hrest⟩ := h.printed
    rw [← hrest,getElem?_append_right (Nat.le_refl _),Nat.sub_self] at hcontent
    cases rest with
    | nil => cases hcontent
    | cons first rest =>
      cases hcontent
      exact ⟨rest,by rw [← hrest,append_assoc,singleton_append]⟩

theorem Sound.release (hprinting : mgr.printing = .printed) :
    Sound n m {mgr with printing := .idle, nQueueLevel := mgr.nQueueLevel - 1} := by
  have hentries := h.queue
  have htaken := h.taken
  have hroom := h.room
  have hlevel := h.level
  rw [hprinting] at hentries htaken hroom hlevel
  refine ⟨h.slotNo,h.length,h.memory,htaken,zero_le _,hentries,nofun,h.advancing,h.next,?_,?_,h.contents,
    h.written,h.printed,h.call,h.unharmed⟩
  · change mgr.nQueueLevel - 1 + mgr.atPosition QueuePosition.counting + mgr.printed.length =
      mgr.accepted.length + ((0 : Nat) : Int)
    change _ = mgr.accepted.length + ((1 : Nat) : Int) at hlevel
    omega
  · change mgr.accepted.length + 0 + mgr.atPosition QueuePosition.needed < n + mgr.printed.length
    omega

private theorem Sound.called (hnone : mgr.queueing = none) {strMessage : List UInt8}
    {eLvl : LogLevel} (hcareful : mgr.Careful (.queueConsoleLog strMessage eLvl)) :
    Sound n m {mgr with queueing := some ⟨strMessage,eLvl,.errNoError,.length,0⟩} := by
  have hbefore := h.next
  have hlevel := h.level
  have hroom := h.room
  have hnumber (number : QueuePosition → Nat) : mgr.atPosition number = 0 := by
    rw [atPosition,hnone]
    rfl
  rw [hnumber] at hbefore hlevel hroom
  refine ⟨h.slotNo,h.length,h.memory,h.taken,h.uncounted,h.queue,h.dequeued,zero_le _,hbefore,hlevel,hroom,
    h.contents,?_,h.printed,?_,h.unharmed⟩
  · rintro other ⟨⟩ ⟨⟩
  · rintro other ⟨⟩
    refine ⟨?_,nofun,zero_le _⟩
    rw [Careful] at hcareful
    split at hcareful
    · rename_i hfits
      exact .inl ⟨h.fits_iff.mp hfits,hcareful⟩
    · rename_i hlong
      exact .inr ⟨rfl,rfl,not_lt.mp (mt h.fits_iff.mpr hlong),h.fits_iff.mp hcareful⟩

theorem Sound.step (hslots : 0 < n)
    (hcopy : ∀ size text, text.length < size → copy size text = text ++ [0]) (hcareful : mgr.Careful action)
    (hstep : mgr.step copy action = some after) : after.Sound n m := by
  cases action with
  | queueConsoleLog strMessage eLvl =>
    rw [LogMessageMgr.step] at hstep
    split at hstep
    · cases hstep
    · rename_i hnone
      cases hstep
      exact h.called (Option.not_isSome_iff_eq_none.mp hnone) hcareful
  | queueStep =>
    obtain ⟨call,hcall,rfl⟩ := Option.map_eq_some_iff.mp hstep
    exact h.queueStep hslots hcopy hcareful hcall
  | tryDequeue =>
    rw [LogMessageMgr.step] at hstep
    split at hstep
    · rename_i hidle hqueue
      cases hstep
      exact h.tryDequeue hidle hqueue
    · cases hstep
  | print =>
    rw [LogMessageMgr.step] at hstep
    split at hstep
    · rename_i hprinting
      cases hstep
      exact h.print hprinting
    · cases hstep
  | release =>
    rw [LogMessageMgr.step] at hstep
    split at hstep
    · rename_i hprinting
      cases hstep
      exact h.release hprinting
    · cases hstep

end

private theorem sound_create (hslots : 2 ≤ n) (hmemory : n * (m + 1) < 2 ^ 31) : (create n m).Sound n m := by
  have hle : n ≤ n * (m + 1) := Nat.le_mul_of_pos_right n (succ_pos m)
  have hlength : m + 1 ≤ n * (m + 1) := Nat.le_mul_of_pos_left (m + 1) (by omega)
  have hn : wrap32 n = n := wrap32_eq_self_iff.mpr (by omega)
  have hm : wrap32 m = m := wrap32_eq_self_iff.mpr (by omega)
  have hsize : wrap32 ((n : Int) * (m + 1)) = (n * (m + 1) : Nat) := by
    rw [show (n : Int) * (m + 1) = (n * (m + 1) : Nat) by push_cast; rfl]
    exact wrap32_eq_self_iff.mpr (by omega)
  rw [create,hn,hm,hsize]
  refine ⟨rfl,?_,?_,le_refl _,le_refl _,rfl,nofun,zero_le _,?_,rfl,?_,fun j _ hlt => ?_,nofun,
    prefix_refl _,nofun,rfl,rfl⟩
  · exact sizeT_natCast (by omega)
  · exact Int.toNat_natCast _
  · exact (zero_mod n).symm
  · change 0 < n
    omega
  · cases hlt

/-- In every run of a ring of at least two slots whose memory has a size, in which no message finds all slots but
one in use. -/
theorem ring_promises {n m : Nat} (hslots : 2 ≤ n) (hmemory : n * (m + 1) < 2 ^ 31)
    (hcopy : ∀ size text, text.length < size → copy size text = text ++ [0])
    (h : Reaches (step copy) Careful (create n m) mgr) : mgr.Promises := by
  have hsound : mgr.Sound n m := h.invariant (sound_create hslots hmemory) fun _ _ _ hbefore hcareful hstep =>
    hbefore.step (by omega) hcopy hcareful hstep
  have hqueue := congrArg List.length hsound.queue
  rw [length_map,length_range'] at hqueue
  have htaken := hsound.taken
  have hlevel := hsound.level
  have hroom := hsound.room
  refine ⟨fun call hcall => ?_,fun hnone hidle => ?_,hsound.unharmed,hsound.printed,fun hidle => ?_⟩
  · refine le_trans (hsound.call call hcall).steps ?_
    cases call.position <;> decide
  · rw [atPosition,hnone,hidle] at hlevel
    rw [hidle] at hqueue htaken hroom
    rw [hsound.slotNo]
    simp only [PrintPosition.taken,PrintPosition.uncounted,Option.map_none,Option.getD_none] at *
    omega
  · rw [hidle] at hqueue htaken
    simp only [PrintPosition.taken] at *
    omega

/-- As many characters as have room with the zero behind them. -/
private def copyText (size : Nat) (text : List UInt8) : List UInt8 := text.take (size - 1) ++ [0]

private theorem copyText_of_lt (size : Nat) (text : List UInt8) (h : text.length < size) :
    copyText size text = text ++ [0] := by
  rw [copyText,take_of_length_le (by omega)]

private def logged (strMessage : List UInt8) (eLvl : LogLevel) : List LogAction :=
  .queueConsoleLog strMessage eLvl::List.replicate 7 .queueStep

/-- The third message goes round to the first slot while the second one is being printed. -/
theorem ring_with_messages : ∃ mgr : LogMessageMgr, mgr.Promises ∧
    mgr.printed = [(.info,[65]),(.error,[66,67]),(.dump,[68])] ∧
    mgr.results = [.errNoError,.errNoError,.errNoError] := by
  obtain ⟨mgr,hreach,hprinted,hresults⟩ : ∃ mgr, Reaches (step copyText) Careful (create 3 63) mgr ∧
      mgr.printed = [(.info,[65]),(.error,[66,67]),(.dump,[68])] ∧
      mgr.results = [.errNoError,.errNoError,.errNoError] :=
    exists_of_runAllowed (logged [65] .info ++ logged [66,67] .error ++ [.tryDequeue,.print,.release,.tryDequeue] ++
      logged [68] .dump ++ [.print,.release,.tryDequeue,.print,.release]) (by decide +kernel)
  exact ⟨mgr,ring_promises (le_succ 2) (by decide) copyText_of_lt hreach,hprinted,hresults⟩

/-- The message that finds one of two slots in use is replaced by a warning in the other one, and only one entry is
counted. -/
theorem overrun_miscounts : ∃ mgr : LogMessageMgr, Reaches (step copyText) anyAction (create 2 255) mgr ∧
    ¬mgr.Promises := by
  refine ⟨_,@reaches_of_runActions _ _ (step copyText) (create 2 255) _ (.queueConsoleLog [65] .info ::
    List.replicate 7 .queueStep ++ .queueConsoleLog [66] .info::List.replicate 10 .queueStep) rfl,fun hpromises => ?_⟩
  have hlevel := (hpromises.level rfl rfl).1
  exact absurd hlevel (by decide)

end LogMessageMgr

end FepParticipant.Incidents
