import Mathlib.Data.List.Basic
import Mathlib.Algebra.Ring.Int.Defs

/-! The discrete clock, the events it sends to its sink, and the clock service that starts and
stops its current clock; and the clock master that slaves follow. -/
namespace FepParticipant.Clock
open Function

inductive ClockEvent where
  | timeUpdateBegin (oldTime newTime : Int)
  | timeUpdating (newTime : Int)
  | timeUpdateEnd (newTime : Int)
  | timeResetBegin (oldTime newTime : Int)
  | timeResetEnd (newTime : Int)

/-- The sink is known between start and stop only; the time outlives both. -/
structure DiscreteClock where
  currentTime : Int
  updated : Bool
  started : Bool
  eventSink : Bool
  deriving DecidableEq

namespace DiscreteClock
variable (clock : DiscreteClock)

def new : DiscreteClock := ⟨0,false,false,false⟩

/-- Events go to the sink, if there is one. -/
def emit (events : List ClockEvent) : List ClockEvent := if clock.eventSink then events else []

def setResetTime (newTime : Int) : DiscreteClock × List ClockEvent :=
  ({clock with currentTime := newTime},
    clock.emit [.timeResetBegin clock.currentTime newTime,.timeResetEnd newTime])

def reset : DiscreteClock × List ClockEvent := {clock with updated := true}.setResetTime 0

def setNewTime (newTime : Int) (sendUpdateBeforeAfter : Bool) :
    DiscreteClock × List ClockEvent :=
  if ¬clock.updated then {clock with updated := true}.setResetTime newTime
  else if newTime < clock.currentTime then clock.setResetTime newTime
  else
    ({clock with currentTime := newTime},
      clock.emit ((if sendUpdateBeforeAfter then [.timeUpdateBegin clock.currentTime newTime] else []) ++
        .timeUpdating newTime::if sendUpdateBeforeAfter then [.timeUpdateEnd newTime] else []))

def start : DiscreteClock × List ClockEvent :=
  {clock with updated := false, eventSink := true, started := true}.reset

def stop : DiscreteClock := {clock with started := false, eventSink := false, updated := false}

end DiscreteClock

inductive ClockCall where
  | setNewTime (newTime : Int) (sendUpdateBeforeAfter : Bool)
  | setResetTime (newTime : Int)

def ClockCall.apply (clock : DiscreteClock) : ClockCall → DiscreteClock × List ClockEvent
  | .setNewTime newTime sendUpdateBeforeAfter => clock.setNewTime newTime sendUpdateBeforeAfter
  | .setResetTime newTime => clock.setResetTime newTime

structure LocalClockService where
  currentClock : DiscreteClock
  isStarted : Bool
  deriving DecidableEq

namespace LocalClockService

def new : LocalClockService := ⟨DiscreteClock.new,false⟩

def start (service : LocalClockService) : LocalClockService × List ClockEvent :=
  let (clock,events) := service.currentClock.start
  (⟨clock,true⟩,events)

def stop (service : LocalClockService) : LocalClockService := ⟨service.currentClock.stop,false⟩

def getTime (service : LocalClockService) : Int := if ¬service.isStarted then 0 else service.currentClock.currentTime

def call (service : LocalClockService) (clockCall : ClockCall) : LocalClockService × List ClockEvent :=
  let (clock,events) := clockCall.apply service.currentClock
  ({service with currentClock := clock},events)

end LocalClockService

inductive EventID where
  | timeUpdateBefore
  | timeUpdating
  | timeUpdateAfter
  | timeReset
  deriving DecidableEq

def EventID.flag : EventID → Nat
  | .timeUpdateBefore => 0x01
  | .timeUpdating => 0x02
  | .timeUpdateAfter => 0x04
  | .timeReset => 0x08

/-- The arguments of one `syncTimeEvent` call. -/
structure TimeEvent where
  eventId : EventID
  newTime : String
  oldTime : String

/-- Conversions between times and strings, which lose no time of 64 bits. -/
structure TimeStrings where
  toString : Int → String
  toInt64 : String → Int
  toInt64_toString : ∀ time : Int, -2 ^ 63 ≤ time → time < 2 ^ 63 → toInt64 (toString time) = time

def TimeStrings.decimal : TimeStrings where
  toString time := .ofList (if time < 0 then '-' :: Nat.toDigits 10 time.natAbs else Nat.toDigits 10 time.natAbs)
  toInt64 text :=
    match text.toList with
    | '-' :: digits => -(Nat.ofDigitChars 10 digits 0 : Int)
    | digits => (Nat.ofDigitChars 10 digits 0 : Int)
  toInt64_toString time _ _ := by
    have hdigits : Nat.ofDigitChars 10 (Nat.toDigits 10 time.natAbs) 0 = time.natAbs := Nat.ofDigitChars_ten_toDigits
    simp only [String.toList_ofList]
    by_cases hnegative : time < 0
    · simp only [if_pos hnegative,hdigits]
      omega
    · simp only [if_neg hnegative]
      split
      · rename_i digits hminus
        have hmem : '-' ∈ Nat.toDigits 10 time.natAbs := by
          rw [hminus]
          exact List.mem_cons_self
        have hminus' := Nat.isDigit_of_mem_toDigits (by decide) (by decide) hmem
        exact absurd hminus' (by decide)
      · rw [hdigits]
        omega

structure ClockSlave where
  active : Bool
  eventIdFlag : Nat

def ClockSlave.isSet (slave : ClockSlave) (eventId : EventID) : Bool :=
  slave.eventIdFlag &&& eventId.flag == eventId.flag

/-- The slaves by their names. -/
structure ClockMaster where
  slaves : String → Option ClockSlave

namespace ClockMaster

def new : ClockMaster := ⟨fun _ => none⟩

def registerSlave (master : ClockMaster) (name : String) (eventIdFlag : Nat) : ClockMaster :=
  ⟨Function.update master.slaves name (some ⟨true,eventIdFlag⟩)⟩

/-- A slave is only deactivated, and may be registered again. -/
def unregisterSlave (master : ClockMaster) (name : String) : ClockMaster :=
  ⟨Function.update master.slaves name ((master.slaves name).map fun slave => {slave with active := false})⟩

/-- Whether the slave is active is not asked for. -/
def sendTo (master : ClockMaster) (name : String) (event : TimeEvent) : List TimeEvent :=
  match master.slaves name with
  | some slave => if slave.isSet event.eventId then [event] else []
  | none => []

def handle (strings : TimeStrings) (master : ClockMaster) (name : String) : ClockEvent → List TimeEvent
  | .timeUpdateBegin oldTime newTime =>
    master.sendTo name ⟨.timeUpdateBefore,strings.toString newTime,strings.toString oldTime⟩
  | .timeUpdating newTime => master.sendTo name ⟨.timeUpdating,strings.toString newTime,strings.toString 0⟩
  | .timeUpdateEnd newTime => master.sendTo name ⟨.timeUpdateAfter,strings.toString newTime,strings.toString 0⟩
  | .timeResetBegin oldTime newTime =>
    master.sendTo name ⟨.timeReset,strings.toString newTime,strings.toString oldTime⟩
  | .timeResetEnd _ => []

end ClockMaster

/-- The events a slave registers for. -/
def getEventIDFlags (beforeAndAfterEvent : Bool) : Nat :=
  if beforeAndAfterEvent then
    EventID.timeUpdateBefore.flag ||| EventID.timeUpdating.flag ||| EventID.timeUpdateAfter.flag |||
      EventID.timeReset.flag
  else EventID.timeUpdating.flag ||| EventID.timeReset.flag

structure MasterOnDemandClockDiscrete where
  beforeAndAfterEvent : Bool
  clock : DiscreteClock

namespace MasterOnDemandClockDiscrete

def withClock (slave : MasterOnDemandClockDiscrete) (called : DiscreteClock × List ClockEvent) :
    MasterOnDemandClockDiscrete × List ClockEvent :=
  ({slave with clock := called.1},called.2)

def masterTimeEvent (slave : MasterOnDemandClockDiscrete) (eventId : EventID) (newTime oldTime : Int) :
    MasterOnDemandClockDiscrete × List ClockEvent :=
  match eventId with
  | .timeReset => if newTime ≠ oldTime then slave.withClock slave.clock.reset else (slave,[])
  | .timeUpdateBefore => (slave,slave.clock.emit [.timeUpdateBegin oldTime newTime])
  | .timeUpdating => slave.withClock (slave.clock.setNewTime newTime !slave.beforeAndAfterEvent)
  | .timeUpdateAfter => (slave,slave.clock.emit [.timeUpdateEnd newTime])

def syncTimeEvent (strings : TimeStrings) (slave : MasterOnDemandClockDiscrete) (event : TimeEvent) :
    MasterOnDemandClockDiscrete × List ClockEvent :=
  slave.masterTimeEvent event.eventId (strings.toInt64 event.newTime) (strings.toInt64 event.oldTime)

/-- Events that arrive one after the other. -/
def syncAll (strings : TimeStrings) (slave : MasterOnDemandClockDiscrete) :
    List TimeEvent → MasterOnDemandClockDiscrete × List ClockEvent
  | [] => (slave,[])
  | event::events =>
    let (slave,emitted) := slave.syncTimeEvent strings event
    let (slave,later) := slave.syncAll strings events
    (slave,emitted ++ later)

end MasterOnDemandClockDiscrete

/-- A master's clock, the slaves it knows, and one slave with its clock; of their history, the events both clocks
have sent. -/
structure ClockSynchronization where
  master : DiscreteClock
  clockMaster : ClockMaster
  name : String
  slave : MasterOnDemandClockDiscrete
  masterEvents : List ClockEvent
  slaveEvents : List ClockEvent

namespace ClockSynchronization

/-- A slave whose clock was just started registers at a master with a running clock. -/
def create (master : DiscreteClock) (clockMaster : ClockMaster) (name : String) (beforeAndAfterEvent : Bool) :
    ClockSynchronization where
  master := master
  clockMaster := clockMaster.registerSlave name (getEventIDFlags beforeAndAfterEvent)
  name := name
  slave := ⟨beforeAndAfterEvent,DiscreteClock.new.start.1⟩
  masterEvents := []
  slaveEvents := []

def validTime : ClockCall → Bool
  | .setNewTime newTime _ | .setResetTime newTime => 0 ≤ newTime && newTime < 2 ^ 63

/-- The clock of the master is updated or reset, and the slave receives what is sent to it. -/
def step (strings : TimeStrings) (s : ClockSynchronization) (call : ClockCall) : Option ClockSynchronization :=
  if validTime call then
    let (master,events) := call.apply s.master
    let (slave,emitted) := s.slave.syncAll strings (events.flatMap (s.clockMaster.handle strings s.name))
    some { s with
      master := master
      slave := slave
      masterEvents := s.masterEvents ++ events
      slaveEvents := s.slaveEvents ++ emitted }
  else none

end ClockSynchronization

/-- The event that slaves register for; nobody is told the end of a reset. -/
def ClockEvent.eventId : ClockEvent → Option EventID
  | .timeUpdateBegin _ _ => some .timeUpdateBefore
  | .timeUpdating _ => some .timeUpdating
  | .timeUpdateEnd _ => some .timeUpdateAfter
  | .timeResetBegin _ _ => some .timeReset
  | .timeResetEnd _ => none

def ClockEvent.flagIn (event : ClockEvent) (mask : Nat) : Bool :=
  event.eventId.any fun eventId => mask &&& eventId.flag == eventId.flag

/-- What a clock master is called for; the deliveries to some slaves throw. -/
inductive MasterAction where
  | registerSlave (name : String) (eventIdFlag : Nat)
  | unregisterSlave (name : String)
  | clockEvent (event : ClockEvent) (throws : String → Bool)

namespace ClockMaster

variable (strings : TimeStrings)

def sends (master : ClockMaster) (name : String) (event : ClockEvent) : Bool :=
  !(master.handle strings name event).isEmpty

def clockEvent (master : ClockMaster) (event : ClockEvent) (throws : String → Bool) : ClockMaster :=
  ⟨fun name => if master.sends strings name event && throws name
    then (master.slaves name).map fun slave => {slave with active := false} else master.slaves name⟩

def apply (master : ClockMaster) : MasterAction → ClockMaster
  | .registerSlave name eventIdFlag => master.registerSlave name eventIdFlag
  | .unregisterSlave name => master.unregisterSlave name
  | .clockEvent event throws => master.clockEvent strings event throws

/-- The master behind a history, whose latest action stands first. -/
def after : List MasterAction → ClockMaster
  | [] => new
  | action::history => (after history).apply strings action

/-- The mask of the last registration, if no unregistration and no failed delivery followed. -/
def registered (name : String) : List MasterAction → Option Nat
  | [] => none
  | .registerSlave other eventIdFlag::history => if other = name then some eventIdFlag else registered name history
  | .unregisterSlave other::history => if other = name then none else registered name history
  | .clockEvent event throws::history =>
    if (after strings history).sends strings name event && throws name then none else registered name history

/-- Every event is sent to the slave exactly if it is registered for it. -/
def Disciplined (name : String) (history : List MasterAction) : Prop :=
  ∀ later event throws earlier, history = later ++ .clockEvent event throws::earlier →
    ((after strings earlier).sends strings name event = true ↔
      (registered strings name earlier).any event.flagIn = true)

end ClockMaster

namespace MasterAction

def lastMask (name : String) : List MasterAction → Option Nat
  | [] => none
  | registerSlave other eventIdFlag::history => if other = name then some eventIdFlag else lastMask name history
  | unregisterSlave _::history | clockEvent _ _::history => lastMask name history

/-- The slave was not unregistered since its last registration, and no event threw for which it is registered. -/
def holds (name : String) : List MasterAction → Bool
  | [] => false
  | registerSlave other _::history => other = name || holds name history
  | unregisterSlave other::history => other ≠ name && holds name history
  | clockEvent event throws::history =>
    !((lastMask name history).any event.flagIn && throws name) && holds name history

/-- No event comes for which the slave was registered the last time, while it is not registered any more. -/
def Quiet (name : String) (history : List MasterAction) : Prop :=
  ∀ later event throws earlier, history = later ++ clockEvent event throws::earlier →
    (lastMask name earlier).any event.flagIn = true → holds name earlier = true

end MasterAction

namespace ClockMaster

variable {strings : TimeStrings} {master : ClockMaster} {name : String} {event : ClockEvent}
  {history : List MasterAction}

theorem sends_eq : master.sends strings name event =
    ((master.slaves name).map ClockSlave.eventIdFlag).any event.flagIn := by
  have hsendTo : ∀ sent : TimeEvent, (!(master.sendTo name sent).isEmpty) =
      ((master.slaves name).map ClockSlave.eventIdFlag).any fun mask =>
        mask &&& sent.eventId.flag == sent.eventId.flag := by
    intro sent
    rw [sendTo]
    cases master.slaves name with
    | none => rfl
    | some slave =>
      have hset : (slave.eventIdFlag &&& sent.eventId.flag == sent.eventId.flag) = slave.isSet sent.eventId := rfl
      rw [Option.map_some,Option.any_some,hset]
      dsimp only
      cases slave.isSet sent.eventId <;> rfl
  cases event with
  | timeUpdateBegin oldTime newTime => exact hsendTo _
  | timeUpdating newTime => exact hsendTo _
  | timeUpdateEnd newTime => exact hsendTo _
  | timeResetBegin oldTime newTime => exact hsendTo _
  | timeResetEnd newTime => cases master.slaves name <;> rfl

private theorem map_eventIdFlag_deactivate (slave : Option ClockSlave) :
    (slave.map fun slave => {slave with active := false}).map ClockSlave.eventIdFlag =
      slave.map ClockSlave.eventIdFlag := by
  cases slave <;> rfl

theorem mask_after :
    ((after strings history).slaves name).map ClockSlave.eventIdFlag = MasterAction.lastMask name history := by
  induction history with
  | nil => rfl
  | cons action history ih =>
    cases action with
    | registerSlave other eventIdFlag =>
      rw [after,apply,registerSlave,MasterAction.lastMask]
      dsimp only
      by_cases hother : other = name
      · rw [if_pos hother,hother,update_self]
        rfl
      · rw [if_neg hother,update_of_ne (Ne.symm hother),ih]
    | unregisterSlave other =>
      rw [after,apply,unregisterSlave,MasterAction.lastMask,← ih]
      dsimp only
      by_cases hother : other = name
      · rw [hother,update_self,map_eventIdFlag_deactivate]
      · rw [update_of_ne (Ne.symm hother)]
    | clockEvent event throws =>
      rw [after,apply,clockEvent,MasterAction.lastMask,← ih]
      dsimp only
      split
      · exact map_eventIdFlag_deactivate _
      · rfl

theorem sends_after :
    (after strings history).sends strings name event = (MasterAction.lastMask name history).any event.flagIn := by
  rw [sends_eq,mask_after]

private theorem registered_eq : registered strings name history =
    if MasterAction.holds name history then MasterAction.lastMask name history else none := by
  induction history with
  | nil => rfl
  | cons action history ih =>
    cases action with
    | registerSlave other eventIdFlag =>
      rw [registered,MasterAction.holds,MasterAction.lastMask,ih]
      by_cases hother : other = name <;> simp [hother]
    | unregisterSlave other =>
      rw [registered,MasterAction.holds,MasterAction.lastMask,ih]
      by_cases hother : other = name <;> simp [hother]
    | clockEvent event throws =>
      rw [registered,MasterAction.holds,MasterAction.lastMask,ih,sends_after]
      cases (MasterAction.lastMask name history).any event.flagIn && throws name <;> simp

theorem sends_iff_registered_iff : ((after strings history).sends strings name event = true ↔
      (registered strings name history).any event.flagIn = true) ↔
    ((MasterAction.lastMask name history).any event.flagIn = true → MasterAction.holds name history = true) := by
  rw [sends_after,registered_eq]
  cases MasterAction.holds name history with
  | true => simp
  | false => simp

/-- A history is disciplined towards a slave exactly if its mask never outlives a registration. -/
theorem disciplined_iff_quiet (strings : TimeStrings) (name : String) (history : List MasterAction) :
    Disciplined strings name history ↔ MasterAction.Quiet name history := by
  constructor
  · intro h later event throws earlier hsplit
    exact (sends_iff_registered_iff).mp (h later event throws earlier hsplit)
  · intro h later event throws earlier hsplit
    exact (sends_iff_registered_iff).mpr (h later event throws earlier hsplit)

/-- An unregistered slave gets the next time. -/
theorem sends_unregistered : ¬∀ history, Disciplined .decimal "slave" history := by
  intro h
  have hevent := h [.clockEvent (.timeUpdating 5) fun _ => false,.unregisterSlave "slave",.registerSlave "slave" 2]
    [] (.timeUpdating 5) (fun _ => false) [.unregisterSlave "slave",.registerSlave "slave" 2] rfl
  rw [sends_iff_registered_iff] at hevent
  exact absurd (hevent (by decide)) (by decide)

end ClockMaster

end FepParticipant.Clock
