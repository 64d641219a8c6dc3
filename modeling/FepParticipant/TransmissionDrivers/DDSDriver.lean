import FepParticipant.TransmissionDrivers.DriverContract

/-! The driver for DDS, which knows its objects by their address. It keeps its contract as long as its calls are
careful. -/
namespace FepParticipant.TransmissionDrivers
open Library List ObjectVector

structure DDSDriver where
  bDomainParticipant : Bool
  bLogging : Bool
  strModuleName : String
  vecReceivers : ObjectVector Receiver
  vecTransmitters : ObjectVector Transmitter

namespace DDSDriver
-- The name of a signal without the parameters behind it, as `GetUrlParamter` splits it.
variable (urlName : String → String)

/-- The driver after `Initialize`. -/
def new (strModuleName : String) : DDSDriver := ⟨true,false,strModuleName,.empty,.empty⟩

def registerLogging (driver : DDSDriver) (bFunc bCallee : Bool) : DDSDriver × Result :=
  if bFunc && bCallee then ({driver with bLogging := true},.errNoError) else (driver,.errInvalidArg)

/-- `cDDSReceive::Initialize`: without a name or a size it succeeds and has no reader. -/
def initializeReceiver (driver : DDSDriver) (oOptions : SignalOptions) (bSetUp : Bool) : Receiver × Result :=
  if !driver.bDomainParticipant then (.new none none,.errInvalidArg)
  else
    match oOptions.signalName, oOptions.signalSize with
    | some strSignalName, some _ =>
      if bSetUp then (.new strSignalName (urlName strSignalName),.errNoError)
      else (.new strSignalName none,.errFailed)
    | strSignalName, _ => (.new strSignalName none,.errNoError)

def createReceiver (driver : DDSDriver) (oOptions : SignalOptions) (bSetUp : Bool) :
    DDSDriver × Result × Option Nat :=
  let (receiver,nResult) := driver.initializeReceiver urlName oOptions bSetUp
  let (store,nResult,created) := driver.vecReceivers.create receiver (isOk nResult) driver.bLogging
  ({driver with vecReceivers := store},nResult,created)

def createTransmitter (driver : DDSDriver) (oOptions : SignalOptions) (bSetUp : Bool) :
    DDSDriver × Result × Option Nat :=
  let initialized := transmitterInitialized driver.bDomainParticipant driver.strModuleName oOptions bSetUp
  let (store,nResult,created) := driver.vecTransmitters.create ⟨oOptions.signalName⟩ initialized driver.bLogging
  ({driver with vecTransmitters := store},nResult,created)

def destroyReceiver (driver : DDSDriver) (i : Nat) : DDSDriver × Result :=
  let (store,nResult) := driver.vecReceivers.destroy i
  ({driver with vecReceivers := store},nResult)

def destroyTransmitter (driver : DDSDriver) (i : Nat) : DDSDriver × Result :=
  let (store,nResult) := driver.vecTransmitters.destroy i
  ({driver with vecTransmitters := store},nResult)

def deinitializeDriver (driver : DDSDriver) : DDSDriver × Result :=
  ({ driver with
    bDomainParticipant := false
    vecReceivers := driver.vecReceivers.deinitializeAll
    vecTransmitters := driver.vecTransmitters.deinitializeAll },
    if driver.bDomainParticipant then .errNoError else .errFailed)

/-- A sample of a topic is handed to each of its readers. -/
def receiveMessage (driver : DDSDriver) (strSignalName : String) : List (Nat × Handling) :=
  if driver.bDomainParticipant then
    (driver.vecReceivers.heap.objects.filter fun entry => entry.2.source == some (urlName strSignalName)).map
      fun entry => (entry.1,entry.2.handleMessage)
  else []

def step (driver : DDSDriver) : DriverAction → DDSDriver × Effect
  | .registerLogging bFunc bCallee =>
    let (driver,nResult) := driver.registerLogging bFunc bCallee
    (driver,⟨nResult,none,[]⟩)
  | .createReceiver oOptions bSetUp =>
    let (driver,nResult,created) := driver.createReceiver urlName oOptions bSetUp
    (driver,⟨nResult,created,[]⟩)
  | .createTransmitter oOptions bSetUp =>
    let (driver,nResult,created) := driver.createTransmitter oOptions bSetUp
    (driver,⟨nResult,created,[]⟩)
  | .destroyReceiver i _ =>
    let (driver,nResult) := driver.destroyReceiver i
    (driver,⟨nResult,none,[]⟩)
  | .destroyTransmitter i =>
    let (driver,nResult) := driver.destroyTransmitter i
    (driver,⟨nResult,none,[]⟩)
  | .deinitializeDriver =>
    let (driver,nResult) := driver.deinitializeDriver
    (driver,⟨nResult,none,[]⟩)
  | .call i receiverCall =>
    ({ driver with vecReceivers :=
      {driver.vecReceivers with heap := driver.vecReceivers.heap.modify i (·.call receiverCall)} },
      ⟨.errNoError,none,[]⟩)
  | .message strSignalName => (driver,⟨.errNoError,none,driver.receiveMessage urlName strSignalName⟩)

variable {urlName : String → String} {driver : DDSDriver} {oOptions : SignalOptions} {bSetUp : Bool}

/-- A logging function is there when an object can be set up, and a receiver with a name has a size. -/
def Careful (driver : DDSDriver) : DriverAction → Prop
  | .createReceiver oOptions bSetUp => driver.bDomainParticipant = true →
      (oOptions.signalName.isSome = true → oOptions.signalSize.isSome = true) ∧
      ((oOptions.signalName.isSome = true → bSetUp = true) → driver.bLogging = true)
  | .createTransmitter oOptions bSetUp =>
      transmitterInitialized driver.bDomainParticipant driver.strModuleName oOptions bSetUp = true →
        driver.bLogging = true
  | _ => True

structure Owned (urlName : String → String) (driver : DDSDriver) : Prop where
  receivers : driver.vecReceivers.Owned
  transmitters : driver.vecTransmitters.Owned
  reads : ∀ i receiver, (i,receiver) ∈ driver.vecReceivers.heap.objects → driver.bDomainParticipant = true ∧
    ∀ strSignalName, receiver.strSignalName = some strSignalName → receiver.source = some (urlName strSignalName)

theorem owned_new (urlName : String → String) (strModuleName : String) : (new strModuleName).Owned urlName :=
  ⟨owned_empty,owned_empty,fun _ _ h => absurd h not_mem_nil⟩

theorem initializeReceiver_reads (hcareful : driver.Careful (.createReceiver oOptions bSetUp))
    (hok : isOk (driver.initializeReceiver urlName oOptions bSetUp).2 = true) :
    driver.bLogging = true ∧ driver.bDomainParticipant = true ∧ ∀ strSignalName,
      (driver.initializeReceiver urlName oOptions bSetUp).1.strSignalName = some strSignalName →
        (driver.initializeReceiver urlName oOptions bSetUp).1.source = some (urlName strSignalName) := by
  obtain ⟨name,size⟩ := oOptions
  rw [initializeReceiver] at hok ⊢
  cases hparticipant : driver.bDomainParticipant with
  | false =>
    rw [hparticipant] at hok
    cases hok
  | true =>
    obtain ⟨hsize,hlogging⟩ := hcareful hparticipant
    rw [hparticipant] at hok
    cases name with
    | none => exact ⟨hlogging (fun h => nomatch h),rfl,fun _ h => nomatch h⟩
    | some name =>
      cases size with
      | none => cases hsize rfl
      | some size =>
        cases bSetUp with
        | false => cases hok
        | true =>
          refine ⟨hlogging fun _ => rfl,rfl,fun strSignalName h => ?_⟩
          cases h
          rfl

section
variable (h : driver.Owned urlName)
include h

theorem owned_createReceiver (hcareful : driver.Careful (.createReceiver oOptions bSetUp)) :
    (driver.createReceiver urlName oOptions bSetUp).1.Owned urlName := by
  refine ⟨owned_create h.receivers fun hok => (initializeReceiver_reads hcareful hok).1,h.transmitters,
    fun i receiver hmem => ?_⟩
  rcases mem_create h.receivers.valid hmem with hmem | ⟨hok,heq⟩
  · exact h.reads i receiver hmem
  · cases heq
    exact (initializeReceiver_reads hcareful hok).2

private theorem owned_destroyReceiver (i : Nat) : (driver.destroyReceiver i).1.Owned urlName :=
  ⟨owned_destroy h.receivers,h.transmitters,fun j receiver hmem =>
    h.reads j receiver (((ObjectVector.destroys_destroy h.receivers).2.1 _).mp hmem).1⟩

private theorem owned_deinitialize : driver.deinitializeDriver.1.Owned urlName := by
  obtain ⟨hreceivers,hdeleted⟩ := ObjectVector.owned_deinitialize h.receivers
  refine ⟨hreceivers,(ObjectVector.owned_deinitialize h.transmitters).1,fun i receiver hmem => ?_⟩
  exact absurd (Heap.alive_of_mem hmem) (not_alive_of_deletesAll hreceivers.valid hdeleted i)

private theorem owned_call (i : Nat) (receiverCall : ReceiverCall) :
    (driver.step urlName (.call i receiverCall)).1.Owned urlName := by
  refine ⟨h.receivers.modify _,h.transmitters,fun j receiver hmem => ?_⟩
  obtain ⟨found,hfound,hname,hsource⟩ := Receiver.exists_mem_call hmem
  rw [hname,hsource]
  exact h.reads j found hfound

theorem owned_step {action : DriverAction} (hcareful : driver.Careful action) :
    (driver.step urlName action).1.Owned urlName := by
  cases action with
  | registerLogging bFunc bCallee => cases bFunc <;> cases bCallee <;> exact ⟨h.receivers,h.transmitters,h.reads⟩
  | createReceiver oOptions bSetUp => exact owned_createReceiver h hcareful
  | createTransmitter oOptions bSetUp =>
    exact ⟨h.receivers,owned_create h.transmitters hcareful,h.reads⟩
  | destroyReceiver i strRead => exact owned_destroyReceiver h i
  | destroyTransmitter i => exact ⟨h.receivers,owned_destroy h.transmitters,h.reads⟩
  | deinitializeDriver => exact owned_deinitialize h
  | call i receiverCall => exact owned_call h i receiverCall
  | message strSignalName => exact h

private theorem hands_receiveMessage (strSignalName : String) :
    Hands driver.vecReceivers.heap strSignalName (driver.receiveMessage urlName strSignalName) := by
  intro i receiver hmem hname hactivated hmuted
  obtain ⟨hparticipant,hsource⟩ := h.reads i receiver hmem
  have hhandled : receiver.handleMessage = if receiver.bCallback then .callback else .noCallback := by
    rw [Receiver.handleMessage,hactivated,hmuted]
    rfl
  have hnodup : (driver.receiveMessage urlName strSignalName).Nodup := by
    rw [receiveMessage,if_pos hparticipant]
    apply List.Nodup.of_map Prod.fst
    rw [map_map]
    exact h.receivers.valid.nodup.sublist (filter_sublist.map _)
  apply count_eq_one_of_mem hnodup
  rw [← hhandled,receiveMessage,if_pos hparticipant]
  exact mem_map.mpr ⟨(i,receiver),mem_filter.mpr ⟨hmem,by simp [hsource strSignalName hname]⟩,rfl⟩

theorem owns_step {action : DriverAction} (hcareful : driver.Careful action) :
    Owns driver.vecReceivers.heap (driver.step urlName action).1.vecReceivers.heap driver.vecTransmitters.heap
      (driver.step urlName action).1.vecTransmitters.heap (driver.step urlName action).2 action ∧
    Returns driver.vecReceivers.heap driver.vecTransmitters.heap (driver.step urlName action).2 action := by
  cases action with
  | registerLogging bFunc bCallee => exact ⟨trivial,trivial⟩
  | createReceiver oOptions bSetUp =>
    exact ⟨⟨ObjectVector.creates_create h.receivers fun hok => (initializeReceiver_reads hcareful hok).1,rfl⟩,trivial⟩
  | createTransmitter oOptions bSetUp => exact ⟨⟨ObjectVector.creates_create h.transmitters hcareful,rfl⟩,trivial⟩
  | destroyReceiver i strRead =>
    exact ⟨⟨ObjectVector.destroys_destroy h.receivers,rfl⟩,ObjectVector.returns_destroy h.receivers⟩
  | destroyTransmitter i =>
    exact ⟨⟨ObjectVector.destroys_destroy h.transmitters,rfl⟩,ObjectVector.returns_destroy h.transmitters⟩
  | deinitializeDriver =>
    exact ⟨⟨(ObjectVector.owned_deinitialize h.receivers).2,(ObjectVector.owned_deinitialize h.transmitters).2⟩,trivial⟩
  | call i receiverCall => exact ⟨trivial,trivial⟩
  | message strSignalName => exact ⟨hands_receiveMessage h strSignalName,trivial⟩

end

end DDSDriver

end FepParticipant.TransmissionDrivers
