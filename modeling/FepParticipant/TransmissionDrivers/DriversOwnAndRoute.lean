import FepParticipant.TransmissionDrivers.DDSDriver
import FepParticipant.TransmissionDrivers.ZMQDriver
import FepParticipant.Library.Reachability

/-! Which runs of the two drivers keep their contract. -/
namespace FepParticipant.TransmissionDrivers
open Library

namespace DDSDriver
variable {urlName : String → String} {driver : DDSDriver}

def next (urlName : String → String) (driver : DDSDriver) (action : DriverAction) : Option DDSDriver :=
  some (driver.step urlName action).1

/-- The step that an action takes owns the objects and routes the messages as it should. -/
def OwnsObjects (urlName : String → String) (driver : DDSDriver) (action : DriverAction) : Prop :=
  Owns driver.vecReceivers.heap (driver.step urlName action).1.vecReceivers.heap driver.vecTransmitters.heap
    (driver.step urlName action).1.vecTransmitters.heap (driver.step urlName action).2 action

def ReturnsSuccess (urlName : String → String) (driver : DDSDriver) (action : DriverAction) : Prop :=
  Returns driver.vecReceivers.heap driver.vecTransmitters.heap (driver.step urlName action).2 action

theorem owned_of_reaches {strModuleName : String} (h : Reaches (next urlName) Careful (new strModuleName) driver) :
    driver.Owned urlName := by
  apply h.invariant (owned_new urlName strModuleName)
  intro driver action driver' howned hcareful hstep
  cases hstep
  exact owned_step howned hcareful

instance (driver : DDSDriver) (action : DriverAction) : Decidable (driver.Careful action) :=
  match action with
  | .createReceiver _ _ => inferInstanceAs (Decidable (_ → _))
  | .createTransmitter _ _ => inferInstanceAs (Decidable (_ → _))
  | .registerLogging _ _ | .destroyReceiver _ _ | .destroyTransmitter _ | .deinitializeDriver | .call _ _
  | .message _ => inferInstanceAs (Decidable True)

end DDSDriver

namespace ZMQDriver
variable {driver : ZMQDriver}

def next (driver : ZMQDriver) (action : DriverAction) : Option ZMQDriver := some (driver.step action).1

/-- The step that an action takes owns the objects and routes the messages as it should. -/
def OwnsObjects (driver : ZMQDriver) (action : DriverAction) : Prop :=
  Owns driver.receivers (driver.step action).1.receivers driver.vecTransmitters.heap
    (driver.step action).1.vecTransmitters.heap (driver.step action).2 action

def ReturnsSuccess (driver : ZMQDriver) (action : DriverAction) : Prop :=
  Returns driver.receivers driver.vecTransmitters.heap (driver.step action).2 action

private theorem owned_of_reaches {strModuleName : String} {dDomainId : Int32}
    (h : Reaches next Careful (new strModuleName dDomainId) driver) : driver.Owned := by
  apply h.invariant (owned_new strModuleName dDomainId)
  intro driver action driver' howned hcareful hstep
  cases hstep
  exact owned_step howned hcareful

instance (driver : ZMQDriver) (action : DriverAction) : Decidable (driver.Careful action) :=
  match action with
  | .createReceiver oOptions _ => inferInstanceAs (Decidable (∀ _ ∈ driver.joins oOptions, _))
  | .createTransmitter _ _ => inferInstanceAs (Decidable (_ → _))
  | .destroyReceiver _ _ => inferInstanceAs (Decidable (_ ∨ _))
  | .registerLogging _ _ | .destroyTransmitter _ | .deinitializeDriver | .call _ _ | .message _ =>
    inferInstanceAs (Decidable True)

end ZMQDriver

/-- Every careful step of a careful run owns the objects and routes the messages; what a destruction returns is right
for DDS, and for ZMQ unless a receiver is destroyed. -/
theorem drivers_own_and_route (urlName : String → String) (strModuleName : String) (dDomainId : Int32) :
    (∀ driver, Reaches (DDSDriver.next urlName) DDSDriver.Careful (.new strModuleName) driver →
      ∀ action, driver.Careful action → driver.OwnsObjects urlName action ∧ driver.ReturnsSuccess urlName action) ∧
    ∀ driver, Reaches ZMQDriver.next ZMQDriver.Careful (.new strModuleName dDomainId) driver →
      ∀ action, driver.Careful action → driver.OwnsObjects action ∧ (driver.ReturnsSuccess action ↔
        ∀ i strRead, action = .destroyReceiver i strRead → ¬ driver.receivers.Alive i) := by
  constructor
  · intro driver hreach action hcareful
    exact DDSDriver.owns_step (DDSDriver.owned_of_reaches hreach) hcareful
  · intro driver hreach action hcareful
    have howned := ZMQDriver.owned_of_reaches hreach
    exact ⟨ZMQDriver.owns_step howned hcareful,ZMQDriver.returns_step_iff howned⟩

/-- The parameters of a signal stand behind a question mark. -/
def nameOfUrl (url : String) : String := .ofList (url.toList.takeWhile (· != '?'))

/-- The message channel is opened, and two receivers follow, of which one cannot be set up. -/
def openedChannel : List DriverAction :=
  let oOptions : SignalOptions := ⟨some "command",some 4096⟩
  [.registerLogging true true,.createReceiver oOptions true,.call 0 .enable,.createTransmitter oOptions true,
    .call 0 (.setReceiver true true),.createReceiver ⟨some "speed",some 8⟩ true,
    .createReceiver ⟨some "image",some 8⟩ false,.call 1 .enable]

theorem drivers_own_and_route_opened_channel :
    (∃ driver : DDSDriver, driver.receiveMessage nameOfUrl "command" = [(0,.callback)] ∧
      driver.OwnsObjects nameOfUrl .deinitializeDriver) ∧
    ∃ driver : ZMQDriver, driver.receiveMessage "command" = [(0,.callback)] ∧
      driver.OwnsObjects (.destroyReceiver 1 "") := by
  obtain ⟨hdds,hzmq⟩ := drivers_own_and_route nameOfUrl "camera" 17
  constructor
  · obtain ⟨driver,hreach,hmessage⟩ :
        ∃ driver, Reaches (DDSDriver.next nameOfUrl) DDSDriver.Careful (.new "camera") driver ∧
          driver.receiveMessage nameOfUrl "command" = [(0,.callback)] :=
      exists_of_runAllowed openedChannel (by decide +kernel)
    exact ⟨driver,hmessage,(hdds driver hreach .deinitializeDriver trivial).1⟩
  · obtain ⟨driver,hreach,hmessage,hcareful⟩ :
        ∃ driver, Reaches ZMQDriver.next ZMQDriver.Careful (.new "camera" 17) driver ∧
          driver.receiveMessage "command" = [(0,.callback)] ∧ driver.Careful (.destroyReceiver 1 "") :=
      exists_of_runAllowed openedChannel (by decide +kernel)
    exact ⟨driver,hmessage,(hzmq driver hreach _ hcareful).1⟩

/-- A user's receiver called `command` takes the messages of the message channel, whose receiver is never deleted; a
destroyed receiver is reported as not found; and without a logging function an object is left behind. -/
theorem drivers_lose_receivers : (∃ driver, Reaches ZMQDriver.next anyAction (.new "camera" 17) driver ∧
      ¬ driver.OwnsObjects (.message "command") ∧ ¬ driver.OwnsObjects .deinitializeDriver) ∧
    (∃ driver, Reaches ZMQDriver.next anyAction (.new "camera" 17) driver ∧
      ¬ driver.ReturnsSuccess (.destroyReceiver 0 "")) ∧
    ∃ driver, Reaches (DDSDriver.next nameOfUrl) anyAction (.new "camera") driver ∧
      ¬ driver.OwnsObjects nameOfUrl (.createReceiver ⟨some "speed",some 8⟩ true) := by
  refine ⟨?_,?_,?_⟩
  · obtain ⟨driver,hreach,hmem,hmessage,hnext,hdeleted⟩ :
        ∃ driver, Reaches ZMQDriver.next anyAction (.new "camera" 17) driver ∧
          (0,⟨some "command",some "FEP_SIG_17_command",true,false,true⟩) ∈ driver.receivers.objects ∧
          driver.receiveMessage "command" = [(3,.notEnabled)] ∧ 0 < driver.receivers.next ∧
          (driver.step .deinitializeDriver).1.receivers.deleted.count 0 = 0 :=
      exists_of_runActions (openedChannel ++ [DriverAction.createReceiver ⟨some "command",some 8⟩ true])
        (by decide +kernel)
    refine ⟨driver,hreach,fun howns => ?_,fun howns => ?_⟩
    · have hhanded : (driver.receiveMessage "command").count (0,Handling.callback) = 1 := howns 0 _ hmem rfl rfl rfl
      rw [hmessage] at hhanded
      exact absurd hhanded (by decide)
    · have hcount := howns.1.2 0 hnext
      rw [hdeleted] at hcount
      cases hcount
  · obtain ⟨driver,hreach,halive,hmissing⟩ : ∃ driver, Reaches ZMQDriver.next anyAction (.new "camera" 17) driver ∧
        driver.receivers.Alive 0 ∧ (driver.step (.destroyReceiver 0 "")).2.result = .errNotFound :=
      exists_of_runActions openedChannel (by decide +kernel)
    refine ⟨driver,hreach,fun hreturns => ?_⟩
    have hok := hreturns.mpr halive
    rw [hmissing] at hok
    cases hok
  · refine ⟨_,.refl,fun howns => ?_⟩
    have hleft := (howns.1.2.2.2 (0,⟨some "speed",some (nameOfUrl "speed"),false,false,false⟩)).mp List.mem_cons_self
    cases hleft

end FepParticipant.TransmissionDrivers
