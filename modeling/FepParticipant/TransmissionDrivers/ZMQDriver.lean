import FepParticipant.Library.OrderedMap
import FepParticipant.TransmissionDrivers.DriverContract

/-! The driver for ZMQ, which knows its receivers by the group that they have joined. It keeps its contract as long
as its calls are careful, but for what a destruction returns. -/
namespace FepParticipant.TransmissionDrivers
open Library List Heap ObjectVector

/-- The groups are those that the receiving node has joined. -/
structure ZMQDriver where
  bNodes : Bool
  bLogging : Bool
  strModuleName : String
  dDomainId : Int32
  receivers : Heap Receiver
  mapReceiverGroups : List (String × Nat)
  joinedGroups : List String
  vecTransmitters : ObjectVector Transmitter

namespace ZMQDriver

/-- The driver after `Initialize`. -/
def new (strModuleName : String) (dDomainId : Int32) : ZMQDriver :=
  ⟨true,false,strModuleName,dDomainId,.empty,[],[],.empty⟩

def registerLogging (driver : ZMQDriver) (bFunc bCallee : Bool) : ZMQDriver × Result :=
  if bFunc && bCallee then ({driver with bLogging := true},.errNoError) else (driver,.errInvalidArg)

def groupName (driver : ZMQDriver) (strSignalName : String) : String :=
  "FEP_SIG_" ++ toString driver.dDomainId.toInt ++ "_" ++ strSignalName

/-- `cAbstractZMQTranceiver::Initialize`. -/
def initializeReceiver (driver : ZMQDriver) (oOptions : SignalOptions) (bSetUp : Bool) :
    ZMQDriver × Receiver × Result :=
  if driver.bNodes && driver.strModuleName != "" then
    match oOptions.signalName, oOptions.signalSize with
    | some strSignalName, some _ =>
      let strGroupName := driver.groupName strSignalName
      if bSetUp then
        ({driver with joinedGroups := strGroupName::driver.joinedGroups},
          .new strSignalName strGroupName,.errNoError)
      else (driver,.new strSignalName strGroupName,.errFailed)
    | strSignalName, _ => (driver,.new strSignalName none,.errInvalidArg)
  else (driver,.new none none,.errInvalidArg)

/-- The destructor: the node leaves the group, whoever else has joined it. -/
def deleteReceiver (driver : ZMQDriver) (i : Nat) : ZMQDriver :=
  { driver with
    receivers := driver.receivers.delete i
    joinedGroups := match (driver.receivers.get? i).bind Receiver.source with
      | some strGroupName => driver.joinedGroups.filter (· != strGroupName)
      | none => driver.joinedGroups }

/-- `map[key] = value`. -/
def setEntry (key : String) (value : Nat) (map : List (String × Nat)) : List (String × Nat) :=
  (key,value)::map.filter fun entry => entry.1 != key

/-- The receiver of the group that was there before is overwritten. -/
def createReceiver (driver : ZMQDriver) (oOptions : SignalOptions) (bSetUp : Bool) :
    ZMQDriver × Result × Option Nat :=
  let (driver,receiver,nResult) := driver.initializeReceiver oOptions bSetUp
  let i := driver.receivers.next
  let driver := {driver with receivers := driver.receivers.new receiver}
  if isOk nResult then
    if driver.bLogging then
      ({driver with mapReceiverGroups := setEntry (receiver.source.getD "") i driver.mapReceiverGroups},
        .errNoError,some i)
    else (driver,.errFailed,none)
  else (driver.deleteReceiver i,.errFailed,none)

def createTransmitter (driver : ZMQDriver) (oOptions : SignalOptions) (bSetUp : Bool) :
    ZMQDriver × Result × Option Nat :=
  let initialized := transmitterInitialized driver.bNodes driver.strModuleName oOptions bSetUp
  let (store,nResult,created) := driver.vecTransmitters.create ⟨oOptions.signalName⟩ initialized driver.bLogging
  ({driver with vecTransmitters := store},nResult,created)

/-- The group name of the object that is given, or what stands at its place. -/
def readGroupName (driver : ZMQDriver) (i : Nat) (strRead : String) : String :=
  match driver.receivers.get? i with
  | some receiver => receiver.source.getD ""
  | none => strRead

/-- The receiver of the group is deleted; the result is never changed. -/
def destroyReceiver (driver : ZMQDriver) (i : Nat) (strRead : String) : ZMQDriver × Result :=
  let strGroupName := driver.readGroupName i strRead
  match driver.mapReceiverGroups.lookup strGroupName with
  | some j =>
    ({ driver.deleteReceiver j with
      mapReceiverGroups := driver.mapReceiverGroups.filter fun entry => entry.1 != strGroupName },.errNotFound)
  | none => (driver,.errNotFound)

def destroyTransmitter (driver : ZMQDriver) (i : Nat) : ZMQDriver × Result :=
  let (store,nResult) := driver.vecTransmitters.destroy i
  ({driver with vecTransmitters := store},nResult)

def deinitializeDriver (driver : ZMQDriver) : ZMQDriver × Result :=
  let driver := (driver.mapReceiverGroups.map Prod.snd).foldl deleteReceiver driver
  ({ driver with
    bNodes := false
    mapReceiverGroups := []
    joinedGroups := []
    vecTransmitters := driver.vecTransmitters.deinitializeAll },.errNoError)

/-- `ReceiveAndDistributeMessages` for a message to a group that the node has joined. -/
def receiveMessage (driver : ZMQDriver) (strSignalName : String) : List (Nat × Handling) :=
  let strGroup := driver.groupName strSignalName
  if driver.bNodes && strGroup ∈ driver.joinedGroups then
    match driver.mapReceiverGroups.lookup strGroup with
    | some i =>
      match driver.receivers.get? i with
      | some receiver => [(i,receiver.handleMessage)]
      | none => []
    | none => []
  else []

def step (driver : ZMQDriver) : DriverAction → ZMQDriver × Effect
  | .registerLogging bFunc bCallee =>
    let (driver,nResult) := driver.registerLogging bFunc bCallee
    (driver,⟨nResult,none,[]⟩)
  | .createReceiver oOptions bSetUp =>
    let (driver,nResult,created) := driver.createReceiver oOptions bSetUp
    (driver,⟨nResult,created,[]⟩)
  | .createTransmitter oOptions bSetUp =>
    let (driver,nResult,created) := driver.createTransmitter oOptions bSetUp
    (driver,⟨nResult,created,[]⟩)
  | .destroyReceiver i strRead =>
    let (driver,nResult) := driver.destroyReceiver i strRead
    (driver,⟨nResult,none,[]⟩)
  | .destroyTransmitter i =>
    let (driver,nResult) := driver.destroyTransmitter i
    (driver,⟨nResult,none,[]⟩)
  | .deinitializeDriver =>
    let (driver,nResult) := driver.deinitializeDriver
    (driver,⟨nResult,none,[]⟩)
  | .call i receiverCall =>
    ({driver with receivers := driver.receivers.modify i (·.call receiverCall)},⟨.errNoError,none,[]⟩)
  | .message strSignalName => (driver,⟨.errNoError,none,driver.receiveMessage strSignalName⟩)

variable {driver : ZMQDriver} {oOptions : SignalOptions} {bSetUp : Bool}

/-- The name under which a create joins a group. -/
def joins (driver : ZMQDriver) (oOptions : SignalOptions) : Option String :=
  if driver.bNodes && driver.strModuleName != "" && oOptions.signalSize.isSome then oOptions.signalName else none

/-- A logging function is there when an object can be set up; nobody joins the group of a receiver kept, even in
vain; and what is read at an object gone is not a receiver's group. -/
def Careful (driver : ZMQDriver) : DriverAction → Prop
  | .createReceiver oOptions bSetUp => ∀ strSignalName ∈ driver.joins oOptions,
      driver.groupName strSignalName ∉ driver.mapReceiverGroups.map Prod.fst ∧ (bSetUp = true → driver.bLogging = true)
  | .createTransmitter oOptions bSetUp =>
      transmitterInitialized driver.bNodes driver.strModuleName oOptions bSetUp = true → driver.bLogging = true
  | .destroyReceiver i strRead => driver.receivers.Alive i ∨ strRead ∉ driver.mapReceiverGroups.map Prod.fst
  | _ => True

/-- The map holds the receivers that are alive under the groups they have joined, and the node is in these groups. -/
structure Owned (driver : ZMQDriver) : Prop where
  valid : driver.receivers.Valid
  keys : (driver.mapReceiverGroups.map Prod.fst).Nodup
  entries : ∀ strGroupName i, (strGroupName,i) ∈ driver.mapReceiverGroups ↔
    ∃ receiver, (i,receiver) ∈ driver.receivers.objects ∧ receiver.source = some strGroupName
  named : ∀ i receiver, (i,receiver) ∈ driver.receivers.objects → ∃ strSignalName,
    receiver.strSignalName = some strSignalName ∧ receiver.source = some (driver.groupName strSignalName)
  joined : ∀ strGroupName i, (strGroupName,i) ∈ driver.mapReceiverGroups →
    driver.bNodes = true ∧ strGroupName ∈ driver.joinedGroups
  transmitters : driver.vecTransmitters.Owned

theorem owned_new (strModuleName : String) (dDomainId : Int32) : (new strModuleName dDomainId).Owned where
  valid := valid_empty
  keys := nodup_nil
  entries _ _ := iff_of_false not_mem_nil fun ⟨_,hmem,_⟩ => absurd hmem not_mem_nil
  named _ _ h := absurd h not_mem_nil
  joined _ _ h := absurd h not_mem_nil
  transmitters := owned_empty

namespace Owned

section
variable (h : driver.Owned)
include h

theorem lookup_eq {i : Nat} {receiver : Receiver}
    (hmem : (i,receiver) ∈ driver.receivers.objects) {strGroupName : String}
    (hsource : receiver.source = some strGroupName) : driver.mapReceiverGroups.lookup strGroupName = some i :=
  (OrderedMap.lookup_eq_some_iff_mem h.keys).mpr ((h.entries strGroupName i).mpr ⟨receiver,hmem,hsource⟩)

theorem nodup_values : (driver.mapReceiverGroups.map Prod.snd).Nodup := by
  refine List.Nodup.map_on (fun first hfirst second hsecond heq => ?_) (List.Nodup.of_map Prod.fst h.keys)
  obtain ⟨group,i⟩ := first
  obtain ⟨other,j⟩ := second
  obtain rfl : i = j := heq
  obtain ⟨receiver,hmem,hsource⟩ := (h.entries group i).mp hfirst
  obtain ⟨receiver',hmem',hsource'⟩ := (h.entries other i).mp hsecond
  have hsame := (h.valid.get?_eq hmem).symm.trans (h.valid.get?_eq hmem')
  rw [Option.some.inj hsame,hsource'] at hsource
  rw [Option.some.inj hsource]

theorem mem_values (i : Nat) : i ∈ driver.mapReceiverGroups.map Prod.snd ↔ driver.receivers.Alive i := by
  rw [mem_map,alive_iff]
  constructor
  · rintro ⟨⟨group,j⟩,hmem,rfl⟩
    obtain ⟨receiver,hreceiver,-⟩ := (h.entries group j).mp hmem
    exact ⟨receiver,hreceiver⟩
  · rintro ⟨receiver,hmem⟩
    obtain ⟨name,-,hsource⟩ := h.named i receiver hmem
    exact ⟨(driver.groupName name,i),(h.entries _ i).mpr ⟨receiver,hmem,hsource⟩,rfl⟩

theorem delete {i : Nat} {receiver : Receiver}
    (hmem : (i,receiver) ∈ driver.receivers.objects) {strGroupName : String}
    (hsource : receiver.source = some strGroupName) : Owned { driver.deleteReceiver i with
      mapReceiverGroups := driver.mapReceiverGroups.filter fun entry => entry.1 != strGroupName } := by
  have hgroups : (driver.deleteReceiver i).joinedGroups = driver.joinedGroups.filter (· != strGroupName) := by
    rw [deleteReceiver,h.valid.get?_eq hmem,Option.bind_some,hsource]
  have hkept {group : String} {j : Nat} (hentry : (group,j) ∈ driver.mapReceiverGroups) :
      group ≠ strGroupName ↔ j ≠ i := by
    obtain ⟨found,hfound,hgroup⟩ := (h.entries group j).mp hentry
    apply not_congr
    constructor
    · rintro rfl
      exact Option.some.inj ((h.lookup_eq hfound hgroup).symm.trans (h.lookup_eq hmem hsource))
    · rintro rfl
      have hsame := (h.valid.get?_eq hfound).symm.trans (h.valid.get?_eq hmem)
      rw [Option.some.inj hsame,hsource] at hgroup
      exact (Option.some.inj hgroup).symm
  constructor
  · exact h.valid.delete (alive_of_mem hmem)
  · exact h.keys.sublist (filter_sublist.map _)
  · intro group j
    change (group,j) ∈ driver.mapReceiverGroups.filter _ ↔
      ∃ found, (j,found) ∈ (driver.receivers.delete i).objects ∧ found.source = some group
    simp only [mem_filter,bne_iff_ne,mem_delete]
    constructor
    · rintro ⟨hentry,hne⟩
      obtain ⟨found,hfound,hgroup⟩ := (h.entries group j).mp hentry
      exact ⟨found,⟨hfound,(hkept hentry).mp hne⟩,hgroup⟩
    · rintro ⟨found,⟨hfound,hne⟩,hgroup⟩
      have hentry := (h.entries group j).mpr ⟨found,hfound,hgroup⟩
      exact ⟨hentry,(hkept hentry).mpr hne⟩
  · intro j found hfound
    exact h.named j found (mem_delete.mp hfound).1
  · intro group j hentry
    obtain ⟨hentry,hne⟩ := mem_filter.mp hentry
    obtain ⟨hnodes,hjoined⟩ := h.joined group j hentry
    refine ⟨hnodes,?_⟩
    rw [hgroups]
    exact mem_filter.mpr ⟨hjoined,hne⟩
  · exact h.transmitters

theorem create_failed (receiver : Receiver) {joinedGroups : List String}
    (hjoined : ∀ group i, (group,i) ∈ driver.mapReceiverGroups → group ∈ joinedGroups) : Owned { driver with
      receivers := (driver.receivers.new receiver).delete driver.receivers.next
      joinedGroups := joinedGroups } where
  valid := (h.valid.new receiver).delete (alive_new.mpr (.inr rfl))
  keys := h.keys
  entries group i := by
    simp only [h.valid.mem_delete_new]
    exact h.entries group i
  named i found hfound := h.named i found (h.valid.mem_delete_new.mp hfound)
  joined group i hentry := ⟨(h.joined group i hentry).1,hjoined group i hentry⟩
  transmitters := h.transmitters

theorem create_kept (hnodes : driver.bNodes = true) {strSignalName : String}
    (hnew : driver.groupName strSignalName ∉ driver.mapReceiverGroups.map Prod.fst) : Owned { driver with
      receivers := driver.receivers.new (.new strSignalName (driver.groupName strSignalName))
      mapReceiverGroups := setEntry (driver.groupName strSignalName) driver.receivers.next driver.mapReceiverGroups
      joinedGroups := driver.groupName strSignalName::driver.joinedGroups } := by
  have hmap : setEntry (driver.groupName strSignalName) driver.receivers.next driver.mapReceiverGroups =
      (driver.groupName strSignalName,driver.receivers.next)::driver.mapReceiverGroups := by
    rw [setEntry,filter_eq_self.mpr]
    intro entry hentry
    rw [bne_iff_ne]
    intro heq
    exact hnew (heq ▸ mem_map_of_mem hentry)
  rw [hmap]
  constructor
  · exact h.valid.new _
  · exact nodup_cons.mpr ⟨hnew,h.keys⟩
  · intro group i
    simp only [mem_cons,mem_new,Prod.mk.injEq]
    constructor
    · rintro (⟨rfl,rfl⟩ | hentry)
      · exact ⟨_,.inr ⟨rfl,rfl⟩,rfl⟩
      · obtain ⟨found,hfound,hgroup⟩ := (h.entries group i).mp hentry
        exact ⟨found,.inl hfound,hgroup⟩
    · rintro ⟨found,hfound | ⟨rfl,rfl⟩,hgroup⟩
      · exact .inr ((h.entries group i).mpr ⟨found,hfound,hgroup⟩)
      · exact .inl ⟨(Option.some.inj hgroup).symm,rfl⟩
  · intro i found hfound
    rcases mem_new.mp hfound with hfound | heq
    · exact h.named i found hfound
    · cases heq
      exact ⟨strSignalName,rfl,rfl⟩
  · intro group i hentry
    rcases mem_cons.mp hentry with heq | hentry
    · cases heq
      exact ⟨hnodes,mem_cons_self⟩
    · exact (h.joined group i hentry).imp_right (mem_cons_of_mem _)
  · exact h.transmitters

end

end Owned
variable {action : DriverAction}

theorem initializeReceiver_cases (driver : ZMQDriver) (oOptions : SignalOptions) (bSetUp : Bool) :
    (∃ strSignalName ∈ driver.joins oOptions, driver.bNodes = true ∧ driver.initializeReceiver oOptions bSetUp =
      if bSetUp then ({driver with joinedGroups := driver.groupName strSignalName::driver.joinedGroups},
        .new strSignalName (driver.groupName strSignalName),.errNoError)
      else (driver,.new strSignalName (driver.groupName strSignalName),.errFailed)) ∨
    ∃ strSignalName, driver.initializeReceiver oOptions bSetUp = (driver,.new strSignalName none,.errInvalidArg) := by
  obtain ⟨name,size⟩ := oOptions
  rw [initializeReceiver]
  by_cases hready : (driver.bNodes && driver.strModuleName != "") = true
  · rw [if_pos hready]
    cases name with
    | none => exact .inr ⟨none,rfl⟩
    | some name =>
      cases size with
      | none => exact .inr ⟨some name,rfl⟩
      | some size =>
        refine .inl ⟨name,?_,(Bool.and_eq_true_iff.mp hready).1,rfl⟩
        rw [joins,if_pos (by rw [hready]; rfl)]
        rfl
  · rw [if_neg hready]
    exact .inr ⟨none,rfl⟩

theorem createReceiver_kept {strSignalName : String} (hlogging : driver.bLogging = true)
    (heq : driver.initializeReceiver oOptions bSetUp =
      ({driver with joinedGroups := driver.groupName strSignalName::driver.joinedGroups},
        .new strSignalName (driver.groupName strSignalName),.errNoError)) :
    driver.createReceiver oOptions bSetUp = ({ driver with
      receivers := driver.receivers.new (.new strSignalName (driver.groupName strSignalName))
      mapReceiverGroups := setEntry (driver.groupName strSignalName) driver.receivers.next driver.mapReceiverGroups
      joinedGroups := driver.groupName strSignalName::driver.joinedGroups },.errNoError,
      some driver.receivers.next) := by
  rw [createReceiver,heq]
  exact (if_pos rfl).trans (if_pos hlogging)

private theorem createReceiver_failed (hvalid : driver.receivers.Valid) {receiver : Receiver} {nResult : Result}
    (hresult : isOk nResult = false) (heq : driver.initializeReceiver oOptions bSetUp = (driver,receiver,nResult)) :
    driver.createReceiver oOptions bSetUp = ({ driver with
      receivers := (driver.receivers.new receiver).delete driver.receivers.next
      joinedGroups := match receiver.source with
        | some strGroupName => driver.joinedGroups.filter (· != strGroupName)
        | none => driver.joinedGroups },.errFailed,none) := by
  have hfound := (hvalid.new receiver).get?_eq (mem_new.mpr (.inr rfl))
  rw [createReceiver,heq]
  dsimp only
  rw [hresult,if_neg Bool.false_ne_true,deleteReceiver,hfound]
  rfl

theorem createReceiver_spec (h : driver.Owned) (hcareful : driver.Careful (.createReceiver oOptions bSetUp)) :
    (driver.createReceiver oOptions bSetUp).1.Owned ∧
    Creates driver.receivers (driver.createReceiver oOptions bSetUp).1.receivers
      ⟨(driver.createReceiver oOptions bSetUp).2.1,(driver.createReceiver oOptions bSetUp).2.2,[]⟩ ∧
    (driver.createReceiver oOptions bSetUp).1.vecTransmitters = driver.vecTransmitters := by
  have hfailed (receiver : Receiver) :
      Creates driver.receivers ((driver.receivers.new receiver).delete driver.receivers.next) ⟨.errFailed,none,[]⟩ := by
    refine ⟨rfl,rfl,?_,fun entry => h.valid.mem_delete_new⟩
    rw [deleted_delete,deleted_new,count_cons_self,h.valid.not_deleted_next]
  rcases initializeReceiver_cases driver oOptions bSetUp with ⟨name,hname,hnodes,heq⟩ | ⟨name,heq⟩
  · obtain ⟨hnew,hlogging⟩ := hcareful name hname
    cases bSetUp with
    | true =>
      rw [createReceiver_kept (hlogging rfl) heq]
      exact ⟨h.create_kept hnodes hnew,⟨rfl,rfl,rfl,_,fun entry => mem_new⟩,rfl⟩
    | false =>
      rw [createReceiver_failed h.valid rfl heq]
      refine ⟨h.create_failed _ fun group i hentry => ?_,hfailed _,rfl⟩
      refine mem_filter.mpr ⟨(h.joined group i hentry).2,bne_iff_ne.mpr ?_⟩
      rintro rfl
      exact hnew (mem_map_of_mem hentry)
  · rw [createReceiver_failed h.valid rfl heq]
    exact ⟨h.create_failed _ fun group i hentry => (h.joined group i hentry).2,hfailed _,rfl⟩

theorem destroyReceiver_spec (h : driver.Owned) {i : Nat} {strRead : String}
    (hcareful : driver.Careful (.destroyReceiver i strRead)) : (driver.destroyReceiver i strRead).1.Owned ∧
    Destroys driver.receivers (driver.destroyReceiver i strRead).1.receivers i ∧
    (driver.destroyReceiver i strRead).1.vecTransmitters = driver.vecTransmitters := by
  by_cases halive : driver.receivers.Alive i
  · obtain ⟨receiver,hmem⟩ := alive_iff.mp halive
    obtain ⟨name,-,hsource⟩ := h.named i receiver hmem
    have hread : driver.readGroupName i strRead = driver.groupName name := by
      rw [readGroupName,h.valid.get?_eq hmem]
      dsimp only
      rw [hsource,Option.getD_some]
    rw [destroyReceiver,hread,h.lookup_eq hmem hsource]
    exact ⟨h.delete hmem hsource,⟨rfl,fun entry => mem_delete,(if_pos halive).symm⟩,rfl⟩
  · have hnone : driver.receivers.get? i = none := by
      rw [Heap.get?,Option.map_eq_none_iff,find?_eq_none]
      intro entry hentry heq
      exact halive (eq_of_beq heq ▸ mem_map_of_mem hentry)
    have hlookup : driver.mapReceiverGroups.lookup strRead = none := by
      rw [lookup_eq_none_iff]
      intro entry hentry
      rw [bne_iff_ne]
      rintro rfl
      exact hcareful.resolve_left halive (mem_map_of_mem hentry)
    have hsame : driver.destroyReceiver i strRead = (driver,.errNotFound) := by
      rw [destroyReceiver,readGroupName,hnone]
      rw [hlookup]
    rw [hsame]
    refine ⟨h,⟨rfl,fun entry => ⟨fun hentry => ⟨hentry,?_⟩,And.left⟩,(if_neg halive).symm⟩,rfl⟩
    rintro rfl
    exact halive (mem_map_of_mem hentry)

private theorem foldl_deleteReceiver (numbers : List Nat) (driver : ZMQDriver) :
    (numbers.foldl deleteReceiver driver).receivers = driver.receivers.deleteAll numbers ∧
      (numbers.foldl deleteReceiver driver).vecTransmitters = driver.vecTransmitters := by
  induction numbers generalizing driver with
  | nil => exact ⟨rfl,rfl⟩
  | cons i numbers ih => exact ih (driver.deleteReceiver i)

section
variable (h : driver.Owned)
include h

theorem deinitializeDriver_spec :
    driver.deinitializeDriver.1.Owned ∧ DeletesAll driver.receivers driver.deinitializeDriver.1.receivers ∧
    DeletesAll driver.vecTransmitters.heap driver.deinitializeDriver.1.vecTransmitters.heap := by
  obtain ⟨hreceivers,htransmitters⟩ := foldl_deleteReceiver (driver.mapReceiverGroups.map Prod.snd) driver
  obtain ⟨hvalid,hnext,halive⟩ := deleteAll_spec h.valid h.nodup_values fun i => (h.mem_values i).mp
  obtain ⟨howned,hdeleted⟩ := owned_deinitialize h.transmitters
  have hdead (i : Nat) : ¬ (driver.receivers.deleteAll (driver.mapReceiverGroups.map Prod.snd)).Alive i := by
    rw [halive,h.mem_values]
    exact fun hi => hi.2 hi.1
  rw [deinitializeDriver]
  rw [hreceivers,htransmitters]
  refine ⟨⟨hvalid,nodup_nil,fun group i => ?_,fun i receiver hmem => ?_,fun group i hentry => ?_,howned⟩,
    ⟨hnext,fun i hi => ?_⟩,hdeleted⟩
  · refine iff_of_false not_mem_nil ?_
    rintro ⟨receiver,hmem,-⟩
    exact hdead i (alive_of_mem hmem)
  · exact absurd (alive_of_mem hmem) (hdead i)
  · cases hentry
  · rw [hvalid.deleted,if_pos ⟨hnext ▸ hi,hdead i⟩]

theorem owned_call (i : Nat) (receiverCall : ReceiverCall) :
    Owned {driver with receivers := driver.receivers.modify i (·.call receiverCall)} where
  valid := by
    change (driver.receivers.modify i fun receiver => receiver.call receiverCall).Valid
    exact h.valid.modify _
  keys := h.keys
  entries group j := by
    refine (h.entries group j).trans ?_
    constructor
    · rintro ⟨found,hfound,hgroup⟩
      refine ⟨if j = i then found.call receiverCall else found,mem_modify.mpr ⟨found,hfound,rfl⟩,?_⟩
      split
      · rw [Receiver.source_call,hgroup]
      · exact hgroup
    · rintro ⟨receiver,hmem,hgroup⟩
      obtain ⟨found,hfound,-,hsource⟩ := Receiver.exists_mem_call hmem
      exact ⟨found,hfound,hsource ▸ hgroup⟩
  named j receiver hmem := by
    obtain ⟨found,hfound,hname,hsource⟩ := Receiver.exists_mem_call hmem
    rw [hname,hsource]
    exact h.named j found hfound
  joined := h.joined
  transmitters := h.transmitters

theorem hands_receiveMessage (strSignalName : String) :
    Hands driver.receivers strSignalName (driver.receiveMessage strSignalName) := by
  intro i receiver hmem hname hactivated hmuted
  obtain ⟨name,hsame,hsource⟩ := h.named i receiver hmem
  obtain rfl : strSignalName = name := Option.some.inj (hname.symm.trans hsame)
  obtain ⟨hnodes,hjoined⟩ := h.joined _ i ((h.entries _ i).mpr ⟨receiver,hmem,hsource⟩)
  have hhandled : receiver.handleMessage = if receiver.bCallback then .callback else .noCallback := by
    rw [Receiver.handleMessage,hactivated,hmuted]
    rfl
  have hreceived : driver.receiveMessage strSignalName = [(i,receiver.handleMessage)] := by
    have hready : (driver.bNodes && decide (driver.groupName strSignalName ∈ driver.joinedGroups)) = true := by
      rw [hnodes,decide_eq_true hjoined]
      rfl
    rw [receiveMessage,if_pos hready,h.lookup_eq hmem hsource]
    dsimp only
    rw [h.valid.get?_eq hmem]
  rw [hreceived,hhandled,count_singleton_self]

theorem owned_step {action : DriverAction} (hcareful : driver.Careful action) : (driver.step action).1.Owned := by
  cases action with
  | registerLogging bFunc bCallee =>
    cases bFunc <;> cases bCallee <;> exact ⟨h.valid,h.keys,h.entries,h.named,h.joined,h.transmitters⟩
  | createReceiver oOptions bSetUp => exact (createReceiver_spec h hcareful).1
  | createTransmitter oOptions bSetUp =>
    exact ⟨h.valid,h.keys,h.entries,h.named,h.joined,owned_create h.transmitters hcareful⟩
  | destroyReceiver i strRead => exact (destroyReceiver_spec h hcareful).1
  | destroyTransmitter i =>
    exact ⟨h.valid,h.keys,h.entries,h.named,h.joined,owned_destroy h.transmitters⟩
  | deinitializeDriver => exact (deinitializeDriver_spec h).1
  | call i receiverCall => exact owned_call h i receiverCall
  | message strSignalName => exact h

theorem owns_step {action : DriverAction} (hcareful : driver.Careful action) :
    Owns driver.receivers (driver.step action).1.receivers driver.vecTransmitters.heap
      (driver.step action).1.vecTransmitters.heap (driver.step action).2 action := by
  cases action with
  | registerLogging bFunc bCallee => exact trivial
  | createReceiver oOptions bSetUp =>
    obtain ⟨-,hcreates,htransmitters⟩ := createReceiver_spec h hcareful
    exact ⟨hcreates,congrArg ObjectVector.heap htransmitters⟩
  | createTransmitter oOptions bSetUp => exact ⟨creates_create h.transmitters hcareful,rfl⟩
  | destroyReceiver i strRead =>
    obtain ⟨-,hdestroys,htransmitters⟩ := destroyReceiver_spec h hcareful
    exact ⟨hdestroys,congrArg ObjectVector.heap htransmitters⟩
  | destroyTransmitter i => exact ⟨destroys_destroy h.transmitters,rfl⟩
  | deinitializeDriver => exact (deinitializeDriver_spec h).2
  | call i receiverCall => exact trivial
  | message strSignalName => exact hands_receiveMessage h strSignalName

theorem returns_step_iff : Returns driver.receivers driver.vecTransmitters.heap (driver.step action).2 action ↔
      ∀ i strRead, action = .destroyReceiver i strRead → ¬ driver.receivers.Alive i := by
  cases action with
  | destroyReceiver i strRead =>
    have hresult : isOk (driver.destroyReceiver i strRead).2 = false := by
      rw [destroyReceiver]
      split <;> rfl
    change (isOk (driver.destroyReceiver i strRead).2 = true ↔ driver.receivers.Alive i) ↔ _
    rw [hresult]
    constructor
    · rintro hiff j _ heq halive
      cases heq
      exact Bool.false_ne_true (hiff.mpr halive)
    · intro hdead
      exact iff_of_false Bool.false_ne_true (hdead i strRead rfl)
  | destroyTransmitter i => exact iff_of_true (returns_destroy h.transmitters) fun _ _ heq => nomatch heq
  | _ => exact iff_of_true trivial fun _ _ heq => nomatch heq

end

end ZMQDriver
end FepParticipant.TransmissionDrivers
