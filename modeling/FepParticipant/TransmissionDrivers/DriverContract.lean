import FepParticipant.Library.ObjectHeap
import FepParticipant.Result

/-! The receivers and transmitters that a transmission driver creates, and the vector in which it keeps them. -/
namespace FepParticipant.TransmissionDrivers
open Library List Heap

structure SignalOptions where
  signalName : Option String
  signalSize : Option Nat

/-- A receiver of either driver, with the topic of its reader or the group that its node has joined. -/
structure Receiver where
  strSignalName : Option String
  source : Option String
  bIsActivated : Bool
  bIsMuted : Bool
  bCallback : Bool
  deriving DecidableEq

/-- A transmitter; that its node is a member of its group as well does not matter to what is received. -/
structure Transmitter where
  strSignalName : Option String

inductive ReceiverCall where
  | enable
  | disable
  | mute
  | unmute
  | setReceiver (bCallback bCallee : Bool)

/-- What becomes of a message that a receiver is handed. -/
inductive Handling where
  | notEnabled
  | muted
  | noCallback
  | callback
  deriving DecidableEq

namespace Receiver

def new (strSignalName source : Option String) : Receiver := ⟨strSignalName,source,false,false,false⟩

def call (receiver : Receiver) : ReceiverCall → Receiver
  | .enable => {receiver with bIsActivated := true}
  | .disable => {receiver with bIsActivated := false}
  | .mute => {receiver with bIsMuted := true}
  | .unmute => {receiver with bIsMuted := false}
  | .setReceiver bCallback bCallee =>
    if bCallback = bCallee then {receiver with bCallback := bCallback} else receiver

/-- `HandleMessage` and `on_data_available`. -/
def handleMessage (receiver : Receiver) : Handling :=
  if !receiver.bIsActivated then .notEnabled
  else if receiver.bIsMuted then .muted
  else if receiver.bCallback then .callback
  else .noCallback

@[simp] theorem strSignalName_call (receiver : Receiver) (call : ReceiverCall) :
    (receiver.call call).strSignalName = receiver.strSignalName := by
  cases call with
  | setReceiver bCallback bCallee =>
    rw [Receiver.call]
    split <;> rfl
  | _ => rfl

@[simp] theorem source_call (receiver : Receiver) (call : ReceiverCall) :
    (receiver.call call).source = receiver.source := by
  cases call with
  | setReceiver bCallback bCallee =>
    rw [Receiver.call]
    split <;> rfl
  | _ => rfl

theorem exists_mem_call {heap : Heap Receiver} {i j : Nat} {receiver : Receiver} {receiverCall : ReceiverCall}
    (hmem : (j,receiver) ∈ (heap.modify i (·.call receiverCall)).objects) :
    ∃ found, (j,found) ∈ heap.objects ∧ receiver.strSignalName = found.strSignalName ∧
      receiver.source = found.source := by
  obtain ⟨found,hfound,hsame⟩ := mem_modify.mp hmem
  refine ⟨found,hfound,?_⟩
  rw [show receiver = _ from hsame]
  split
  · exact ⟨strSignalName_call _ _,source_call _ _⟩
  · exact ⟨rfl,rfl⟩

end Receiver

structure ObjectVector (α : Type) where
  heap : Heap α
  vec : List Nat

namespace ObjectVector
variable {α : Type}

def empty : ObjectVector α := ⟨.empty,[]⟩

/-- An object that could be set up is kept if the driver has a logging function, and neither kept nor deleted if it
has none. -/
def create (store : ObjectVector α) (object : α) (initialized bLogging : Bool) :
    ObjectVector α × Result × Option Nat :=
  let heap := store.heap.new object
  if initialized then
    if bLogging then (⟨heap,store.vec ++ [store.heap.next]⟩,.errNoError,some store.heap.next)
    else (⟨heap,store.vec⟩,.errFailed,none)
  else (⟨heap.delete store.heap.next,store.vec⟩,.errFailed,none)

def destroy (store : ObjectVector α) (i : Nat) : ObjectVector α × Result :=
  if i ∈ store.vec then (⟨store.heap.delete i,store.vec.erase i⟩,.errNoError) else (store,.errNotFound)

def deinitializeAll (store : ObjectVector α) : ObjectVector α := ⟨store.heap.deleteAll store.vec,[]⟩

end ObjectVector

/-- The calls of a driver and its receivers, and the arrival of a message. `bSetUp` is the outcome of the network
library; `strRead` is what stands at the name of an object gone. -/
inductive DriverAction where
  | registerLogging (bFunc bCallee : Bool)
  | createReceiver (oOptions : SignalOptions) (bSetUp : Bool)
  | createTransmitter (oOptions : SignalOptions) (bSetUp : Bool)
  | destroyReceiver (i : Nat) (strRead : String)
  | destroyTransmitter (i : Nat)
  | deinitializeDriver
  | call (i : Nat) (receiverCall : ReceiverCall)
  | message (strSignalName : String)

/-- What a step gives: a result, the object that was created, and the receivers that were handed a message. -/
structure Effect where
  result : Result
  created : Option Nat
  handed : List (Nat × Handling)

def transmitterInitialized (bConnected : Bool) (strModuleName : String) (oOptions : SignalOptions) (bSetUp : Bool) :
    Bool :=
  bConnected && strModuleName != "" && oOptions.signalName.isSome && oOptions.signalSize.isSome && bSetUp

section heaps
variable {α : Type}
variable (before : Heap α)

/-- A create that succeeds adds its object, and one that fails has deleted its object once. -/
def Creates (after : Heap α) (effect : Effect) : Prop :=
  after.next = before.next + 1 ∧
    if isOk effect.result then
      effect.created = some before.next ∧ after.deleted = before.deleted ∧
        ∃ object, ∀ entry, entry ∈ after.objects ↔ entry ∈ before.objects ∨ entry = (before.next,object)
    else
      effect.created = none ∧ after.deleted.count before.next = 1 ∧
        ∀ entry, entry ∈ after.objects ↔ entry ∈ before.objects

/-- Exactly the object that is given is removed, if it is alive. -/
def Destroys (after : Heap α) (i : Nat) : Prop :=
  after.next = before.next ∧ (∀ entry, entry ∈ after.objects ↔ entry ∈ before.objects ∧ entry.1 ≠ i) ∧
    after.deleted = if before.Alive i then i::before.deleted else before.deleted

/-- Every object that was ever created has been deleted once. -/
def DeletesAll (after : Heap α) : Prop := after.next = before.next ∧ ∀ i < before.next, after.deleted.count i = 1

theorem not_alive_of_deletesAll {before after : Heap α} (hvalid : after.Valid) (h : DeletesAll before after) (i : Nat) :
    ¬ after.Alive i := by
  intro halive
  have hcount := h.2 i (h.1 ▸ hvalid.created i halive)
  rw [hvalid.deleted,if_neg fun hdead => hdead.2 halive] at hcount
  cases hcount

end heaps
variable (receivers : Heap Receiver)

/-- Each receiver of the name that is alive, enabled and not muted is handed the message once. -/
def Hands (strSignalName : String) (handed : List (Nat × Handling)) : Prop :=
  ∀ i receiver, (i,receiver) ∈ receivers.objects → receiver.strSignalName = some strSignalName →
    receiver.bIsActivated = true → receiver.bIsMuted = false →
      handed.count (i,if receiver.bCallback then .callback else .noCallback) = 1

/-- The objects and the messages after a step, except for what a destruction returns. -/
def Owns (receivers' : Heap Receiver) (transmitters transmitters' : Heap Transmitter) (effect : Effect) :
    DriverAction → Prop
  | .createReceiver _ _ => Creates receivers receivers' effect ∧ transmitters' = transmitters
  | .createTransmitter _ _ => Creates transmitters transmitters' effect ∧ receivers' = receivers
  | .destroyReceiver i _ => Destroys receivers receivers' i ∧ transmitters' = transmitters
  | .destroyTransmitter i => Destroys transmitters transmitters' i ∧ receivers' = receivers
  | .deinitializeDriver => DeletesAll receivers receivers' ∧ DeletesAll transmitters transmitters'
  | .message strSignalName => Hands receivers strSignalName effect.handed
  | .registerLogging _ _ | .call _ _ => True

/-- A destruction succeeds if and only if the object is alive. -/
def Returns (transmitters : Heap Transmitter) (effect : Effect) : DriverAction → Prop
  | .destroyReceiver i _ => isOk effect.result = true ↔ receivers.Alive i
  | .destroyTransmitter i => isOk effect.result = true ↔ transmitters.Alive i
  | _ => True

namespace ObjectVector
variable {α : Type} {store : ObjectVector α} {object : α} {initialized bLogging : Bool} {i : Nat}

structure Owned (store : ObjectVector α) : Prop where
  valid : store.heap.Valid
  nodup : store.vec.Nodup
  mem_vec : ∀ i, i ∈ store.vec ↔ store.heap.Alive i

theorem owned_empty : (empty : ObjectVector α).Owned := ⟨valid_empty,nodup_nil,fun _ => Iff.rfl⟩

theorem owned_create (h : store.Owned) (hlogging : initialized = true → bLogging = true) :
    (store.create object initialized bLogging).1.Owned := by
  cases initialized with
  | true =>
    rw [hlogging rfl]
    refine ⟨h.valid.new object,?_,fun i => ?_⟩
    · refine h.nodup.append (nodup_singleton _) (disjoint_singleton.mpr fun hmem => ?_)
      exact h.valid.not_alive_next ((h.mem_vec _).mp hmem)
    · exact mem_append.trans ((or_congr (h.mem_vec i) mem_singleton).trans alive_new.symm)
  | false =>
    refine ⟨(h.valid.new object).delete (alive_new.mpr (.inr rfl)),h.nodup,fun i => (h.mem_vec i).trans ?_⟩
    rw [alive_iff,alive_iff]
    exact exists_congr fun object => h.valid.mem_delete_new.symm

theorem creates_create (h : store.Owned) (hlogging : initialized = true → bLogging = true) :
    Creates store.heap (store.create object initialized bLogging).1.heap
      ⟨(store.create object initialized bLogging).2.1,(store.create object initialized bLogging).2.2,[]⟩ := by
  cases initialized with
  | true =>
    rw [hlogging rfl]
    exact ⟨rfl,rfl,rfl,object,fun entry => mem_new⟩
  | false =>
    refine ⟨rfl,rfl,?_,fun entry => h.valid.mem_delete_new⟩
    change (store.heap.next::store.heap.deleted).count store.heap.next = 1
    rw [count_cons_self,h.valid.not_deleted_next]

theorem mem_create (h : store.heap.Valid) {entry : Nat × α}
    (hmem : entry ∈ (store.create object initialized bLogging).1.heap.objects) :
    entry ∈ store.heap.objects ∨ initialized = true ∧ entry = (store.heap.next,object) := by
  cases initialized with
  | true =>
    refine (mem_new.mp ?_).imp_right fun heq => ⟨rfl,heq⟩
    cases bLogging <;> exact hmem
  | false => exact .inl (h.mem_delete_new.mp hmem)

section
variable (h : store.Owned)
include h

theorem owned_destroy : (store.destroy i).1.Owned := by
  rw [destroy]
  split
  · rename_i hmem
    refine ⟨h.valid.delete ((h.mem_vec i).mp hmem),h.nodup.erase i,fun j => ?_⟩
    rw [alive_delete,h.nodup.mem_erase_iff,h.mem_vec,and_comm]
  · exact h

theorem destroys_destroy : Destroys store.heap (store.destroy i).1.heap i := by
  rw [destroy]
  split
  · rename_i hmem
    refine ⟨rfl,fun entry => mem_delete,?_⟩
    rw [if_pos ((h.mem_vec i).mp hmem)]
    rfl
  · rename_i hmem
    have hdead : ¬ store.heap.Alive i := fun halive => hmem ((h.mem_vec i).mpr halive)
    refine ⟨rfl,fun entry => ⟨fun hentry => ⟨hentry,?_⟩,And.left⟩,(if_neg hdead).symm⟩
    rintro rfl
    exact hdead (alive_of_mem hentry)

theorem returns_destroy : isOk (store.destroy i).2 = true ↔ store.heap.Alive i := by
  rw [← h.mem_vec,destroy]
  split
  · exact iff_of_true rfl ‹_›
  · exact iff_of_false (fun h => by cases h) ‹_›

theorem owned_deinitialize : store.deinitializeAll.Owned ∧ DeletesAll store.heap store.deinitializeAll.heap := by
  obtain ⟨hvalid,hnext,halive⟩ := deleteAll_spec h.valid h.nodup fun i => (h.mem_vec i).mp
  have hdead (i : Nat) : ¬ (store.heap.deleteAll store.vec).Alive i := by
    rw [halive,h.mem_vec]
    exact fun hi => hi.2 hi.1
  refine ⟨⟨hvalid,nodup_nil,fun i => iff_of_false not_mem_nil (hdead i)⟩,hnext,fun i hi => ?_⟩
  change (store.heap.deleteAll store.vec).deleted.count i = 1
  rw [hvalid.deleted,if_pos ⟨hnext ▸ hi,hdead i⟩]

theorem Owned.modify (change : α → α) : Owned {store with heap := store.heap.modify i change} :=
  ⟨h.valid.modify change,h.nodup,fun j => (h.mem_vec j).trans (alive_modify change).symm⟩

end

end ObjectVector
end FepParticipant.TransmissionDrivers
