import FepParticipant.Library.MachineWord
import FepParticipant.Library.Interleaving

/-! The header in front of every transmitted sample, and the receive queues with the workers of the queue manager. A
queue's own lock makes each access one step. -/
namespace FepParticipant.Transmission
open Library List

inductive ByteOrder where
  | le
  | be

namespace ByteOrder

def flag : ByteOrder → UInt8
  | .le => 0x01
  | .be => 0x02

/-- A number of `width` bytes in memory. -/
def bytes (order : ByteOrder) (width n : Nat) : List UInt8 :=
  match order with
  | .le => littleEndian width n
  | .be => (littleEndian width n).reverse

def value (order : ByteOrder) (bytes : List UInt8) : Nat :=
  match order with
  | .le => ofLittleEndian bytes
  | .be => ofLittleEndian bytes.reverse

@[simp] theorem length_bytes (order : ByteOrder) (width n : Nat) : (order.bytes width n).length = width := by
  cases order <;> simp [bytes]

theorem value_bytes (order : ByteOrder) {width n : Nat} (h : n < 256 ^ width) :
    order.value (order.bytes width n) = n := by
  cases order <;> simp [bytes,value,ofLittleEndian_littleEndian_of_lt h]

end ByteOrder

/-- `SwapByteorder`. -/
def swapByteorder (width n : Nat) : Nat := ofLittleEndian (littleEndian width n).reverse

def convertToCorrectByteorder (localOrder : ByteOrder) (currentByteOrder : UInt8) (width n : Nat) : Nat :=
  if currentByteOrder = localOrder.flag then n else swapByteorder width n

/-- The flags of the serialization modes. -/
def serializationDdl : UInt8 := 0x04

def serializationRaw : UInt8 := 0x08

def getSerializationFlag (flags : UInt8) : UInt8 := flags &&& (serializationDdl ||| serializationRaw)

def getByteOrderFlag (flags : UInt8) : UInt8 := flags &&& (ByteOrder.le.flag ||| ByteOrder.be.flag)

structure FepDataHeader where
  majorVersion : UInt8
  minorVersion : UInt8
  serAndByteOrderFlags : UInt8
  sync : UInt8
  unused : UInt16
  sampleNumber : UInt16
  frameId : UInt64
  sendTimeStamp : Int64

namespace FepDataHeader

/-- `sizeof(cFepDataHeader)`. -/
def size : Nat := 24

def encode (order : ByteOrder) (header : FepDataHeader) : List UInt8 :=
  [header.majorVersion,header.minorVersion,header.serAndByteOrderFlags,header.sync] ++
    order.bytes 2 header.unused.toNat ++ order.bytes 2 header.sampleNumber.toNat ++
    order.bytes 8 header.frameId.toNat ++ order.bytes 8 header.sendTimeStamp.toUInt64.toNat

def field (order : ByteOrder) (offset width : Nat) (memory : List UInt8) : Nat :=
  order.value ((memory.drop offset).take width)

/-- The header read from the first bytes of a memory block. -/
def decode (order : ByteOrder) (memory : List UInt8) : FepDataHeader where
  majorVersion := memory.getD 0 0
  minorVersion := memory.getD 1 0
  serAndByteOrderFlags := memory.getD 2 0
  sync := memory.getD 3 0
  unused := .ofNat (field order 4 2 memory)
  sampleNumber := .ofNat (field order 6 2 memory)
  frameId := .ofNat (field order 8 8 memory)
  sendTimeStamp := (UInt64.ofNat (field order 16 8 memory)).toInt64

theorem length_encode (order : ByteOrder) (header : FepDataHeader) : (header.encode order).length = size := by
  simp [encode,size]

private theorem field_append (order : ByteOrder) {before : List UInt8} {offset width n : Nat}
    (hbefore : before.length = offset) (h : n < 256 ^ width) (after : List UInt8) :
    field order offset width (before ++ (order.bytes width n ++ after)) = n := by
  rw [field,drop_left' hbefore,take_left' (order.length_bytes width n),order.value_bytes h]

private theorem encode_append (order : ByteOrder) (header : FepDataHeader) (rest : List UInt8) :
    header.encode order ++ rest = [header.majorVersion,header.minorVersion,header.serAndByteOrderFlags,header.sync] ++
        (order.bytes 2 header.unused.toNat ++ (order.bytes 2 header.sampleNumber.toNat ++
          (order.bytes 8 header.frameId.toNat ++ (order.bytes 8 header.sendTimeStamp.toUInt64.toNat ++ rest)))) := by
  simp only [encode,append_assoc]

theorem decode_encode_append (order : ByteOrder) (header : FepDataHeader) (rest : List UInt8) :
    decode order (header.encode order ++ rest) = header := by
  have hunused : field order 4 2 (header.encode order ++ rest) = header.unused.toNat := by
    rw [encode_append]
    refine field_append order (by simp) ?_ _
    exact header.unused.toNat_lt
  have hsampleNumber : field order 6 2 (header.encode order ++ rest) = header.sampleNumber.toNat := by
    rw [encode_append,← append_assoc]
    refine field_append order (by simp) ?_ _
    exact header.sampleNumber.toNat_lt
  have hframeId : field order 8 8 (header.encode order ++ rest) = header.frameId.toNat := by
    rw [encode_append,← append_assoc,← append_assoc]
    refine field_append order (by simp) ?_ _
    exact header.frameId.toNat_lt
  have hsendTimeStamp : field order 16 8 (header.encode order ++ rest) = header.sendTimeStamp.toUInt64.toNat := by
    rw [encode_append,← append_assoc,← append_assoc,← append_assoc]
    refine field_append order (by simp) ?_ _
    exact header.sendTimeStamp.toUInt64.toNat_lt
  unfold decode
  rw [hunused,hsampleNumber,hframeId,hsendTimeStamp,encode_append]
  simp

end FepDataHeader

/-- A preallocated container with its capacity and the packet in it. -/
structure DataContainer where
  capacity : Nat
  data : List UInt8

structure ReceiverConfig where
  raw : Bool
  disableDdlSerialization : Bool
  signalSize : Nat

namespace ReceiverConfig

/-- A signal without a size has the default one. -/
def size (config : ReceiverConfig) : Nat := if config.signalSize = 0 then 62 * 1024 else config.signalSize

def preallocatedSamplesCount (config : ReceiverConfig) : Nat :=
  if ¬config.raw ∧ ¬(config.disableDdlSerialization ∧ 0 < config.size) then 256 else 20

end ReceiverConfig

/-- A receiver: its free containers, the received packets by number of arrival, and the owner of the job lock; and how
many packets were accepted, given to `Process`, and refused. -/
structure Receiver where
  config : ReceiverConfig
  preAllocQueue : List DataContainer
  receiveQueue : List (Nat × DataContainer)
  mtxJob : Option Nat
  accepted : Nat
  processed : List Nat
  refused : List (List UInt8)

namespace Receiver

def create (config : ReceiverConfig) : Receiver where
  config := config
  preAllocQueue := List.replicate config.preallocatedSamplesCount ⟨config.size + FepDataHeader.size,[]⟩
  receiveQueue := []
  mtxJob := none
  accepted := 0
  processed := []
  refused := []

/-- What becomes of a container that was taken for a packet. -/
inductive Filling where
  | filled (container : DataContainer)
  | notCopied (container : DataContainer)
  | refused

/-- A raw signal has the container enlarged, any other a packet that is too large refused. -/
def fill (receiver : Receiver) (packet : List UInt8) (copies : Bool) (container : DataContainer) : Filling :=
  if ¬receiver.config.raw ∧ receiver.config.size + FepDataHeader.size < packet.length then .refused
  else
    let enlarged := if receiver.config.raw ∧ container.capacity < packet.length then
        {container with capacity := packet.length}
      else container
    if copies then .filled {enlarged with data := packet} else .notCopied enlarged

end Receiver

/-- All receivers, and the jobs queued for the workers. -/
structure QueueManager where
  receivers : Nat → Receiver
  jobQueue : List Nat
  jobQueueActive : Bool

namespace QueueManager

def create (configs : Nat → ReceiverConfig) : QueueManager :=
  ⟨fun receiver => Receiver.create (configs receiver),[],true⟩

def enqueueJob (manager : QueueManager) (receiver : Nat) : QueueManager :=
  if manager.jobQueueActive then {manager with jobQueue := manager.jobQueue ++ [receiver]} else manager

def modify (manager : QueueManager) (receiver : Nat) (change : Receiver → Receiver) : QueueManager :=
  {manager with receivers := Function.update manager.receivers receiver (change (manager.receivers receiver))}

end QueueManager

/-- The position of a queue worker in `DoWork` and `DoJob`. -/
inductive QueueWorkerPosition where
  | waiting
  | starting (receiver : Nat)
  | dequeueing (receiver : Nat)
  | processing (receiver : Nat) (container : DataContainer)
  | freeing (receiver : Nat) (container : DataContainer)
  | unlocking (receiver : Nat)

/-- The position of a call of `EnqueueReceivedData`. -/
inductive EnqueuePosition where
  | allocating
  | filling (container : DataContainer)
  | enqueueing (container : DataContainer)
  | notifying
  | freeing (container : DataContainer)
  | returned

/-- The position of a call of `FlushQueue`. -/
inductive FlushPosition where
  | locking
  | dequeueing
  | freeing (container : DataContainer)
  | unlocking
  | returned

inductive ReceiveThread where
  | doWork (position : QueueWorkerPosition)
  | enqueueReceivedData (receiver : Nat) (packet : List UInt8) (position : EnqueuePosition)
  | flushQueue (receiver : Nat) (position : FlushPosition)

namespace ReceiveThread

/-- `m_qPreAllocQueue.Enqueue`. -/
def freeContainer (container : DataContainer) (receiver : Receiver) : Receiver :=
  {receiver with preAllocQueue := receiver.preAllocQueue ++ [container]}

def setMtxJob (owner : Option Nat) (receiver : Receiver) : Receiver := {receiver with mtxJob := owner}

/-- The next step of the thread with this index; `copies` is the answer of `a_util::memory::copy`. -/
def next (manager : QueueManager) (index : Nat) (copies : Bool) :
    ReceiveThread → Option (QueueManager × ReceiveThread)
  | .doWork .waiting =>
    match manager.jobQueue with
    | [] => none
    | receiver::jobs => some ({manager with jobQueue := jobs},.doWork (.starting receiver))
  | .doWork (.starting receiver) =>
    if (manager.receivers receiver).mtxJob = none then
      some (manager.modify receiver (setMtxJob (some index)),.doWork (.dequeueing receiver))
    else some (manager,.doWork .waiting)
  | .doWork (.dequeueing receiver) =>
    match (manager.receivers receiver).receiveQueue with
    | [] => some (manager,.doWork (.unlocking receiver))
    | (number,container)::queue =>
      some (manager.modify receiver fun r => {r with receiveQueue := queue, processed := r.processed ++ [number]},
        .doWork (.processing receiver container))
  | .doWork (.processing receiver container) => some (manager,.doWork (.freeing receiver container))
  | .doWork (.freeing receiver container) =>
    some (manager.modify receiver (freeContainer container),.doWork (.dequeueing receiver))
  -- the lock of the queue has been given up before that of the job
  | .doWork (.unlocking receiver) => some (manager.modify receiver (setMtxJob none),.doWork .waiting)
  | .enqueueReceivedData receiver packet .allocating =>
    match (manager.receivers receiver).preAllocQueue with
    | [] => some (manager,.enqueueReceivedData receiver packet .returned)
    | container::pool =>
      some (manager.modify receiver fun r => {r with preAllocQueue := pool},
        .enqueueReceivedData receiver packet (.filling container))
  | .enqueueReceivedData receiver packet (.filling container) =>
    match (manager.receivers receiver).fill packet copies container with
    | .filled container => some (manager,.enqueueReceivedData receiver packet (.enqueueing container))
    | .notCopied container => some (manager,.enqueueReceivedData receiver packet (.freeing container))
    | .refused =>
      some (manager.modify receiver fun r => {r with refused := r.refused ++ [packet]},
        .enqueueReceivedData receiver packet .returned)
  | .enqueueReceivedData receiver packet (.enqueueing container) =>
    some (manager.modify receiver fun r =>
        {r with receiveQueue := r.receiveQueue ++ [(r.accepted,container)], accepted := r.accepted + 1},
      .enqueueReceivedData receiver packet .notifying)
  | .enqueueReceivedData receiver packet .notifying =>
    some (manager.enqueueJob receiver,.enqueueReceivedData receiver packet .returned)
  | .enqueueReceivedData receiver packet (.freeing container) =>
    some (manager.modify receiver (freeContainer container),.enqueueReceivedData receiver packet .returned)
  | .enqueueReceivedData _ _ .returned => none
  | .flushQueue receiver .locking =>
    if (manager.receivers receiver).mtxJob = none then
      some (manager.modify receiver (setMtxJob (some index)),.flushQueue receiver .dequeueing)
    else none
  | .flushQueue receiver .dequeueing =>
    match (manager.receivers receiver).receiveQueue with
    | [] => some (manager,.flushQueue receiver .unlocking)
    | (_,container)::queue =>
      some (manager.modify receiver fun r => {r with receiveQueue := queue},
      .flushQueue receiver (.freeing container))
  | .flushQueue receiver (.freeing container) =>
    some (manager.modify receiver (freeContainer container),.flushQueue receiver .dequeueing)
  | .flushQueue receiver .unlocking => some (manager.modify receiver (setMtxJob none),.flushQueue receiver .returned)
  | .flushQueue _ .returned => none

/-- A packet arrives, or the queue is flushed. -/
def starts : ReceiveThread → Bool
  | .enqueueReceivedData _ _ .allocating => true
  | .flushQueue _ .locking => true
  | _ => false

end ReceiveThread

abbrev Reception := Threads QueueManager ReceiveThread

abbrev ReceptionAction := ThreadAction ReceiveThread Bool

namespace Reception

/-- No packet has arrived, and all workers wait for jobs. -/
def create (configs : Nat → ReceiverConfig) (workers : Nat) : Reception :=
  ⟨QueueManager.create configs,List.replicate workers (.doWork .waiting)⟩

def step (s : Reception) (action : ReceptionAction) : Option Reception :=
  s.act ReceiveThread.next ReceiveThread.starts action

end Reception

end FepParticipant.Transmission
