import FepParticipant.DataRegistry.DataItemQueue
import FepParticipant.Transmission.Transmitter

/-! The data writers of FEP 2: the samples they copy what is written to, the pool they take these from, and the queue
until the next flush. -/
namespace FepParticipant.DataRegistry
open Transmission

/-- `INVALID_timestamp_t_fep`. -/
def invalidTimestamp : Int64 := Int64.minValue

/-- A sample that is written: its time and the bytes at its data pointer, which may be null. -/
structure WrittenSample where
  time : Int64
  data : Option (List UInt8)

/-- `DataSampleFEP2` with the sample it owns; a `DataSampleFEP2Pooled` goes back to its pool. -/
structure DataSampleFEP2 where
  userDataSample : PreparationDataSample
  fixedSize : Bool
  pooled : Bool

namespace DataSampleFEP2

def capacity (sample : DataSampleFEP2) : Nat := sample.userDataSample.memory.length

/-- The number of bytes that are taken over of data of a size. -/
def limit (sample : DataSampleFEP2) (size : Nat) : Nat :=
  if sample.fixedSize ∧ sample.capacity < size then sample.capacity else size

def setTime (sample : DataSampleFEP2) (time : Int64) : DataSampleFEP2 :=
  {sample with userDataSample := sample.userDataSample.setTime time}

/-- `set`, which drops the result of `CopyFrom`. -/
def set (copier : Copier) (sample : DataSampleFEP2) (data : Option (List UInt8)) : DataSampleFEP2 :=
  { sample with
    userDataSample :=
      (sample.userDataSample.copyFrom copier (data.map fun bytes => bytes.take (sample.limit bytes.length))).1 }

/-- `operator=`; the counter is not kept. -/
def assign (copier : Copier) (sample : DataSampleFEP2) (other : WrittenSample) : DataSampleFEP2 :=
  (sample.setTime other.time).set copier other.data

end DataSampleFEP2

/-- The stack of samples, the top first, and whether the pool has a data access. -/
structure DataSampleFEP2Pool where
  pooledSamples : List DataSampleFEP2
  userDataAccess : Bool

namespace DataSampleFEP2Pool

def new : DataSampleFEP2Pool := ⟨[],false⟩

/-- A sample of `init`. -/
def newSample (allocate : Allocator) (preAllocSize signalHandle : Nat) : DataSampleFEP2 where
  userDataSample := ((PreparationDataSample.create.setSignalHandle signalHandle).setSize allocate preAllocSize).1
  fixedSize := preAllocSize ≠ 0
  pooled := true

/-- `init`; every sample has a memory block of its own. -/
def init (allocate : Nat → Allocator) (pool : DataSampleFEP2Pool) (poolSize preAllocSize signalHandle : Nat) :
    DataSampleFEP2Pool where
  pooledSamples :=
    ((List.range poolSize).map fun idx => newSample (allocate idx) preAllocSize signalHandle).reverse ++
      pool.pooledSamples
  userDataAccess := true

/-- The samples that leave the stack are deleted. -/
def deinit (_ : DataSampleFEP2Pool) : DataSampleFEP2Pool := new

/-- A sample that is created because the stack is empty. -/
def fallbackSample (signalHandle : Nat) : DataSampleFEP2 where
  userDataSample :=
    if signalHandle ≠ 0 then PreparationDataSample.create.setSignalHandle signalHandle
    else PreparationDataSample.create
  fixedSize := false
  pooled := false

def getFEP2Sample (pool : DataSampleFEP2Pool) (signalHandle : Nat) : DataSampleFEP2Pool × Option DataSampleFEP2 :=
  match pool.pooledSamples with
  | sample::samples => ({pool with pooledSamples := samples},some sample)
  | [] => (pool,if pool.userDataAccess then some (fallbackSample signalHandle) else none)

/-- What happens to a sample that nobody holds any more. -/
def release (pool : DataSampleFEP2Pool) (sample : DataSampleFEP2) : DataSampleFEP2Pool :=
  if sample.pooled ∧ pool.userDataAccess then {pool with pooledSamples := sample::pool.pooledSamples} else pool

end DataSampleFEP2Pool

/-- `DATA_ITEM_QUEUE_TYPE`. -/
inductive WriterQueueType where
  | fixed
  | dynamic

inductive WriterQueue where
  | fixed (queue : DataItemQueue DataSampleFEP2 Unit)
  | dynamic (queue : DynamicDataItemQueue DataSampleFEP2 Unit)

namespace WriterQueue

def create : WriterQueueType → Nat → WriterQueue
  | .fixed, capacity => fixed (.create capacity)
  | .dynamic, capacity => dynamic (.create capacity)

def size : WriterQueue → Nat
  | fixed queue => queue.currentSize
  | dynamic queue => queue.items.length

/-- The sample of the slot that the next item goes to. -/
def overwritten : WriterQueue → Option DataSampleFEP2
  | fixed queue => (queue.items[queue.wrap queue.nextWriteIdx]?).bind DataItem.sample
  | dynamic _ => none

def push (sample : DataSampleFEP2) (time : Int) : WriterQueue → Option WriterQueue
  | fixed queue => (queue.push (some sample) time).map fixed
  | dynamic queue => some (dynamic (queue.push (some sample) time))

/-- `pop` with a transmitter, which is not given stream types. -/
def popTo : WriterQueue → Option (WriterQueue × List DataSampleFEP2)
  | fixed queue => queue.popTo.map fun (queue,_,received) => (fixed queue,received.filterMap transmitter)
  | dynamic queue => let (queue,_,received) := queue.popTo
    some (dynamic queue,received.filterMap transmitter)
where
  transmitter : Received DataSampleFEP2 Unit → Option DataSampleFEP2
    | .sample sample => sample
    | .streamType _ => none

def clear : WriterQueue → WriterQueue
  | fixed queue => fixed queue.clear
  | dynamic queue => dynamic queue.clear

end WriterQueue

/-- `DataWriterFEP2`; its pointers are set while it is initialised. -/
structure DataWriterFEP2 where
  reusedSamplePool : DataSampleFEP2Pool
  preAllocatedSize : Nat
  samplePoolInitSize : Nat
  initialised : Bool
  signalHandle : Nat
  queue : WriterQueue

namespace DataWriterFEP2

/-- A writer with one of the two queues. -/
def new (queueType : WriterQueueType) (samplePoolInitSize preAllocatedSize : Nat) : DataWriterFEP2 where
  reusedSamplePool := .new
  preAllocatedSize := preAllocatedSize
  samplePoolInitSize := if samplePoolInitSize ≤ 0 then 1 else samplePoolInitSize
  initialised := false
  signalHandle := 0
  queue := .create queueType samplePoolInitSize

def init (allocate : Nat → Allocator) (writer : DataWriterFEP2) (signalHandle : Nat) : DataWriterFEP2 :=
  { writer with
    reusedSamplePool :=
      writer.reusedSamplePool.init allocate writer.samplePoolInitSize writer.preAllocatedSize signalHandle
    initialised := true
    signalHandle := signalHandle }

/-- `deinit`; the samples in the queue go to the pool, which deletes all it has. -/
def deinit (writer : DataWriterFEP2) : DataWriterFEP2 :=
  { writer with
    queue := writer.queue.clear
    signalHandle := 0
    initialised := false
    reusedSamplePool := writer.reusedSamplePool.deinit }

/-- `write`, with the clock's times for the sample and the queue. There is no result when the queue writes outside
its slots. -/
def write (copier : Copier) (writer : DataWriterFEP2) (sampleToWrite : WrittenSample) (time : Int64)
    (timeOfReceiving : Int) : Option (DataWriterFEP2 × Result) :=
  match writer.reusedSamplePool.getFEP2Sample writer.signalHandle with
  | (pool,some pooledSample) =>
    let assigned := pooledSample.assign copier sampleToWrite
    let timed := if sampleToWrite.time = invalidTimestamp then assigned.setTime time else assigned
    (writer.queue.push timed timeOfReceiving).map fun queue =>
      ({ writer with
        reusedSamplePool := writer.queue.overwritten.elim pool pool.release
        queue := queue },.errNoError)
  | (_,none) => some (writer,.errPointer)

/-- The loop of the flushes; `onReceive` is what the receiver makes of a sample before it transmits it. -/
def flushLoop (onReceive : DataSampleFEP2 → DataSampleFEP2) :
    Nat → DataWriterFEP2 → Option (DataWriterFEP2 × List PreparationDataSample)
  | 0, _ => none
  | fuel + 1, writer =>
    if writer.queue.size > 0 then do
      let (queue,popped) ← writer.queue.popTo
      let received := popped.map onReceive
      let (writer,transmitted) ← flushLoop onReceive fuel
        { writer with
          queue := queue
          reusedSamplePool := received.foldl DataSampleFEP2Pool.release writer.reusedSamplePool }
      return (writer,received.map DataSampleFEP2.userDataSample ++ transmitted)
    else some (writer,[])

/-- `flush` with the samples it transmits. -/
def flush (writer : DataWriterFEP2) : Option (DataWriterFEP2 × List PreparationDataSample) :=
  flushLoop id (writer.queue.size + 1) writer

def flushFEP22Compatible (writer : DataWriterFEP2) (cycleTime : Int64) :
    Option (DataWriterFEP2 × List PreparationDataSample) :=
  flushLoop (fun sample => sample.setTime (sample.userDataSample.timeStamp + cycleTime)) (writer.queue.size + 1) writer

end DataWriterFEP2

end FepParticipant.DataRegistry
