/-! The two queues of data items: the one of fixed capacity, which drops old items, and the dynamic one.
A read pointer to a sample or a stream type may be null. -/
namespace FepParticipant.DataRegistry

variable {α β : Type}

inductive DataItemType where
  | sample
  | type

/-- An item owns a read pointer to a sample or to a stream type. -/
structure DataItem (α β : Type) where
  itemType : DataItemType
  time : Int
  sample : Option α
  streamType : Option β

namespace DataItem

/-- An item of a resized vector. -/
def empty : DataItem α β := ⟨.sample,0,none,none⟩

def setSample (_ : DataItem α β) (sample : Option α) (time : Int) : DataItem α β := ⟨.sample,time,sample,none⟩

def setStreamType (_ : DataItem α β) (streamType : Option β) (time : Int) : DataItem α β :=
  ⟨.type,time,none,streamType⟩

def resetSample (item : DataItem α β) : DataItem α β := {item with sample := none}

def resetStreamType (item : DataItem α β) : DataItem α β := {item with streamType := none}

end DataItem

inductive Received (α β : Type) where
  | sample (sample : Option α)
  | streamType (streamType : Option β)
  deriving DecidableEq

def DataItem.onReceive (item : DataItem α β) : Received α β :=
  match item.itemType with
  | .sample => .sample item.sample
  | .type => .streamType item.streamType

def DataItem.resetReceived (item : DataItem α β) : DataItem α β :=
  match item.itemType with
  | .sample => item.resetSample
  | .type => item.resetStreamType

inductive QueueCall (α β : Type) where
  | push (sample : Option α) (time : Int)
  | pushType (streamType : Option β) (time : Int)
  | topTime
  | pop
  | popTo
  | size
  | clear

/-- Their results, with what a receiver was given. -/
inductive QueueResult (α β : Type) where
  | done
  | topTime (time : Int)
  | popped (popped : Bool) (received : List (Received α β))
  | size (size : Nat)
  deriving DecidableEq

structure DataItemQueue (α β : Type) where
  items : List (DataItem α β)
  configuredCapacity : Nat
  nextWriteIdx : Nat
  nextReadIdx : Nat
  currentSize : Nat

namespace DataItemQueue
variable (queue : DataItemQueue α β)

def create (capacity : Nat) : DataItemQueue α β :=
  let capacity := if capacity ≤ 0 then 1 else capacity
  ⟨List.replicate capacity .empty,capacity,0,0,0⟩

def capacity : Nat := queue.items.length

/-- An index at the end goes back to the start. -/
def wrap (index : Nat) : Nat := if index = queue.items.length then 0 else index

/-- The common part of both kinds of push; `store` sets the item in the slot. There is no result when the slot
is outside of the vector. -/
def store (queue : DataItemQueue α β) (store : DataItem α β → DataItem α β) : Option (DataItemQueue α β) := do
  let writeIdx := queue.wrap queue.nextWriteIdx
  let ref ← queue.items[writeIdx]?
  let queue :=
    { queue with
      items := queue.items.set writeIdx (store ref)
      nextWriteIdx := writeIdx + 1
      currentSize := queue.currentSize + 1 }
  -- the oldest item is dropped when the queue was full
  if queue.currentSize > queue.capacity then
    return {queue with currentSize := queue.capacity, nextReadIdx := queue.wrap queue.nextReadIdx + 1}
  else return queue

def push (sample : Option α) (time : Int) : Option (DataItemQueue α β) :=
  queue.store fun item => item.setSample sample time

def pushType (streamType : Option β) (time : Int) : Option (DataItemQueue α β) :=
  queue.store fun item => item.setStreamType streamType time

/-- `invalid` is `INVALID_timestamp_t_fep`. -/
def topTime (invalid : Int) (queue : DataItemQueue α β) : Option (DataItemQueue α β × Int) :=
  if queue.currentSize > 0 then do
    let readIdx := queue.wrap queue.nextReadIdx
    let ref ← queue.items[readIdx]?
    return ({queue with nextReadIdx := readIdx},ref.time)
  else some (queue,invalid)

/-- The common part of both kinds of pop; `release` is what is left in the slot of the item. -/
def take (release : DataItem α β → DataItem α β) :
    Option (DataItemQueue α β × Option (DataItem α β)) :=
  if queue.currentSize > 0 then do
    let readIdx := queue.wrap queue.nextReadIdx
    let ref ← queue.items[readIdx]?
    return ({ queue with
      items := queue.items.set readIdx (release ref)
      nextReadIdx := readIdx + 1
      currentSize := queue.currentSize - 1 },some ref)
  else some (queue,none)

def pop : Option (DataItemQueue α β × Bool) := do
  let (queue,taken) ← queue.take fun item => item.resetSample.resetStreamType
  return (queue,taken.isSome)

/-- `pop` with a receiver. -/
def popTo : Option (DataItemQueue α β × Bool × List (Received α β)) := do
  let (queue,taken) ← queue.take DataItem.resetReceived
  return (queue,taken.isSome,taken.toList.map DataItem.onReceive)

def clear : DataItemQueue α β :=
  { queue with
    items := List.replicate queue.configuredCapacity .empty
    nextWriteIdx := 0
    nextReadIdx := 0
    currentSize := 0 }

def call (invalid : Int) (queue : DataItemQueue α β) : QueueCall α β → Option (DataItemQueue α β × QueueResult α β)
  | .push sample time => (queue.push sample time).map fun queue => (queue,.done)
  | .pushType streamType time => (queue.pushType streamType time).map fun queue => (queue,.done)
  | .topTime => (queue.topTime invalid).map fun (queue,time) => (queue,.topTime time)
  | .pop => queue.pop.map fun (queue,popped) => (queue,.popped popped [])
  | .popTo => queue.popTo.map fun (queue,popped,received) => (queue,.popped popped received)
  | .size => some (queue,.size queue.currentSize)
  | .clear => some (queue.clear,.done)

/-- The results of a sequence of calls. -/
def run (invalid : Int) (queue : DataItemQueue α β) :
    List (QueueCall α β) → Option (DataItemQueue α β × List (QueueResult α β))
  | [] => some (queue,[])
  | call::calls => do
    let (queue,result) ← queue.call invalid call
    let (queue,results) ← queue.run invalid calls
    return (queue,result::results)

end DataItemQueue

/-- The queue of changing capacity. -/
structure DynamicDataItemQueue (α β : Type) where
  items : List (DataItem α β)

namespace DynamicDataItemQueue
variable (queue : DynamicDataItemQueue α β)

/-- The given capacity is not used. -/
def create (_ : Nat) : DynamicDataItemQueue α β := ⟨[]⟩

def push (sample : Option α) (time : Int) : DynamicDataItemQueue α β :=
  ⟨queue.items ++ [⟨.sample,time,sample,none⟩]⟩

def pushType (streamType : Option β) (time : Int) : DynamicDataItemQueue α β :=
  ⟨queue.items ++ [⟨.type,time,none,streamType⟩]⟩

def topTime (invalid : Int) (queue : DynamicDataItemQueue α β) : Int :=
  match queue.items with
  | [] => invalid
  | item::_ => item.time

def pop : DynamicDataItemQueue α β × Bool :=
  match queue.items with
  | [] => (queue,false)
  | _::items => (⟨items⟩,true)

def popTo : DynamicDataItemQueue α β × Bool × List (Received α β) :=
  match queue.items with
  | [] => (queue,false,[])
  | item::items => (⟨items⟩,true,[item.onReceive])

def clear (_ : DynamicDataItemQueue α β) : DynamicDataItemQueue α β := ⟨[]⟩

def call (invalid : Int) (queue : DynamicDataItemQueue α β) :
    QueueCall α β → DynamicDataItemQueue α β × QueueResult α β
  | .push sample time => (queue.push sample time,.done)
  | .pushType streamType time => (queue.pushType streamType time,.done)
  | .topTime => (queue,.topTime (queue.topTime invalid))
  | .pop => let (queue,popped) := queue.pop
    (queue,.popped popped [])
  | .popTo => let (queue,popped,received) := queue.popTo
    (queue,.popped popped received)
  | .size => (queue,.size queue.items.length)
  | .clear => (queue.clear,.done)

def run (invalid : Int) (queue : DynamicDataItemQueue α β) :
    List (QueueCall α β) → DynamicDataItemQueue α β × List (QueueResult α β)
  | [] => (queue,[])
  | call::calls =>
    let called := queue.call invalid call
    let later := called.1.run invalid calls
    (later.1,called.2::later.2)

end DynamicDataItemQueue

end FepParticipant.DataRegistry
