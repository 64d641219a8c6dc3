import FepParticipant.DataRegistry.DataItemQueue
import FepParticipant.Library.CircularList

/-! Both queues behave like a list of items: the dynamic one like any list, the one of fixed capacity like
the list of the last items. -/
namespace FepParticipant.DataRegistry
open Library List Option Nat

variable {α β : Type}

/-- An item with its content and time. -/
inductive Item (α β : Type) where
  | sample (content : Option α) (time : Int)
  | streamType (content : Option β) (time : Int)

namespace Item

def time : Item α β → Int
  | .sample _ time | .streamType _ time => time

def received : Item α β → Received α β
  | .sample content _ => .sample content
  | .streamType content _ => .streamType content

def toDataItem : Item α β → DataItem α β
  | .sample content time => ⟨.sample,time,content,none⟩
  | .streamType content time => ⟨.type,time,none,content⟩

@[simp] theorem time_toDataItem (item : Item α β) : item.toDataItem.time = item.time := by
  cases item <;> rfl

@[simp] theorem onReceive_toDataItem (item : Item α β) : item.toDataItem.onReceive = item.received := by
  cases item <;> rfl

end Item

/-- The purpose of a queue: a list from which the first item is taken; `add` appends an item. -/
def fifoCall (invalid : Int) (add : List (Item α β) → Item α β → List (Item α β)) (items : List (Item α β)) :
    QueueCall α β → List (Item α β) × QueueResult α β
  | .push sample time => (add items (.sample sample time),.done)
  | .pushType streamType time => (add items (.streamType streamType time),.done)
  | .topTime => (items,.topTime ((items.head?.map Item.time).getD invalid))
  | .pop => (items.tail,.popped items.head?.isSome [])
  | .popTo => (items.tail,.popped items.head?.isSome (items.head?.toList.map Item.received))
  | .size => (items,.size items.length)
  | .clear => ([],.done)

def fifoRun (invalid : Int) (add : List (Item α β) → Item α β → List (Item α β)) (items : List (Item α β)) :
    List (QueueCall α β) → List (Item α β) × List (QueueResult α β)
  | [] => (items,[])
  | call::calls =>
    let called := fifoCall invalid add items call
    let later := fifoRun invalid add called.1 calls
    (later.1,called.2::later.2)

/-- Only the last `capacity` items are kept. -/
def addBounded (capacity : Nat) (items : List (Item α β)) (item : Item α β) : List (Item α β) :=
  keepLast capacity (items ++ [item])

def addUnbounded (items : List (Item α β)) (item : Item α β) : List (Item α β) := items ++ [item]

structure DataItemQueue.Represents (queue : DataItemQueue α β) (items : List (Item α β)) : Prop where
  configured : queue.items.length = queue.configuredCapacity
  pos : 0 < queue.items.length
  size : queue.currentSize = items.length
  size_le : items.length ≤ queue.items.length
  read_le : queue.nextReadIdx ≤ queue.items.length
  write_le : queue.nextWriteIdx ≤ queue.items.length
  write : queue.nextWriteIdx % queue.items.length = (queue.nextReadIdx + items.length) % queue.items.length
  lies : Lies queue.items queue.nextReadIdx (items.map Item.toDataItem)

namespace DataItemQueue
variable {queue : DataItemQueue α β} {items : List (Item α β)} {item : Item α β}

theorem represents_create (capacity : Nat) : (create capacity : DataItemQueue α β).Represents [] where
  configured := length_replicate
  pos := by
    simp only [create,length_replicate]
    split <;> omega
  size := rfl
  size_le := zero_le _
  read_le := zero_le _
  write_le := zero_le _
  write := rfl
  lies := Lies.nil _ _

theorem wrap_eq {index : Nat} (hle : index ≤ queue.items.length) : queue.wrap index = index % queue.items.length := by
  unfold wrap
  split
  · rename_i hend
    rw [hend,mod_self]
  · exact (mod_eq_of_lt (by omega)).symm

theorem Represents.wrap_write (h : queue.Represents items) :
    queue.wrap queue.nextWriteIdx = (queue.nextReadIdx + items.length) % queue.items.length := by
  rw [wrap_eq h.write_le,h.write]

theorem Represents.append (h : queue.Represents items) (hroom : items.length < queue.items.length)
    (item : Item α β) : Represents { queue with
      items := queue.items.set (queue.wrap queue.nextWriteIdx) item.toDataItem
      nextWriteIdx := queue.wrap queue.nextWriteIdx + 1
      currentSize := queue.currentSize + 1 } (items ++ [item]) where
  configured := by
    rw [length_set]
    exact h.configured
  pos := by
    rw [length_set]
    exact h.pos
  size := by
    rw [length_append,h.size]
    rfl
  size_le := by
    rw [length_append,length_set]
    exact hroom
  read_le := by
    rw [length_set]
    exact h.read_le
  write_le := by
    rw [length_set,h.wrap_write]
    exact mod_lt _ h.pos
  write := by
    simp only [length_set,length_append,length_singleton]
    rw [h.wrap_write,mod_add_mod,add_assoc]
  lies := by
    have happend := h.lies.append (by rw [length_map]; exact hroom) item.toDataItem
    rw [length_map] at happend
    rw [h.wrap_write,map_append]
    exact happend

theorem Represents.overwrite {first : Item α β} (h : queue.Represents (first::items))
    (hfull : (first::items).length = queue.items.length) (item : Item α β) : Represents { queue with
      items := queue.items.set (queue.wrap queue.nextWriteIdx) item.toDataItem
      nextWriteIdx := queue.wrap queue.nextWriteIdx + 1
      nextReadIdx := queue.wrap queue.nextReadIdx + 1
      currentSize := queue.items.length } (items ++ [item]) := by
  have hread : queue.wrap queue.nextReadIdx = queue.nextReadIdx % queue.items.length := wrap_eq h.read_le
  have hwrite : queue.wrap queue.nextWriteIdx = queue.nextReadIdx % queue.items.length := by
    rw [h.wrap_write,hfull,add_mod_right]
  have hlt : queue.nextReadIdx % queue.items.length < queue.items.length := mod_lt _ h.pos
  rw [hread,hwrite]
  constructor
  · rw [length_set]
    exact h.configured
  · rw [length_set]
    exact h.pos
  · rw [length_append,← hfull]
    rfl
  · rw [length_append,length_set,← hfull]
    exact le_refl _
  · rw [length_set]
    exact hlt
  · rw [length_set]
    exact hlt
  · have hlength : (items ++ [item]).length = queue.items.length := by
      rw [length_append,← hfull]
      rfl
    rw [length_set,hlength,add_mod_right]
  · have hrest := h.lies.mod.tail
    have hslots : (queue.nextReadIdx % queue.items.length + 1 + (items.map Item.toDataItem).length) %
        queue.items.length = queue.nextReadIdx % queue.items.length := by
      rw [length_map,add_assoc,add_comm 1,← length_cons,hfull,add_mod_right,mod_mod]
    have happend := hrest.append (by rw [length_map,← hfull]; exact lt_succ_self _) item.toDataItem
    rw [hslots] at happend
    rw [map_append]
    exact happend

private theorem store_eq (hlt : queue.wrap queue.nextWriteIdx < queue.items.length)
    {set : DataItem α β → DataItem α β} (hset : ∀ ref, set ref = item.toDataItem) :
    queue.store set = some (if queue.currentSize + 1 > queue.items.length then
      { queue with
        items := queue.items.set (queue.wrap queue.nextWriteIdx) item.toDataItem
        nextWriteIdx := queue.wrap queue.nextWriteIdx + 1
        nextReadIdx := queue.wrap queue.nextReadIdx + 1
        currentSize := queue.items.length }
    else
      { queue with
        items := queue.items.set (queue.wrap queue.nextWriteIdx) item.toDataItem
        nextWriteIdx := queue.wrap queue.nextWriteIdx + 1
        currentSize := queue.currentSize + 1 }) := by
  unfold DataItemQueue.store
  dsimp only
  rw [getElem?_eq_getElem hlt]
  simp only [bind_eq_bind,bind_some,hset,capacity,length_set]
  split <;> simp only [wrap,length_set] <;> rfl

theorem Represents.store (h : queue.Represents items) {set : DataItem α β → DataItem α β}
    (hset : ∀ ref, set ref = item.toDataItem) :
    ∃ queue' : DataItemQueue α β, queue.store set = some queue' ∧ queue'.items.length = queue.items.length ∧
      queue'.Represents (addBounded queue.items.length items item) := by
  have hlt : queue.wrap queue.nextWriteIdx < queue.items.length := by
    rw [h.wrap_write]
    exact mod_lt _ h.pos
  rw [store_eq hlt hset]
  refine ⟨_,rfl,?_⟩
  rcases lt_or_eq_of_le h.size_le with hroom | hfull
  · rw [h.size,if_neg (Nat.not_lt.mpr hroom),← h.size]
    refine ⟨length_set,?_⟩
    rw [addBounded,keepLast_of_le (by rw [length_append]; exact hroom)]
    exact h.append hroom item
  · rw [if_pos (by rw [h.size,hfull]; exact lt_succ_self _)]
    refine ⟨length_set,?_⟩
    cases items with
    | nil =>
      have hpos := h.pos
      rw [← hfull] at hpos
      cases hpos
    | cons first items =>
      rw [addBounded,keepLast_append_of_full hfull]
      exact h.overwrite hfull item

theorem Represents.take {first : Item α β} (h : queue.Represents (first::items))
    (release : DataItem α β → DataItem α β) :
    ∃ queue' : DataItemQueue α β, queue.take release = some (queue',some first.toDataItem) ∧
      queue'.items.length = queue.items.length ∧ queue'.Represents items := by
  have hread : queue.wrap queue.nextReadIdx = queue.nextReadIdx % queue.items.length := wrap_eq h.read_le
  have hlt : queue.nextReadIdx % queue.items.length < queue.items.length := mod_lt _ h.pos
  have hhead := h.lies.head
  have hsize : queue.currentSize = items.length + 1 := h.size
  have hfits : items.length < queue.items.length := h.size_le
  unfold DataItemQueue.take
  rw [if_pos (by rw [hsize]; exact succ_pos _)]
  simp only [hread,hhead,bind_eq_bind,bind_some]
  refine ⟨_,rfl,length_set,?_⟩
  constructor
  · rw [length_set]
    exact h.configured
  · rw [length_set]
    exact h.pos
  · simp only [hsize,Nat.add_sub_cancel]
  · rw [length_set]
    exact le_of_lt hfits
  · rw [length_set]
    exact hlt
  · rw [length_set]
    exact h.write_le
  · simp only [length_set]
    rw [h.write,length_cons,add_assoc,mod_add_mod,add_comm 1]
  · have htail := h.lies.mod.tail_set (by rw [length_map]; exact hfits) (release first.toDataItem)
    rw [mod_mod] at htail
    exact htail

theorem Represents.take_nil (h : queue.Represents []) (release : DataItem α β → DataItem α β) :
    queue.take release = some (queue,none) :=
  if_neg (by rw [h.size]; exact lt_irrefl 0)

section
variable (h : queue.Represents items)
include h

theorem Represents.topTime (invalid : Int) : ∃ queue' : DataItemQueue α β,
      queue.topTime invalid = some (queue',(items.head?.map Item.time).getD invalid) ∧
      queue'.items.length = queue.items.length ∧ queue'.Represents items := by
  unfold DataItemQueue.topTime
  cases items with
  | nil =>
    rw [if_neg (by rw [h.size]; exact lt_irrefl 0)]
    exact ⟨queue,rfl,rfl,h⟩
  | cons first items =>
    have hread : queue.wrap queue.nextReadIdx = queue.nextReadIdx % queue.items.length := wrap_eq h.read_le
    have hhead := h.lies.head
    rw [if_pos (by rw [h.size]; exact succ_pos _)]
    simp only [hread,hhead,bind_eq_bind,bind_some]
    refine ⟨{queue with nextReadIdx := queue.nextReadIdx % queue.items.length},?_,rfl,?_⟩
    · rw [Item.time_toDataItem]
      rfl
    refine ⟨h.configured,h.pos,h.size,h.size_le,le_of_lt (mod_lt _ h.pos),h.write_le,?_,h.lies.mod⟩
    simp only [h.write,mod_add_mod]

theorem Represents.clear : queue.clear.items.length = queue.items.length ∧ queue.clear.Represents [] := by
  have hlength : queue.clear.items.length = queue.items.length := length_replicate.trans h.configured.symm
  refine ⟨hlength,⟨hlength.trans h.configured,?_,rfl,zero_le _,zero_le _,zero_le _,rfl,Lies.nil _ _⟩⟩
  rw [hlength]
  exact h.pos

theorem Represents.call (invalid : Int) (call : QueueCall α β) : ∃ queue' : DataItemQueue α β,
      queue.call invalid call = some (queue',(fifoCall invalid (addBounded queue.items.length) items call).2) ∧
      queue'.items.length = queue.items.length ∧
      queue'.Represents (fifoCall invalid (addBounded queue.items.length) items call).1 := by
  cases call with
  | push sample time =>
    obtain ⟨queue',hstore,hlength,hrepresents⟩ := @Represents.store _ _ queue items (.sample sample time) h
      (fun item => item.setSample sample time) fun _ => rfl
    exact ⟨queue',by rw [DataItemQueue.call,push,hstore]; rfl,hlength,hrepresents⟩
  | pushType streamType time =>
    obtain ⟨queue',hstore,hlength,hrepresents⟩ := @Represents.store _ _ queue items (.streamType streamType time) h
      (fun item => item.setStreamType streamType time) fun _ => rfl
    exact ⟨queue',by rw [DataItemQueue.call,pushType,hstore]; rfl,hlength,hrepresents⟩
  | topTime =>
    obtain ⟨queue',htop,hlength,hrepresents⟩ := h.topTime invalid
    exact ⟨queue',by rw [DataItemQueue.call,htop]; rfl,hlength,hrepresents⟩
  | pop =>
    cases items with
    | nil => exact ⟨queue,by rw [DataItemQueue.call,pop,h.take_nil]; rfl,rfl,h⟩
    | cons first items =>
      obtain ⟨queue',htake,hlength,hrepresents⟩ := h.take fun item => item.resetSample.resetStreamType
      exact ⟨queue',by rw [DataItemQueue.call,pop,htake]; rfl,hlength,hrepresents⟩
  | popTo =>
    cases items with
    | nil => exact ⟨queue,by rw [DataItemQueue.call,popTo,h.take_nil]; rfl,rfl,h⟩
    | cons first items =>
      obtain ⟨queue',htake,hlength,hrepresents⟩ := h.take DataItem.resetReceived
      refine ⟨queue',?_,hlength,hrepresents⟩
      rw [DataItemQueue.call,popTo,htake]
      simp [fifoCall]
  | size => exact ⟨queue,by rw [DataItemQueue.call,h.size]; rfl,rfl,h⟩
  | clear => exact ⟨queue.clear,rfl,h.clear.1,h.clear.2⟩

theorem Represents.run (invalid : Int) (calls : List (QueueCall α β)) : ∃ queue' : DataItemQueue α β,
      queue.run invalid calls = some (queue',(fifoRun invalid (addBounded queue.items.length) items calls).2) ∧
      queue'.Represents (fifoRun invalid (addBounded queue.items.length) items calls).1 := by
  induction calls generalizing queue items with
  | nil => exact ⟨queue,rfl,h⟩
  | cons call calls ih =>
    obtain ⟨called,hcall,hlength,hcalled⟩ := h.call invalid call
    obtain ⟨queue',hrun,hrepresents⟩ := ih hcalled
    rw [hlength] at hrun hrepresents
    refine ⟨queue',?_,hrepresents⟩
    rw [DataItemQueue.run,hcall]
    dsimp only [bind_eq_bind,bind_some]
    rw [hrun]
    rfl

end

end DataItemQueue

namespace DynamicDataItemQueue
variable {items : List (Item α β)}

private theorem call_eq (invalid : Int) (items : List (Item α β)) (call : QueueCall α β) :
    (⟨items.map Item.toDataItem⟩ : DynamicDataItemQueue α β).call invalid call =
      (⟨(fifoCall invalid addUnbounded items call).1.map Item.toDataItem⟩,
        (fifoCall invalid addUnbounded items call).2) := by
  cases call with
  | push sample time => simp [call,push,fifoCall,addUnbounded,Item.toDataItem]
  | pushType streamType time => simp [call,pushType,fifoCall,addUnbounded,Item.toDataItem]
  | topTime => cases items <;> simp [call,topTime,fifoCall]
  | pop => cases items <;> rfl
  | popTo => cases items <;> simp [call,popTo,fifoCall]
  | size => simp [call,fifoCall]
  | clear => rfl

theorem run_eq (invalid : Int) (items : List (Item α β)) (calls : List (QueueCall α β)) :
    (⟨items.map Item.toDataItem⟩ : DynamicDataItemQueue α β).run invalid calls =
      (⟨(fifoRun invalid addUnbounded items calls).1.map Item.toDataItem⟩,
        (fifoRun invalid addUnbounded items calls).2) := by
  induction calls generalizing items with
  | nil => rfl
  | cons call calls ih =>
    rw [run,call_eq]
    rw [ih]
    rfl

end DynamicDataItemQueue

def QueueCall.pushed : QueueCall α β → Option (Received α β)
  | .push sample _ => some (.sample sample)
  | .pushType streamType _ => some (.streamType streamType)
  | _ => none

def QueueResult.handedOut : QueueResult α β → List (Received α β)
  | .popped _ received => received
  | _ => []

section
variable {items : List (Item α β)} {calls : List (QueueCall α β)} {capacity : Nat} {invalid : Int}

theorem fifoRun_bounded (hfits : ∀ before after, calls = before ++ after →
      (fifoRun invalid addUnbounded items before).1.length ≤ capacity) :
    fifoRun invalid (addBounded capacity) items calls = fifoRun invalid addUnbounded items calls := by
  induction calls generalizing items with
  | nil => rfl
  | cons call calls ih =>
    have hnext : (fifoCall invalid addUnbounded items call).1.length ≤ capacity := hfits [call] calls rfl
    have hcall : fifoCall invalid (addBounded capacity) items call = fifoCall invalid addUnbounded items call := by
      cases call with
      | push sample time => exact congrArg (fun list => (list,QueueResult.done)) (keepLast_of_le hnext)
      | pushType streamType time => exact congrArg (fun list => (list,QueueResult.done)) (keepLast_of_le hnext)
      | topTime => rfl
      | pop => rfl
      | popTo => rfl
      | size => rfl
      | clear => rfl
    rw [fifoRun,fifoRun,hcall,ih]
    intro before after hcalls
    exact hfits (call::before) after (congrArg (call :: ·) hcalls)

theorem fifoRun_sublist : ((fifoRun invalid (addBounded capacity) items calls).2.flatMap QueueResult.handedOut ++
      (fifoRun invalid (addBounded capacity) items calls).1.map Item.received).Sublist
    (items.map Item.received ++ calls.filterMap QueueCall.pushed) := by
  induction calls generalizing items with
  | nil => exact sublist_append_left _ _
  | cons call calls ih =>
    have hadd (item : Item α β) : ((addBounded capacity items item).map Item.received ++
        calls.filterMap QueueCall.pushed).Sublist
        (items.map Item.received ++ item.received::calls.filterMap QueueCall.pushed) := by
      have hkept : (addBounded capacity items item).Sublist (items ++ [item]) := keepLast_suffix.sublist
      simpa using (hkept.map Item.received).append_right (calls.filterMap QueueCall.pushed)
    rw [fifoRun]
    cases call with
    | push sample time => exact ih.trans (hadd (.sample sample time))
    | pushType streamType time => exact ih.trans (hadd (.streamType streamType time))
    | topTime | size => exact ih
    | pop => exact ih.trans (((tail_sublist items).map _).append_right _)
    | popTo =>
      cases items with
      | nil => exact ih
      | cons first items => exact ih.cons_cons first.received
    | clear => exact ih.trans (sublist_append_right _ _)

end

def NeverExceeds (invalid : Int) (capacity : Nat) (calls : List (QueueCall α β)) : Prop :=
  ∀ before after, calls = before ++ after →
    ((DynamicDataItemQueue.create capacity).run invalid before).1.items.length ≤
      (DataItemQueue.create capacity : DataItemQueue α β).capacity

/-- For all calls the queue of fixed capacity gives the results of the list of the last items, and those of the dynamic
queue while nothing is dropped. -/
theorem data_item_queue_refines_fifo (invalid : Int) (capacity : Nat) (calls : List (QueueCall α β)) :
    (∃ queue : DataItemQueue α β, (DataItemQueue.create capacity).run invalid calls =
        some (queue,(fifoRun invalid (addBounded (DataItemQueue.create capacity : DataItemQueue α β).capacity)
          [] calls).2) ∧
      queue.Represents (fifoRun invalid (addBounded (DataItemQueue.create capacity : DataItemQueue α β).capacity)
        [] calls).1) ∧ (NeverExceeds invalid capacity calls →
      ((DataItemQueue.create capacity : DataItemQueue α β).run invalid calls).map Prod.snd =
        some ((DynamicDataItemQueue.create capacity).run invalid calls).2) := by
  obtain ⟨queue,hrun,hrepresents⟩ := (DataItemQueue.represents_create (α := α) (β := β) capacity).run invalid calls
  refine ⟨⟨queue,hrun,hrepresents⟩,fun hfits => ?_⟩
  rw [hrun,map_some]
  have hdynamic (calls : List (QueueCall α β)) : (DynamicDataItemQueue.create capacity).run invalid calls =
      (⟨(fifoRun invalid addUnbounded [] calls).1.map Item.toDataItem⟩,(fifoRun invalid addUnbounded [] calls).2) :=
    DynamicDataItemQueue.run_eq invalid [] calls
  rw [hdynamic,fifoRun_bounded]
  intro before after hcalls
  have hlength := hfits before after hcalls
  rw [hdynamic,length_map] at hlength
  exact hlength

example : ((DataItemQueue.create 2 : DataItemQueue Nat Bool).run (-1)
    [.push (some 5) 10,.pushType (some true) 11,.push (some 6) 12,.topTime,.popTo,.popTo,.popTo]).map Prod.snd =
      some [.done,.done,.done,.topTime 11,.popped true [.streamType (some true)],.popped true [.sample (some 6)],
        .popped false []] := by
  decide

/-- However the calls of all threads interleave: what receivers have been handed, then what is queued, was added in this
order, and each addition counts once. -/
theorem handed_out_in_order (invalid : Int) (capacity : Nat) (calls : List (QueueCall α β)) :
    ∃ (queue : DataItemQueue α β) (results : List (QueueResult α β)) (items : List (Item α β)),
      (DataItemQueue.create capacity).run invalid calls = some (queue,results) ∧ queue.Represents items ∧
      (results.flatMap QueueResult.handedOut ++ items.map Item.received).Sublist
      (calls.filterMap QueueCall.pushed) := by
  obtain ⟨queue,hrun,hrepresents⟩ := (DataItemQueue.represents_create capacity).run invalid calls
  exact ⟨queue,_,_,hrun,hrepresents,fifoRun_sublist⟩

end FepParticipant.DataRegistry
