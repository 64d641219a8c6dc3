import FepParticipant.DataRegistry.DataWriterFEP2
import FepParticipant.DataRegistry.QueueRefinement

/-! A flush transmits what was written since the last one, as long as the samples of the pool take over what is
written. -/
namespace FepParticipant.DataRegistry
open Library Transmission List Option Nat DataItemQueue PreparationDataSample DataSampleFEP2Pool DataSampleFEP2

/-- What is seen of a transmitted sample. -/
structure Transmission where
  time : Int64
  content : List UInt8
  signalHandle : Nat
  deriving DecidableEq

def Transmission.ofSample (sample : PreparationDataSample) : Transmission :=
  ⟨sample.timeStamp,sample.data,sample.signalHandle⟩

/-- The transmissions that wait in a queue; without a capacity it holds all of them. -/
def kept {ε : Type} (capacity : Option Nat) (items : List ε) : List ε := capacity.elim items (keepLast · items)

@[simp] theorem kept_nil {ε : Type} (capacity : Option Nat) : kept capacity ([] : List ε) = [] := by
  cases capacity with
  | none => rfl
  | some count => exact drop_nil

theorem map_kept {ε δ : Type} (f : ε → δ) (capacity : Option Nat) (items : List ε) :
    (kept capacity items).map f = kept capacity (items.map f) := by
  cases capacity with
  | none => rfl
  | some count => exact map_keepLast f

theorem kept_kept_append {ε : Type} (capacity : Option Nat) (items later : List ε) :
    kept capacity (kept capacity items ++ later) = kept capacity (items ++ later) := by
  cases capacity with
  | none => rfl
  | some count => exact keepLast_keepLast_append later

namespace DataItemQueue
variable {α β : Type} {queue queue' : DataItemQueue α β} {item : DataItem α β}

theorem mem_items_store {set : DataItem α β → DataItem α β} (h : queue.store set = some queue')
    (hitem : item ∈ queue'.items) : item ∈ queue.items ∨ ∃ ref, item = set ref := by
  obtain ⟨ref,-,hqueue⟩ := bind_eq_some_iff.mp h
  have hitems : queue'.items = queue.items.set (queue.wrap queue.nextWriteIdx) (set ref) := by
    dsimp only at hqueue
    split at hqueue <;> cases hqueue <;> rfl
  rw [hitems] at hitem
  rcases mem_or_eq_of_mem_set hitem with hold | rfl
  · exact .inl hold
  · exact .inr ⟨ref,rfl⟩

theorem mem_items_take {release : DataItem α β → DataItem α β} {taken : Option (DataItem α β)}
    (h : queue.take release = some (queue',taken)) (hitem : item ∈ queue'.items) :
    item ∈ queue.items ∨ ∃ ref ∈ queue.items, item = release ref := by
  unfold DataItemQueue.take at h
  split at h
  · obtain ⟨ref,href,hqueue⟩ := bind_eq_some_iff.mp h
    cases hqueue
    rcases mem_or_eq_of_mem_set hitem with hold | rfl
    · exact .inl hold
    · exact .inr ⟨ref,mem_of_getElem? href,rfl⟩
  · cases h
    exact .inl hitem

end DataItemQueue

def WriterQueueType.capacity : WriterQueueType → Nat → Option Nat
  | fixed, size => some (max 1 size)
  | dynamic, _ => none

def queuedItem (queued : DataSampleFEP2 × Int) : Item DataSampleFEP2 Unit := .sample (some queued.1) queued.2

namespace WriterQueue
variable {queue : WriterQueue} {capacity : Option Nat} {samples : List DataSampleFEP2} {sample : DataSampleFEP2}

def slots : WriterQueue → List DataSampleFEP2
  | fixed queue => queue.items.filterMap DataItem.sample
  | dynamic queue => queue.items.filterMap DataItem.sample

inductive Holds : WriterQueue → Option Nat → List DataSampleFEP2 → Prop
  | fixed {queue : DataItemQueue DataSampleFEP2 Unit} (queued : List (DataSampleFEP2 × Int))
    (represents : queue.Represents (queued.map queuedItem)) :
    Holds (fixed queue) (some queue.items.length) (queued.map Prod.fst)
  | dynamic (queued : List (DataSampleFEP2 × Int)) :
    Holds (dynamic ⟨queued.map fun entry => (queuedItem entry).toDataItem⟩) none (queued.map Prod.fst)

theorem holds_create (queueType : WriterQueueType) (size : Nat) :
    (create queueType size).Holds (queueType.capacity size) [] := by
  cases queueType with
  | fixed =>
    have hlength : (DataItemQueue.create size : DataItemQueue DataSampleFEP2 Unit).items.length = max 1 size := by
      simp only [DataItemQueue.create,length_replicate]
      split <;> omega
    rw [WriterQueueType.capacity,← hlength]
    exact .fixed [] (represents_create size)
  | dynamic => exact .dynamic []

theorem slots_create (queueType : WriterQueueType) (size : Nat) : (create queueType size).slots = [] := by
  cases queueType with
  | fixed =>
    rw [create,slots,filterMap_eq_nil_iff]
    intro item hitem
    rw [eq_of_mem_replicate hitem]
    rfl
  | dynamic => rfl

section
variable (h : queue.Holds capacity samples)
include h

theorem Holds.size : queue.size = samples.length := by
  cases h with
  | fixed queued hrepresents => rw [WriterQueue.size,hrepresents.size,length_map,length_map]
  | dynamic queued => rw [WriterQueue.size,length_map,length_map]

theorem Holds.clear : queue.clear.Holds capacity [] ∧ queue.clear.slots = [] := by
  cases h with
  | @fixed queue queued hrepresents =>
    refine ⟨?_,?_⟩
    · rw [← hrepresents.clear.1]
      exact .fixed [] hrepresents.clear.2
    · rw [WriterQueue.clear,slots,filterMap_eq_nil_iff]
      intro item hitem
      rw [eq_of_mem_replicate hitem]
      rfl
  | dynamic queued => exact ⟨.dynamic [],rfl⟩

theorem Holds.push (sample : DataSampleFEP2) (time : Int) :
    ∃ queue' : WriterQueue, queue.push sample time = some queue' ∧
      queue'.Holds capacity (kept capacity (samples ++ [sample])) ∧
      ∀ other ∈ queue'.slots, other ∈ queue.slots ∨ other = sample := by
  cases h with
  | @fixed queue queued hrepresents =>
    obtain ⟨queue',hstore,hlength,hrepresents'⟩ : ∃ queue' : DataItemQueue DataSampleFEP2 Unit,
        queue.push (some sample) time = some queue' ∧ queue'.items.length = queue.items.length ∧
          queue'.Represents (addBounded queue.items.length (queued.map queuedItem) (queuedItem (sample,time))) :=
      hrepresents.store fun _ => rfl
    refine ⟨WriterQueue.fixed queue',by rw [WriterQueue.push,hstore]; rfl,?_,?_⟩
    · rw [kept,elim_some,← hlength]
      rw [addBounded,← hlength] at hrepresents'
      have hnext : queued.map queuedItem ++ [queuedItem (sample,time)] =
          (queued ++ [(sample,time)]).map queuedItem := by
        rw [map_append]
        rfl
      have hnext' : queued.map Prod.fst ++ [sample] = (queued ++ [(sample,time)]).map Prod.fst := by
        rw [map_append]
        rfl
      rw [hnext,← map_keepLast] at hrepresents'
      rw [hnext',← map_keepLast]
      exact .fixed _ hrepresents'
    · intro other hother
      obtain ⟨item,hitem,hsample⟩ := mem_filterMap.mp hother
      rcases mem_items_store hstore hitem with hold | ⟨_,rfl⟩
      · exact .inl (mem_filterMap.mpr ⟨item,hold,hsample⟩)
      · exact .inr (some.inj hsample).symm
  | dynamic queued =>
    refine ⟨_,rfl,?_,?_⟩
    · have hnext : queued.map Prod.fst ++ [sample] = (queued ++ [(sample,time)]).map Prod.fst := by
        rw [map_append]
        rfl
      rw [kept,elim_none,hnext]
      have hholds := Holds.dynamic (queued ++ [(sample,time)])
      rw [map_append] at hholds
      exact hholds
    · intro other hother
      obtain ⟨item,hitem,hsample⟩ := mem_filterMap.mp hother
      rcases mem_append.mp hitem with hold | hnew
      · exact .inl (mem_filterMap.mpr ⟨item,hold,hsample⟩)
      · cases mem_singleton.mp hnew
        exact .inr (some.inj hsample).symm

end

theorem Holds.popTo (h : queue.Holds capacity (sample::samples)) :
    ∃ queue' : WriterQueue, queue.popTo = some (queue',[sample]) ∧ queue'.Holds capacity samples ∧
      sample ∈ queue.slots ∧ ∀ other ∈ queue'.slots, other ∈ queue.slots := by
  generalize hall : sample::samples = all at h
  cases h with
  | @fixed queue queued hrepresents =>
    cases queued with
    | nil => cases hall
    | cons entry queued =>
      cases hall
      obtain ⟨queue',htake,hlength,hrepresents'⟩ := hrepresents.take DataItem.resetReceived
      refine ⟨WriterQueue.fixed queue',by rw [WriterQueue.popTo,DataItemQueue.popTo,htake]; rfl,?_,?_,?_⟩
      · rw [← hlength]
        exact .fixed queued hrepresents'
      · exact mem_filterMap.mpr ⟨_,mem_of_getElem? hrepresents.lies.head,rfl⟩
      · intro other hother
        obtain ⟨item,hitem,hsample⟩ := mem_filterMap.mp hother
        rcases mem_items_take htake hitem with hold | ⟨ref,href,rfl⟩
        · exact mem_filterMap.mpr ⟨item,hold,hsample⟩
        · refine mem_filterMap.mpr ⟨ref,href,?_⟩
          revert hsample
          unfold DataItem.resetReceived
          split
          · intro hsample
            cases hsample
          · exact id
  | dynamic queued =>
    cases queued with
    | nil => cases hall
    | cons entry queued =>
      cases hall
      refine ⟨_,rfl,.dynamic queued,mem_cons_self,?_⟩
      intro other hother
      obtain ⟨item,hitem,hsample⟩ := mem_filterMap.mp hother
      exact mem_filterMap.mpr ⟨item,mem_cons_of_mem _ hitem,hsample⟩

theorem mem_slots_of_overwritten (h : queue.overwritten = some sample) : sample ∈ queue.slots := by
  cases queue with
  | fixed queue =>
    obtain ⟨item,hitem,hsample⟩ := bind_eq_some_iff.mp h
    exact mem_filterMap.mpr ⟨item,mem_of_getElem? hitem,hsample⟩
  | dynamic queue => cases h

end WriterQueue

def cut (preAllocatedSize : Nat) (content : List UInt8) : List UInt8 :=
  if preAllocatedSize = 0 then content else content.take preAllocatedSize

/-- The sample takes over what is written as the configured size tells: its memory can be enlarged, and cuts the
data like the size. -/
def DataSampleFEP2.TakesOver (copier : Copier) (preAllocatedSize : Nat) (sample : DataSampleFEP2) :
    Option (List UInt8) → Prop
  | none => sample.userDataSample.dataSize = 0
  | some bytes =>
    (copier sample.userDataSample.memory (bytes.take (sample.limit bytes.length))).isSome = true ∧
      sample.limit bytes.length = if preAllocatedSize = 0 then bytes.length else min preAllocatedSize bytes.length

instance (copier : Copier) (preAllocatedSize : Nat) (sample : DataSampleFEP2) :
    (data : Option (List UInt8)) → Decidable (sample.TakesOver copier preAllocatedSize data)
  | none => inferInstanceAs (Decidable (_ = _))
  | some _ => inferInstanceAs (Decidable (_ ∧ _))

def Transmission.delay (transmission : Transmission) (cycleTime : Int64) : Transmission :=
  {transmission with time := transmission.time + cycleTime}

/-- A writer with what was written since the last flush, as it should be transmitted, and what all flushes should
have and have transmitted. -/
structure WriterHistory where
  writer : DataWriterFEP2
  written : List Transmission
  due : List Transmission
  transmitted : List Transmission

inductive WriterAction where
  | init (allocate : Nat → Allocator) (signalHandle : Nat)
  | deinit
  | write (copier : Copier) (sampleToWrite : WrittenSample) (time : Int64) (timeOfReceiving : Int)
  | flush
  | flushFEP22Compatible (cycleTime : Int64)

namespace WriterHistory

def new (queueType : WriterQueueType) (samplePoolInitSize preAllocatedSize : Nat) : WriterHistory :=
  ⟨.new queueType samplePoolInitSize preAllocatedSize,[],[],[]⟩

def expected (history : WriterHistory) (sampleToWrite : WrittenSample) (time : Int64) : Transmission where
  time := if sampleToWrite.time = invalidTimestamp then time else sampleToWrite.time
  content := cut history.writer.preAllocatedSize (sampleToWrite.data.getD [])
  signalHandle := history.writer.signalHandle

def flushed (history : WriterHistory) (due : List Transmission) :
    DataWriterFEP2 × List PreparationDataSample → WriterHistory
  | (writer,transmitted) =>
    ⟨writer,[],history.due ++ due,history.transmitted ++ transmitted.map Transmission.ofSample⟩

/-- `capacity` is the number of samples that the queue should keep. -/
def step (capacity : Option Nat) (history : WriterHistory) : WriterAction → Option WriterHistory
  | .init allocate signalHandle => some {history with writer := history.writer.init allocate signalHandle}
  | .deinit => some {history with writer := history.writer.deinit, written := []}
  | .write copier sampleToWrite time timeOfReceiving =>
    (history.writer.write copier sampleToWrite time timeOfReceiving).map fun (writer,result) =>
      { history with
        writer := writer
        written := if isOk result then history.written ++ [history.expected sampleToWrite time] else history.written }
  | .flush => history.writer.flush.map (history.flushed (kept capacity history.written))
  | .flushFEP22Compatible cycleTime => (history.writer.flushFEP22Compatible cycleTime).map
      (history.flushed ((kept capacity history.written).map fun transmission => transmission.delay cycleTime))

/-- The writer is initialised once at a time, and the pool hands out a sample that takes over what is written. -/
def TakesOver (history : WriterHistory) : WriterAction → Prop
  | .init _ _ => history.writer.initialised = false
  | .write copier sampleToWrite _ _ =>
    ∀ sample ∈ (history.writer.reusedSamplePool.getFEP2Sample history.writer.signalHandle).2,
      sample.TakesOver copier history.writer.preAllocatedSize sampleToWrite.data
  | .deinit | .flush | .flushFEP22Compatible _ => True

end WriterHistory

namespace DataSampleFEP2
variable {copier : Copier} {sample : DataSampleFEP2} {time : Int64} {data : Option (List UInt8)}

@[simp] theorem signalHandle_setTime :
    (sample.setTime time).userDataSample.signalHandle = sample.userDataSample.signalHandle := rfl

@[simp] theorem signalHandle_set :
    (sample.set copier data).userDataSample.signalHandle = sample.userDataSample.signalHandle :=
  signalHandle_copyFrom

private theorem data_set {preAllocatedSize : Nat} (h : sample.TakesOver copier preAllocatedSize data) :
    (sample.set copier data).userDataSample.data = cut preAllocatedSize (data.getD []) := by
  cases data with
  | none =>
    rw [getD_none,cut,List.take_nil,ite_self]
    exact data_eq_nil h
  | some bytes =>
    obtain ⟨hcopied,hlimit⟩ := h
    have hdata : (sample.set copier (some bytes)).userDataSample.data = bytes.take (sample.limit bytes.length) :=
      data_copyFrom hcopied
    rw [hdata,getD_some,cut,hlimit]
    split
    · exact take_length
    · rw [take_eq_take_iff]
      omega

theorem ofSample_assign {preAllocatedSize : Nat} {other : WrittenSample}
    (h : sample.TakesOver copier preAllocatedSize other.data) :
    Transmission.ofSample (sample.assign copier other).userDataSample =
      ⟨other.time,cut preAllocatedSize (other.data.getD []),sample.userDataSample.signalHandle⟩ := by
  have htimed : (sample.setTime other.time).TakesOver copier preAllocatedSize other.data := h
  rw [Transmission.ofSample,assign,data_set htimed,signalHandle_set,signalHandle_setTime]
  congr 1
  exact timeStamp_copyFrom

end DataSampleFEP2

namespace DataSampleFEP2Pool
variable {pool : DataSampleFEP2Pool} {sample other : DataSampleFEP2} {signalHandle : Nat}

theorem userDataAccess_release : (pool.release sample).userDataAccess = pool.userDataAccess := by
  unfold release
  split <;> rfl

private theorem mem_release (h : other ∈ (pool.release sample).pooledSamples) :
    other ∈ pool.pooledSamples ∨ other = sample := by
  unfold release at h
  split at h
  · exact (mem_cons.mp h).symm
  · exact .inl h

def HasHandle (pool : DataSampleFEP2Pool) (signalHandle : Nat) : Prop :=
  ∀ sample ∈ pool.pooledSamples, sample.userDataSample.signalHandle = signalHandle

section
variable (h : pool.HasHandle signalHandle)
include h

theorem HasHandle.release
    (hsample : sample.userDataSample.signalHandle = signalHandle) : (pool.release sample).HasHandle signalHandle := by
  intro other hother
  rcases mem_release hother with hold | rfl
  · exact h other hold
  · exact hsample

theorem HasHandle.getFEP2Sample (hsample : (pool.getFEP2Sample signalHandle).2 = some sample) :
    sample.userDataSample.signalHandle = signalHandle := by
  unfold DataSampleFEP2Pool.getFEP2Sample at hsample
  split at hsample
  · rename_i first samples hpool
    cases hsample
    exact h _ (hpool ▸ mem_cons_self)
  · dsimp only at hsample
    split at hsample
    · cases hsample
      by_cases hnull : signalHandle = 0
      · rw [hnull]
        rfl
      · simp only [fallbackSample,if_pos hnull,PreparationDataSample.setSignalHandle]
    · cases hsample

theorem HasHandle.rest : (pool.getFEP2Sample signalHandle).1.HasHandle signalHandle := by
  unfold DataSampleFEP2Pool.getFEP2Sample
  split
  · rename_i first samples hpool
    exact fun other hother => h other (hpool ▸ mem_cons_of_mem _ hother)
  · exact h

end

theorem userDataAccess_getFEP2Sample : (pool.getFEP2Sample signalHandle).1.userDataAccess = pool.userDataAccess := by
  unfold DataSampleFEP2Pool.getFEP2Sample
  split <;> rfl

theorem hasHandle_init (allocate : Nat → Allocator) (poolSize preAllocSize : Nat) (h : pool.pooledSamples = []) :
    (pool.init allocate poolSize preAllocSize signalHandle).HasHandle signalHandle := by
  intro sample hsample
  rw [init,h,append_nil,mem_reverse] at hsample
  obtain ⟨idx,-,rfl⟩ := mem_map.mp hsample
  exact signalHandle_setSize

end DataSampleFEP2Pool

namespace DataWriterFEP2
variable {writer : DataWriterFEP2} {capacity : Option Nat} {samples : List DataSampleFEP2}

/-- The samples of a writer have its signal handle; without a signal it has none. -/
structure Sound (writer : DataWriterFEP2) : Prop where
  access : writer.reusedSamplePool.userDataAccess = writer.initialised
  idle : writer.initialised = false → writer.reusedSamplePool.pooledSamples = [] ∧ writer.queue.slots = []
  pool : writer.reusedSamplePool.HasHandle writer.signalHandle
  queue : ∀ sample ∈ writer.queue.slots, sample.userDataSample.signalHandle = writer.signalHandle

theorem Sound.initialised_of_mem {sample : DataSampleFEP2} (h : writer.Sound) (hmem : sample ∈ writer.queue.slots) :
    writer.initialised = true := by
  by_contra hidle
  rw [Bool.not_eq_true] at hidle
  rw [(h.idle hidle).2] at hmem
  cases hmem

/-- A flush transmits the samples of the queue in their order, leaves it empty and keeps what each of its rounds
keeps. -/
theorem flushLoop_of_holds (onReceive : DataSampleFEP2 → DataSampleFEP2) (inv : DataWriterFEP2 → Prop)
    (hround : ∀ (writer : DataWriterFEP2) (queue : WriterQueue), ∀ sample ∈ writer.queue.slots,
      (∀ other ∈ queue.slots, other ∈ writer.queue.slots) → inv writer →
      inv {writer with queue := queue, reusedSamplePool := writer.reusedSamplePool.release (onReceive sample)})
    (h : inv writer) (hholds : writer.queue.Holds capacity samples) {fuel : Nat} (hfuel : samples.length < fuel) :
    ∃ writer' : DataWriterFEP2,
      flushLoop onReceive fuel writer = some (writer',samples.map fun sample => (onReceive sample).userDataSample) ∧
      inv writer' ∧ writer'.queue.Holds capacity [] := by
  induction fuel generalizing writer samples with
  | zero => exact absurd hfuel (not_lt_zero _)
  | succ fuel ih =>
    rw [DataWriterFEP2.flushLoop,hholds.size]
    cases samples with
    | nil => exact ⟨writer,if_neg (lt_irrefl 0),h,hholds⟩
    | cons sample samples =>
      obtain ⟨queue,hpop,hholds',hmem,hslots⟩ := hholds.popTo
      obtain ⟨writer',hloop,hinv,hempty⟩ :=
        ih (hround writer queue sample hmem hslots h) hholds' (lt_of_succ_lt_succ hfuel)
      refine ⟨writer',?_,hinv,hempty⟩
      have hloop' : DataWriterFEP2.flushLoop onReceive fuel { writer with
          queue := queue
          reusedSamplePool := [onReceive sample].foldl DataSampleFEP2Pool.release writer.reusedSamplePool } = _ := hloop
      rw [hpop]
      simp only [bind_eq_bind,bind_some,map_cons,map_nil,hloop']
      rfl

theorem Sound.flushLoop {onReceive : DataSampleFEP2 → DataSampleFEP2}
    (hhandle : ∀ sample, (onReceive sample).userDataSample.signalHandle = sample.userDataSample.signalHandle)
    (h : writer.Sound) (hholds : writer.queue.Holds capacity samples) {fuel : Nat} (hfuel : samples.length < fuel) :
    ∃ writer' : DataWriterFEP2,
      flushLoop onReceive fuel writer = some (writer',samples.map fun sample => (onReceive sample).userDataSample) ∧
      writer'.Sound ∧ writer'.queue.Holds capacity [] := by
  refine flushLoop_of_holds onReceive Sound (fun writer queue sample hmem hslots h => ?_) h hholds hfuel
  have hinitialised := h.initialised_of_mem hmem
  exact {
    access := userDataAccess_release.trans h.access
    idle := fun hidle => absurd (hinitialised.symm.trans hidle) Bool.true_eq_false.mp
    pool := h.pool.release ((hhandle sample).trans (h.queue sample hmem))
    queue := fun other hother => h.queue other (hslots other hother) }

def queuedSample (copier : Copier) (sampleToWrite : WrittenSample) (time : Int64) (sample : DataSampleFEP2) :
    DataSampleFEP2 :=
  if sampleToWrite.time = invalidTimestamp then (sample.assign copier sampleToWrite).setTime time
  else sample.assign copier sampleToWrite

theorem write_of_holds {copier : Copier} {sampleToWrite : WrittenSample}
    (hholds : writer.queue.Holds capacity samples) (time : Int64) (timeOfReceiving : Int) :
    (writer.reusedSamplePool.getFEP2Sample writer.signalHandle).2 = none ∧
      writer.write copier sampleToWrite time timeOfReceiving = some (writer,.errPointer) ∨
    ∃ pool sample queue, writer.reusedSamplePool.getFEP2Sample writer.signalHandle = (pool,some sample) ∧
      writer.write copier sampleToWrite time timeOfReceiving = some ({ writer with
        reusedSamplePool := writer.queue.overwritten.elim pool pool.release
        queue := queue },.errNoError) ∧
      queue.Holds capacity (kept capacity (samples ++ [queuedSample copier sampleToWrite time sample])) ∧
      ∀ other ∈ queue.slots, other ∈ writer.queue.slots ∨ other = queuedSample copier sampleToWrite time sample := by
  unfold DataWriterFEP2.write
  rcases hpool : writer.reusedSamplePool.getFEP2Sample writer.signalHandle with ⟨pool,_ | sample⟩
  · exact .inl ⟨rfl,rfl⟩
  · obtain ⟨queue,hpush,hholds',hslots⟩ := hholds.push (queuedSample copier sampleToWrite time sample) timeOfReceiving
    refine .inr ⟨pool,sample,queue,rfl,?_,hholds',hslots⟩
    rw [queuedSample] at hpush
    dsimp only
    rw [hpush]
    rfl

theorem Sound.write {copier : Copier} {sampleToWrite : WrittenSample} (h : writer.Sound)
    (hholds : writer.queue.Holds capacity samples) (time : Int64) (timeOfReceiving : Int) :
    writer.write copier sampleToWrite time timeOfReceiving = some (writer,.errPointer) ∨
    ∃ sample ∈ (writer.reusedSamplePool.getFEP2Sample writer.signalHandle).2, ∃ writer' : DataWriterFEP2,
      writer.write copier sampleToWrite time timeOfReceiving = some (writer',.errNoError) ∧ writer'.Sound ∧
      sample.userDataSample.signalHandle = writer.signalHandle ∧
      writer'.queue.Holds capacity (kept capacity (samples ++ [queuedSample copier sampleToWrite time sample])) := by
  rcases write_of_holds hholds time timeOfReceiving with
    ⟨-,hrefused⟩ | ⟨pool,sample,queue,hpool,hwrite,hholds',hslots⟩
  · exact .inl hrefused
  · have hrest := h.pool.rest
    have haccess := (@userDataAccess_getFEP2Sample writer.reusedSamplePool writer.signalHandle).trans
      h.access
    have hidle : writer.initialised = false → (writer.reusedSamplePool.getFEP2Sample writer.signalHandle).2 = none := by
      intro hidle
      have haccess := h.access
      rw [hidle] at haccess
      rw [DataSampleFEP2Pool.getFEP2Sample,(h.idle hidle).1,haccess]
      rfl
    have hsample : sample.userDataSample.signalHandle = writer.signalHandle :=
      h.pool.getFEP2Sample (congrArg Prod.snd hpool)
    rw [hpool] at hrest haccess hidle
    have hinitialised : writer.initialised = true := by
      by_contra hnot
      cases hidle (Bool.eq_false_iff.mpr hnot)
    have hqueuedHandle :
        (queuedSample copier sampleToWrite time sample).userDataSample.signalHandle = writer.signalHandle := by
      rw [queuedSample,apply_ite (fun queued : DataSampleFEP2 => queued.userDataSample.signalHandle),
        signalHandle_setTime,ite_self,DataSampleFEP2.assign,signalHandle_set,
        signalHandle_setTime,hsample]
    refine .inr ⟨sample,congrArg Prod.snd hpool,_,hwrite,?_,hsample,hholds'⟩
    -- the sample that was in the slot goes back to the pool
    have hreleased : (writer.queue.overwritten.elim pool pool.release).HasHandle writer.signalHandle ∧
        (writer.queue.overwritten.elim pool pool.release).userDataAccess = pool.userDataAccess := by
      rcases hover : writer.queue.overwritten with _ | overwritten
      · exact ⟨hrest,rfl⟩
      · exact ⟨hrest.release (h.queue overwritten (WriterQueue.mem_slots_of_overwritten hover)),
          userDataAccess_release⟩
    exact {
      access := hreleased.2.trans haccess
      idle := fun hidle => absurd (hinitialised.symm.trans hidle) Bool.true_eq_false.mp
      pool := hreleased.1
      queue := by
        intro other hother
        rcases hslots other hother with hold | rfl
        · exact h.queue other hold
        · exact hqueuedHandle }

theorem Sound.init (h : writer.Sound) (hidle : writer.initialised = false) (allocate : Nat → Allocator)
    (signalHandle : Nat) : (writer.init allocate signalHandle).Sound where
  access := rfl
  idle hidle' := absurd hidle' Bool.true_eq_false.mp
  pool := hasHandle_init allocate _ _ (h.idle hidle).1
  queue sample hsample := by
    have hslots : writer.queue.slots = [] := (h.idle hidle).2
    rw [DataWriterFEP2.init,hslots] at hsample
    cases hsample

theorem sound_deinit (hholds : writer.queue.Holds capacity samples) : writer.deinit.Sound where
  access := rfl
  idle _ := ⟨rfl,hholds.clear.2⟩
  pool sample hsample := by cases hsample
  queue sample hsample := by
    rw [DataWriterFEP2.deinit,hholds.clear.2] at hsample
    cases hsample

end DataWriterFEP2

namespace WriterHistory
variable {history history' : WriterHistory} {capacity : Option Nat} {action : WriterAction}
  {queueType : WriterQueueType} {samplePoolInitSize preAllocatedSize : Nat}

/-- The queue of a sound writer holds what was written, and all that was due was transmitted. -/
structure Inv (capacity : Option Nat) (history : WriterHistory) : Prop where
  sound : history.writer.Sound
  holds : ∃ samples, history.writer.queue.Holds capacity samples ∧
    samples.map (fun sample => Transmission.ofSample sample.userDataSample) = kept capacity history.written
  transmitted : history.transmitted = history.due

theorem inv_new : (new queueType samplePoolInitSize preAllocatedSize).Inv (queueType.capacity samplePoolInitSize) where
  sound := {
    access := rfl
    idle := fun _ => ⟨rfl,WriterQueue.slots_create _ _⟩
    pool := fun sample hsample => by cases hsample
    queue := fun sample hsample => by
      rw [new,DataWriterFEP2.new,WriterQueue.slots_create] at hsample
      cases hsample }
  holds := ⟨[],WriterQueue.holds_create _ _,(kept_nil _).symm⟩
  transmitted := rfl

private theorem flushed_flushLoop (onReceive : DataSampleFEP2 → DataSampleFEP2) (seen : Transmission → Transmission)
    (hseen : ∀ sample : DataSampleFEP2, Transmission.ofSample (onReceive sample).userDataSample =
      seen (Transmission.ofSample sample.userDataSample))
    (hhandle : ∀ sample, (onReceive sample).userDataSample.signalHandle = sample.userDataSample.signalHandle)
    (h : history.Inv capacity) :
    ∃ history', (DataWriterFEP2.flushLoop onReceive (history.writer.queue.size + 1) history.writer).map
        (history.flushed ((kept capacity history.written).map seen)) = some history' ∧ history'.Inv capacity := by
  obtain ⟨samples,hholds,hwritten⟩ := h.holds
  obtain ⟨writer,hloop,hsound,hempty⟩ :=
    h.sound.flushLoop hhandle hholds (lt_succ_of_le (le_of_eq hholds.size.symm))
  rw [hloop]
  refine ⟨_,rfl,hsound,⟨[],hempty,(kept_nil _).symm⟩,?_⟩
  have hsame : (samples.map fun sample => (onReceive sample).userDataSample).map Transmission.ofSample =
      (kept capacity history.written).map seen := by
    rw [← hwritten,List.map_map,List.map_map]
    exact map_congr_left fun sample _ => hseen sample
  show history.transmitted ++ _ = history.due ++ _
  rw [h.transmitted,hsame]

theorem inv_step (h : history.Inv capacity) (htakes : history.TakesOver action) :
    ∃ history', step capacity history action = some history' ∧ history'.Inv capacity := by
  obtain ⟨samples,hholds,hwritten⟩ := h.holds
  cases action with
  | init allocate signalHandle =>
    exact ⟨_,rfl,h.sound.init htakes allocate signalHandle,⟨samples,hholds,hwritten⟩,h.transmitted⟩
  | deinit =>
    exact ⟨_,rfl,DataWriterFEP2.sound_deinit hholds,⟨[],hholds.clear.1,(kept_nil _).symm⟩,h.transmitted⟩
  | write copier sampleToWrite time timeOfReceiving =>
    rw [step]
    rcases h.sound.write hholds time timeOfReceiving with
      hrefused | ⟨sample,hsample,writer',hwrite,hsound,hhandle,hholds'⟩
    · rw [hrefused]
      exact ⟨_,rfl,h.sound,⟨samples,hholds,hwritten⟩,h.transmitted⟩
    · rw [hwrite]
      refine ⟨_,rfl,hsound,⟨_,hholds',?_⟩,h.transmitted⟩
      have hassigned := ofSample_assign (htakes sample hsample)
      have hqueued :
          Transmission.ofSample (DataWriterFEP2.queuedSample copier sampleToWrite time sample).userDataSample =
            history.expected sampleToWrite time := by
        rw [DataWriterFEP2.queuedSample]
        by_cases hinvalid : sampleToWrite.time = invalidTimestamp
        · rw [if_pos hinvalid,expected,if_pos hinvalid,← hhandle]
          exact congrArg (fun seen : Transmission => {seen with time := time}) hassigned
        · rw [if_neg hinvalid,expected,if_neg hinvalid,← hhandle]
          exact hassigned
      rw [map_kept,map_append,hwritten,map_singleton,hqueued]
      exact kept_kept_append ..
  | flush =>
    obtain ⟨history',hflushed,hinv⟩ := flushed_flushLoop id id (fun _ => rfl) (fun _ => rfl) h
    rw [List.map_id] at hflushed
    exact ⟨history',hflushed,hinv⟩
  | flushFEP22Compatible cycleTime =>
    exact flushed_flushLoop _ (fun transmission => transmission.delay cycleTime) (fun _ => rfl) (fun _ => rfl) h

/-- In every run in which the pool samples take over what is written, a flush transmits what was written since the
last one, as far as the queue keeps it, and no call gets stuck. -/
theorem flushes_transmit_written (h : Reaches (step (queueType.capacity samplePoolInitSize)) TakesOver
      (new queueType samplePoolInitSize preAllocatedSize) history) :
    history.transmitted = history.due ∧ ∀ action, history.TakesOver action →
      (step (queueType.capacity samplePoolInitSize) history action).isSome = true := by
  have hinv : history.Inv (queueType.capacity samplePoolInitSize) := by
    refine h.invariant inv_new fun _ _ _ hinv htakes hstep => ?_
    obtain ⟨next,hnext,hinv'⟩ := inv_step hinv htakes
    cases hstep.symm.trans hnext
    exact hinv'
  refine ⟨hinv.transmitted,fun action htakes => ?_⟩
  obtain ⟨next,hnext,-⟩ := inv_step hinv htakes
  rw [hnext]
  rfl

instance (history : WriterHistory) (action : WriterAction) : Decidable (history.TakesOver action) :=
  match action with
  | .init _ _ => inferInstanceAs (Decidable (_ = _))
  | .write .. => inferInstanceAs (Decidable
      (∀ sample ∈ (history.writer.reusedSamplePool.getFEP2Sample history.writer.signalHandle).2, _))
  | .deinit | .flush | .flushFEP22Compatible _ => inferInstanceAs (Decidable True)

/-- There is always enough memory; a larger buffer is not made smaller. -/
def copyAll : Copier := fun memory source => some ⟨source ++ memory.drop source.length,prefix_append ..⟩

def zeros (_ : Nat) : Allocator := fun size => some ⟨List.replicate size 0,length_replicate⟩

/-- Two samples are written to a queue that keeps one, and cut to two bytes as long as the pool has its sample. -/
theorem flush_transmits_last : ∃ history : WriterHistory,
    Reaches (step (WriterQueueType.fixed.capacity 1)) TakesOver (new .fixed 1 2) history ∧
      history.transmitted = history.due ∧ history.transmitted = [⟨5,[1,2],7⟩,⟨25,[3],7⟩] := by
  obtain ⟨history,hreach,htransmitted⟩ : ∃ history,
      Reaches (step (WriterQueueType.fixed.capacity 1)) TakesOver (new .fixed 1 2) history ∧
      history.transmitted = [⟨5,[1,2],7⟩,⟨25,[3],7⟩] :=
    exists_of_runAllowed [.init zeros 7,.write copyAll ⟨5,some [1,2,3]⟩ 0 0,.flush,
      .write copyAll ⟨0,some [2]⟩ 0 0,.write copyAll ⟨invalidTimestamp,some [3]⟩ 15 15,.flushFEP22Compatible 10]
      (by decide +kernel)
  exact ⟨history,hreach,(flushes_transmit_written hreach).1,htransmitted⟩

/-- The second sample since the last flush is not cut, since the pool has none of the configured size left. -/
theorem second_sample_not_cut : ∃ history : WriterHistory,
    runActions (step (WriterQueueType.fixed.capacity 1)) (new .fixed 1 2)
        [.init zeros 7,.write copyAll ⟨5,some [1,2,3]⟩ 0 0,.write copyAll ⟨6,some [4,5,6]⟩ 0 0,.flush] =
      some history ∧ history.transmitted ≠ history.due := by
  let run := runActions (step (WriterQueueType.fixed.capacity 1)) (new .fixed 1 2)
    [.init zeros 7,.write copyAll ⟨5,some [1,2,3]⟩ 0 0,.write copyAll ⟨6,some [4,5,6]⟩ 0 0,.flush]
  have hdiffer : run.any (fun history => decide (history.transmitted ≠ history.due)) = true := by decide +kernel
  obtain ⟨history,hrun,hdiffer⟩ := (any_eq_true _ _).mp hdiffer
  exact ⟨history,hrun,of_decide_eq_true hdiffer⟩

end WriterHistory
end FepParticipant.DataRegistry
