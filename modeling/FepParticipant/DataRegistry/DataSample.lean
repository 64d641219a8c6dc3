import FepParticipant.Transmission.Transmitter

/-! The data sample with a buffer of its own, and what happens to it in any sequence of calls. -/
namespace FepParticipant.DataRegistry
open Library Transmission List Option Nat

/-- `DataSample`; the size is a member apart from the buffer. -/
structure DataSample where
  fixedSize : Bool
  time : Int64
  counter : UInt32
  currentSize : Nat
  buffer : List UInt8

/-- The members that a constructor leaves as they are. -/
structure Uninitialised where
  fixedSize : Bool
  time : Int64
  counter : UInt32
  currentSize : Nat

/-- The buffer after `a_util::memory::copy`, whose result is dropped. -/
def copyInto (copier : Copier) (buffer data : List UInt8) : List UInt8 := (copier buffer data).elim buffer Subtype.val

namespace DataSample

def new : DataSample := ⟨false,0,0,0,[]⟩

/-- The constructor with a capacity, with what the buffer holds. -/
def preAllocated (buffer : List UInt8) (fixedSize : Bool) : DataSample := ⟨fixedSize,0,0,0,buffer⟩

def capacity (sample : DataSample) : Nat := sample.buffer.length

def setTime (sample : DataSample) (time : Int64) : DataSample := {sample with time := time}

def setCounter (sample : DataSample) (counter : UInt32) : DataSample := {sample with counter := counter}

def taken (sample : DataSample) (data : List UInt8) : List UInt8 :=
  if sample.fixedSize ∧ sample.capacity < data.length then data.take sample.capacity else data

def set (copier : Copier) (sample : DataSample) (data : List UInt8) : DataSample :=
  { sample with
    buffer := copyInto copier sample.buffer (sample.taken data)
    currentSize := (sample.taken data).length }

def write (copier : Copier) (sample : DataSample) (data : List UInt8) : DataSample := sample.set copier data

def update (copier : Copier) (sample : DataSample) (time : Int64) (counter : UInt32) (data : List UInt8) : DataSample :=
  ((sample.setTime time).setCounter counter).write copier data

/-- `resize` changes the size only. -/
def resize (sample : DataSample) (dataSize : Nat) : DataSample :=
  { sample with
    currentSize := if sample.fixedSize ∧ sample.capacity < dataSize then sample.capacity else dataSize }

/-- What `read` hands on; none if it reads beyond the buffer. -/
def read (sample : DataSample) : Option (List UInt8) :=
  if sample.currentSize ≤ sample.buffer.length then some (sample.buffer.take sample.currentSize) else none

def fromMemory (copier : Copier) (uninitialised : Uninitialised) (time : Int64) (counter : UInt32)
    (data : List UInt8) : DataSample :=
  (⟨false,time,counter,uninitialised.currentSize,[]⟩ : DataSample).write copier data

def copyConstruct (copier : Copier) (other : DataSample) (uninitialised : Uninitialised) : Option DataSample :=
  other.read.map
    ((⟨false,other.time,other.counter,uninitialised.currentSize,[]⟩ : DataSample).set copier)

def copyAssign (copier : Copier) (sample other : DataSample) : Option DataSample :=
  other.read.map (((sample.setTime other.time).setCounter other.counter).set copier)

/-- The move assignment: the two samples after it. The times are swapped twice, the counters and sizes not at all. -/
def moveAssign (sample other : DataSample) : DataSample × DataSample :=
  ({sample with fixedSize := other.fixedSize, buffer := other.buffer},
    {other with fixedSize := sample.fixedSize, buffer := sample.buffer})

def moveConstruct (other : DataSample) (uninitialised : Uninitialised) : DataSample × DataSample :=
  moveAssign ⟨uninitialised.fixedSize,uninitialised.time,uninitialised.counter,uninitialised.currentSize,[]⟩ other

end DataSample

/-- The calls on samples, which are numbered in the order of their construction. -/
inductive SampleAction where
  | new
  | preAllocated (buffer : List UInt8) (fixedSize : Bool)
  | fromMemory (copier : Copier) (uninitialised : Uninitialised) (time : Int64) (counter : UInt32) (data : List UInt8)
  | copyConstruct (copier : Copier) (uninitialised : Uninitialised) (other : Nat)
  | moveConstruct (uninitialised : Uninitialised) (other : Nat)
  | copyAssign (copier : Copier) (target other : Nat)
  | moveAssign (target other : Nat)
  | set (copier : Copier) (target : Nat) (data : List UInt8)
  | write (copier : Copier) (target : Nat) (data : List UInt8)
  | update (copier : Copier) (target : Nat) (time : Int64) (counter : UInt32) (data : List UInt8)
  | resize (target dataSize : Nat)
  | setTime (target : Nat) (time : Int64)
  | setCounter (target : Nat) (counter : UInt32)

structure DataSamples where
  samples : List DataSample

namespace DataSamples

def change (heap : DataSamples) (target : Nat) (call : DataSample → Option DataSample) : Option DataSamples := do
  let sample ← heap.samples[target]?
  let sample ← call sample
  return ⟨heap.samples.set target sample⟩

def step (heap : DataSamples) : SampleAction → Option DataSamples
  | .new => some ⟨heap.samples ++ [.new]⟩
  | .preAllocated buffer fixedSize => some ⟨heap.samples ++ [.preAllocated buffer fixedSize]⟩
  | .fromMemory copier uninitialised time counter data =>
    some ⟨heap.samples ++ [.fromMemory copier uninitialised time counter data]⟩
  | .copyConstruct copier uninitialised other => do
    let source ← heap.samples[other]?
    let sample ← source.copyConstruct copier uninitialised
    return ⟨heap.samples ++ [sample]⟩
  | .moveConstruct uninitialised other => do
    let source ← heap.samples[other]?
    let (sample,moved) := source.moveConstruct uninitialised
    return ⟨heap.samples.set other moved ++ [sample]⟩
  | .copyAssign copier target other => do
    let source ← heap.samples[other]?
    heap.change target fun sample => sample.copyAssign copier source
  | .moveAssign target other => do
    let source ← heap.samples[other]?
    let sample ← heap.samples[target]?
    -- nothing is changed when a sample is assigned to itself
    if target = other then return heap
    let (sample,moved) := sample.moveAssign source
    return ⟨(heap.samples.set other moved).set target sample⟩
  | .set copier target data => heap.change target fun sample => some (sample.set copier data)
  | .write copier target data => heap.change target fun sample => some (sample.write copier data)
  | .update copier target time counter data =>
    heap.change target fun sample => some (sample.update copier time counter data)
  | .resize target dataSize => heap.change target fun sample => some (sample.resize dataSize)
  | .setTime target time => heap.change target fun sample => some (sample.setTime time)
  | .setCounter target counter => heap.change target fun sample => some (sample.setCounter counter)

end DataSamples

namespace DataSample
variable {copier : Copier} {sample source : DataSample} {data : List UInt8}

def Fits (sample : DataSample) : Prop := sample.currentSize ≤ sample.buffer.length

def content (sample : DataSample) : List UInt8 := sample.buffer.take sample.currentSize

structure SameValue (sample source : DataSample) : Prop where
  time : sample.time = source.time
  counter : sample.counter = source.counter
  size : sample.currentSize = source.currentSize
  content : sample.content = source.content

theorem read_of_fits (h : sample.Fits) : sample.read = some sample.content := if_pos h

theorem length_content (h : sample.Fits) : sample.content.length = sample.currentSize := by
  rw [content,length_take,min_eq_left h]

theorem taken_of_not_fixed (h : sample.fixedSize = false) : sample.taken data = data :=
  if_neg fun hboth => Bool.false_ne_true (h.symm.trans hboth.1)

theorem taken_eq_take :
    sample.taken data = data.take (if sample.fixedSize then min data.length sample.capacity else data.length) := by
  cases hfixed : sample.fixedSize with
  | false => rw [taken_of_not_fixed hfixed,if_neg Bool.false_ne_true,take_length]
  | true =>
    rw [taken,hfixed,if_pos rfl]
    by_cases hlong : sample.capacity < data.length
    · rw [if_pos ⟨rfl,hlong⟩,min_eq_right (le_of_lt hlong)]
    · rw [if_neg fun hboth => hlong hboth.2,min_eq_left (not_lt.mp hlong),take_length]

theorem content_set_iff : ((sample.set copier data).Fits ∧ (sample.set copier data).content = sample.taken data) ↔
    sample.taken data <+: copyInto copier sample.buffer (sample.taken data) := by
  rw [prefix_iff_eq_take]
  constructor
  · exact fun h => h.2.symm
  · intro h
    refine ⟨?_,h.symm⟩
    have hlength := congrArg List.length h
    rw [length_take] at hlength
    show (sample.taken data).length ≤ (copyInto copier sample.buffer (sample.taken data)).length
    omega

theorem sameValue_set_iff (hfixed : sample.fixedSize = false) (hsource : source.Fits)
    (htime : sample.time = source.time) (hcounter : sample.counter = source.counter) :
    ((sample.set copier source.content).Fits ∧ (sample.set copier source.content).SameValue source) ↔
      source.content <+: copyInto copier sample.buffer source.content := by
  have htaken : sample.taken source.content = source.content := taken_of_not_fixed hfixed
  have hset := @content_set_iff copier sample source.content
  rw [htaken] at hset
  rw [← hset]
  constructor
  · exact fun h => ⟨h.1,h.2.content⟩
  · intro h
    refine ⟨h.1,htime,hcounter,?_,h.2⟩
    rw [← length_content h.1,h.2,length_content hsource]

theorem prefix_copyInto_nil_iff :
    data.length ≤ (copyInto copier [] data).length ↔ data <+: copyInto copier [] data := by
  rw [copyInto]
  cases copier [] data with
  | none => exact le_zero.trans (length_eq_zero_iff.trans prefix_nil.symm)
  | some copied => exact iff_of_true copied.property.length_le copied.property

theorem fits_set_of_fixed (hfixed : sample.fixedSize = true) : (sample.set copier data).Fits := by
  have htaken : (sample.taken data).length ≤ sample.buffer.length := by
    rw [taken]
    split
    · rw [length_take]
      exact min_le_left ..
    · rename_i hshort
      exact not_lt.mp fun hlong => hshort ⟨hfixed,hlong⟩
  show (sample.taken data).length ≤ (copyInto copier sample.buffer (sample.taken data)).length
  rw [copyInto]
  cases copier sample.buffer (sample.taken data) with
  | none => exact htaken
  | some copied => exact copied.property.length_le

theorem fits_resize_iff (dataSize : Nat) :
    (sample.resize dataSize).Fits ↔ sample.fixedSize = true ∨ dataSize ≤ sample.buffer.length := by
  show (if _ then _ else _) ≤ sample.buffer.length ↔ _
  cases hfixed : sample.fixedSize with
  | false => simp
  | true =>
    simp only [true_and,true_or,iff_true]
    split
    · exact le_refl _
    · rename_i hshort
      exact not_lt.mp hshort

theorem sameValue_moved_iff : (sample.moveAssign source).1.SameValue source ↔
    sample.time = source.time ∧ sample.counter = source.counter ∧ sample.currentSize = source.currentSize := by
  constructor
  · exact fun h => ⟨h.time,h.counter,h.size⟩
  · rintro ⟨htime,hcounter,hsize⟩
    refine ⟨htime,hcounter,hsize,?_⟩
    show source.buffer.take sample.currentSize = source.buffer.take source.currentSize
    rw [hsize]

end DataSample

namespace DataSamples
variable {heap heap' : DataSamples} {target other : Nat} {action : SampleAction}
variable {sample : DataSample} {after : DataSample}

/-- No sample claims more bytes than it has. -/
def Inv (heap : DataSamples) : Prop := ∀ sample ∈ heap.samples, sample.Fits

/-- The value a call has to give to a sample. -/
def Outcome (heap heap' : DataSamples) : SampleAction → Prop
  | .set _ target data | .write _ target data | .update _ target _ _ data =>
    ∀ sample ∈ heap.samples[target]?, ∃ after ∈ heap'.samples[target]?,
      after.content = data.take (if sample.fixedSize then min data.length sample.capacity else data.length)
  | .copyConstruct _ _ other | .moveConstruct _ other =>
    ∀ source ∈ heap.samples[other]?, ∃ after ∈ heap'.samples[heap.samples.length]?, after.SameValue source
  | .copyAssign _ target other | .moveAssign target other =>
    ∀ source ∈ heap.samples[other]?, ∀ sample ∈ heap.samples[target]?, ∃ after ∈ heap'.samples[target]?,
      sample.fixedSize = false → after.SameValue source
  | .new | .preAllocated .. | .fromMemory .. | .resize .. | .setTime .. | .setCounter .. => True

/-- After the call no sample claims more bytes than it has, and the value is the one it has to be. -/
def KeepsValues (heap : DataSamples) (action : SampleAction) : Prop :=
  ∀ heap', heap.step action = some heap' → heap'.Inv ∧ Outcome heap heap' action

/-- The bytes could be copied, a sample not of fixed size is resized within its buffer, and samples are moved only
where the members that stay agree and no size exceeds the other buffer. -/
def Careful (heap : DataSamples) : SampleAction → Prop
  | .fromMemory copier _ _ _ data => data <+: copyInto copier [] data
  | .copyConstruct copier _ other =>
    ∀ source ∈ heap.samples[other]?, source.content <+: copyInto copier [] source.content
  | .moveConstruct uninitialised other => ∀ source ∈ heap.samples[other]?,
    source.currentSize = 0 ∧ uninitialised.currentSize = 0 ∧ uninitialised.time = source.time ∧
      uninitialised.counter = source.counter
  | .copyAssign copier target other =>
    ∀ source ∈ heap.samples[other]?, ∀ sample ∈ heap.samples[target]?, sample.fixedSize = false →
      source.content <+: copyInto copier sample.buffer source.content
  | .moveAssign target other =>
    ∀ source ∈ heap.samples[other]?, ∀ sample ∈ heap.samples[target]?,
      sample.currentSize ≤ source.buffer.length ∧ source.currentSize ≤ sample.buffer.length ∧
        (sample.fixedSize = false → sample.time = source.time ∧ sample.counter = source.counter ∧
          sample.currentSize = source.currentSize)
  | .set copier target data | .write copier target data | .update copier target _ _ data =>
    ∀ sample ∈ heap.samples[target]?, sample.taken data <+: copyInto copier sample.buffer (sample.taken data)
  | .resize target dataSize =>
    ∀ sample ∈ heap.samples[target]?, sample.fixedSize = true ∨ dataSize ≤ sample.buffer.length
  | .new | .preAllocated .. | .setTime .. | .setCounter .. => True

theorem inv_append (h : heap.Inv) : (⟨heap.samples ++ [sample]⟩ : DataSamples).Inv ↔ sample.Fits := by
  constructor
  · exact fun hall => hall sample (mem_append_right _ mem_cons_self)
  · intro hfits other hother
    rcases mem_append.mp hother with hold | hnew
    · exact h other hold
    · exact mem_singleton.mp hnew ▸ hfits

theorem inv_set (h : heap.Inv) (hsample : heap.samples[target]? = some sample) :
    (⟨heap.samples.set target after⟩ : DataSamples).Inv ↔ after.Fits := by
  obtain ⟨hlt,-⟩ := List.getElem?_eq_some_iff.mp hsample
  constructor
  · exact fun hall => hall after (mem_of_getElem? (getElem?_set_self hlt))
  · intro hfits other hother
    rcases mem_or_eq_of_mem_set hother with hold | rfl
    · exact h other hold
    · exact hfits

theorem change_iff (h : heap.Inv) (call : DataSample → Option DataSample) (post : DataSamples → Prop) :
    (∀ heap', heap.change target call = some heap' → heap'.Inv ∧ post heap') ↔
      ∀ sample ∈ heap.samples[target]?, ∀ after ∈ call sample, after.Fits ∧ post ⟨heap.samples.set target after⟩ := by
  constructor
  · intro hall sample hsample after hafter
    have hchange : heap.change target call = some ⟨heap.samples.set target after⟩ := by
      rw [change,mem_def.mp hsample,bind_eq_bind,bind_some,mem_def.mp hafter]
      rfl
    obtain ⟨hinv,hpost⟩ := hall _ hchange
    exact ⟨(inv_set h hsample).mp hinv,hpost⟩
  · intro hall heap' hchange
    obtain ⟨sample,hsample,hchange⟩ := bind_eq_some_iff.mp hchange
    obtain ⟨after,hafter,hchange⟩ := bind_eq_some_iff.mp hchange
    cases hchange
    obtain ⟨hfits,hpost⟩ := hall sample hsample after hafter
    exact ⟨(inv_set h hsample).mpr hfits,hpost⟩

private theorem exists_set_iff {sample after : DataSample} (hsample : heap.samples[target]? = some sample)
    (post : DataSample → DataSample → Prop) :
    (∀ sample ∈ heap.samples[target]?, ∃ left ∈ (heap.samples.set target after)[target]?, post sample left) ↔
      post sample after := by
  rw [getElem?_set_self (List.getElem?_eq_some_iff.mp hsample).1,hsample]
  simp only [mem_def,Option.some.injEq,forall_eq',exists_eq_left']

theorem change_some_iff (h : heap.Inv) (call : DataSample → DataSample) (post : DataSample → DataSample → Prop) :
    (∀ heap', heap.change target (fun sample => some (call sample)) = some heap' → heap'.Inv ∧
      ∀ sample ∈ heap.samples[target]?, ∃ left ∈ heap'.samples[target]?, post sample left) ↔
      ∀ sample ∈ heap.samples[target]?, (call sample).Fits ∧ post sample (call sample) := by
  rw [change_iff h]
  refine forall_congr' fun sample => forall_congr' fun hsample => ?_
  simp only [mem_def,Option.some.injEq,forall_eq']
  exact and_congr_right fun _ => exists_set_iff hsample post

theorem keepsValues_set_iff (h : heap.Inv) (copier : Copier) (data : List UInt8) (fill : DataSample → DataSample)
    (hfill : ∀ sample, (fill sample).taken data = sample.taken data ∧ (fill sample).buffer = sample.buffer) :
    (∀ heap', heap.change target (fun sample => some ((fill sample).set copier data)) = some heap' → heap'.Inv ∧
      ∀ sample ∈ heap.samples[target]?, ∃ left ∈ heap'.samples[target]?,
        left.content = data.take (if sample.fixedSize then min data.length sample.capacity else data.length)) ↔
      ∀ sample ∈ heap.samples[target]?, sample.taken data <+: copyInto copier sample.buffer (sample.taken data) := by
  rw [change_some_iff h]
  refine forall_congr' fun sample => imp_congr_right fun _ => ?_
  obtain ⟨htaken,hbuffer⟩ := hfill sample
  rw [← DataSample.taken_eq_take,← htaken,← hbuffer]
  exact DataSample.content_set_iff

theorem keepsValues_members_iff (h : heap.Inv) (call : DataSample → DataSample) :
    (∀ heap', heap.change target (fun sample => some (call sample)) = some heap' → heap'.Inv ∧ True) ↔
      ∀ sample ∈ heap.samples[target]?, (call sample).Fits := by
  rw [change_iff h]
  refine forall_congr' fun sample => imp_congr_right fun _ => ?_
  simp only [mem_def,Option.some.injEq,forall_eq',and_true]

theorem exists_append_iff (sample : DataSample) (post : DataSample → Prop) (samples : List DataSample) :
    (∃ left ∈ (samples ++ [sample])[samples.length]?, post left) ↔ post sample := by
  rw [getElem?_concat_length]
  simp only [mem_def,Option.some.injEq,exists_eq_left']

section
variable (h : heap.Inv)
include h

theorem keepsValues_copyConstruct_iff (copier : Copier) (uninitialised : Uninitialised) :
    KeepsValues heap (.copyConstruct copier uninitialised other) ↔
      Careful heap (.copyConstruct copier uninitialised other) := by
  show (∀ heap', heap.step _ = some heap' → _) ↔ _
  simp only [Careful,step,Outcome]
  cases hsource : heap.samples[other]? with
  | none => simp
  | some source =>
    have hfits : source.Fits := h source (mem_of_getElem? hsource)
    simp only [DataSample.copyConstruct,DataSample.read_of_fits hfits,map_some,bind_eq_bind,
      Option.bind_some,Option.pure_def,Option.some.injEq,forall_eq',Option.mem_some_iff]
    rw [inv_append h,exists_append_iff]
    exact DataSample.sameValue_set_iff rfl hfits rfl rfl

theorem keepsValues_copyAssign_iff (copier : Copier) :
    KeepsValues heap (.copyAssign copier target other) ↔ Careful heap (.copyAssign copier target other) := by
  show (∀ heap', heap.step _ = some heap' → _) ↔ _
  simp only [Careful,step,Outcome]
  cases hsource : heap.samples[other]? with
  | none => simp
  | some source =>
    have hfits : source.Fits := h source (mem_of_getElem? hsource)
    simp only [DataSample.copyAssign,DataSample.read_of_fits hfits,map_some,bind_eq_bind,
      bind_some,mem_some_iff,forall_eq']
    rw [change_some_iff h _ fun sample left => sample.fixedSize = false → left.SameValue source]
    refine forall_congr' fun sample => imp_congr_right fun _ => ?_
    cases hfixed : sample.fixedSize with
    | true =>
      -- a target of fixed size only has to keep its size within the buffer
      refine iff_of_true ⟨DataSample.fits_set_of_fixed hfixed,fun hfalse => ?_⟩ fun hfalse => ?_ <;>
      · cases hfalse
    | false =>
      rw [imp_iff_right rfl,imp_iff_right rfl]
      exact DataSample.sameValue_set_iff hfixed hfits rfl rfl

private theorem inv_set_append {source moved sample : DataSample}
    (hsource : heap.samples[other]? = some source) :
    (⟨heap.samples.set other moved ++ [sample]⟩ : DataSamples).Inv ↔ moved.Fits ∧ sample.Fits := by
  rw [Inv,forall_mem_append,forall_mem_singleton]
  exact and_congr_left fun _ => inv_set h hsource

theorem inv_set_set (hne : target ≠ other) {source moved sample after : DataSample}
    (hsource : heap.samples[other]? = some source) (hsample : heap.samples[target]? = some sample) :
    (⟨(heap.samples.set other moved).set target after⟩ : DataSamples).Inv ↔ moved.Fits ∧ after.Fits := by
  have hafter : (heap.samples.set other moved)[target]? = some sample := by
    rw [getElem?_set_ne (Ne.symm hne),hsample]
  constructor
  · intro hall
    refine ⟨hall moved (mem_of_getElem? (i := other) ?_),hall after (mem_of_getElem? (i := target) ?_)⟩
    · rw [getElem?_set_ne hne,getElem?_set_self (List.getElem?_eq_some_iff.mp hsource).1]
    · exact getElem?_set_self (List.getElem?_eq_some_iff.mp hafter).1
  · rintro ⟨hmoved,hfits⟩
    have hinv : (⟨heap.samples.set other moved⟩ : DataSamples).Inv := (inv_set h hsource).mpr hmoved
    exact (inv_set hinv hafter).mpr hfits

theorem keepsValues_moveConstruct_iff (uninitialised : Uninitialised) :
    KeepsValues heap (.moveConstruct uninitialised other) ↔ Careful heap (.moveConstruct uninitialised other) := by
  show (∀ heap', heap.step _ = some heap' → _) ↔ _
  simp only [Careful,step,Outcome]
  cases hsource : heap.samples[other]? with
  | none => simp
  | some source =>
    simp only [Option.bind_eq_bind,Option.bind_some,Option.pure_def,Option.some.injEq,forall_eq',mem_some_iff]
    rw [inv_set_append h hsource]
    have hlength : heap.samples.length = (heap.samples.set other (source.moveConstruct uninitialised).2).length :=
      length_set.symm
    rw [hlength,exists_append_iff,DataSample.moveConstruct,DataSample.sameValue_moved_iff]
    -- the source keeps its size without a buffer, and the new sample has the size of the source
    constructor
    · rintro ⟨⟨hzero,-⟩,htime,hcounter,hsize⟩
      exact ⟨le_zero.mp hzero,hsize.trans (le_zero.mp hzero),htime,hcounter⟩
    · rintro ⟨hzero,hnew,htime,hcounter⟩
      exact ⟨⟨le_of_eq hzero,hnew ▸ zero_le _⟩,htime,hcounter,hnew.trans hzero.symm⟩

theorem keepsValues_moveAssign_iff :
    KeepsValues heap (.moveAssign target other) ↔ Careful heap (.moveAssign target other) := by
  show (∀ heap', heap.step _ = some heap' → _) ↔ _
  simp only [Careful,step,Outcome]
  cases hsource : heap.samples[other]? with
  | none => simp
  | some source =>
    cases hsample : heap.samples[target]? with
    | none => simp
    | some sample =>
      simp only [Option.bind_eq_bind,Option.bind_some,Option.pure_def,Option.mem_some_iff,forall_eq']
      have hfits : source.currentSize ≤ source.buffer.length := h source (mem_of_getElem? hsource)
      by_cases hself : target = other
      · -- nothing happens to a sample that is assigned to itself
        cases hself
        cases hsource.symm.trans hsample
        refine iff_of_true (fun heap' hstep => ?_) ⟨hfits,hfits,fun _ => ⟨rfl,rfl,rfl⟩⟩
        rw [if_pos rfl] at hstep
        cases hstep
        exact ⟨h,source,hsource,fun _ => ⟨rfl,rfl,rfl,rfl⟩⟩
      · simp only [if_neg hself,Option.some.injEq,forall_eq']
        have hlt : target < (heap.samples.set other (sample.moveAssign source).2).length :=
          length_set.symm ▸ (List.getElem?_eq_some_iff.mp hsample).1
        rw [inv_set_set h hself hsource hsample,getElem?_set_self hlt]
        simp only [mem_some_iff,exists_eq_left',DataSample.sameValue_moved_iff]
        exact and_assoc.trans and_left_comm

theorem keepsValues_iff_careful : KeepsValues heap action ↔ Careful heap action := by
  cases action with
  | new =>
    refine iff_of_true (fun _ hstep => ?_) trivial
    cases hstep
    exact ⟨(inv_append h).mpr (le_refl 0),trivial⟩
  | preAllocated buffer fixedSize =>
    refine iff_of_true (fun _ hstep => ?_) trivial
    cases hstep
    exact ⟨(inv_append h).mpr (zero_le _),trivial⟩
  | fromMemory copier uninitialised time counter data =>
    show (∀ heap', some _ = some heap' → _) ↔ _
    simp only [Option.some.injEq,forall_eq']
    refine (and_iff_left trivial).trans ((inv_append h).trans ?_)
    have htaken : (⟨false,time,counter,uninitialised.currentSize,[]⟩ : DataSample).taken data = data :=
      DataSample.taken_of_not_fixed rfl
    exact DataSample.prefix_copyInto_nil_iff
  | copyConstruct copier uninitialised other => exact keepsValues_copyConstruct_iff h copier uninitialised
  | moveConstruct uninitialised other => exact keepsValues_moveConstruct_iff h uninitialised
  | copyAssign copier target other => exact keepsValues_copyAssign_iff h copier
  | moveAssign target other => exact keepsValues_moveAssign_iff h
  | set copier target data => exact keepsValues_set_iff h copier data id fun _ => ⟨rfl,rfl⟩
  | write copier target data => exact keepsValues_set_iff h copier data id fun _ => ⟨rfl,rfl⟩
  | update copier target time counter data =>
    exact keepsValues_set_iff h copier data (fun sample => (sample.setTime time).setCounter counter) fun _ => ⟨rfl,rfl⟩
  | resize target dataSize =>
    refine (keepsValues_members_iff h fun sample => sample.resize dataSize).trans ?_
    exact forall_congr' fun sample => imp_congr_right fun _ => DataSample.fits_resize_iff dataSize
  | setTime target time =>
    refine (keepsValues_members_iff h fun sample => sample.setTime time).trans ?_
    exact iff_of_true (fun sample hsample => h sample (mem_of_getElem? hsample)) trivial
  | setCounter target counter =>
    refine (keepsValues_members_iff h fun sample => sample.setCounter counter).trans ?_
    exact iff_of_true (fun sample hsample => h sample (mem_of_getElem? hsample)) trivial

end

/-- A sequence of calls keeps the values of all samples exactly if every call is a careful one. -/
theorem values_kept_throughout (actions : List SampleAction) :
    Throughout step KeepsValues ⟨[]⟩ actions ↔ Throughout step Careful ⟨[]⟩ actions := by
  have hempty : (⟨[]⟩ : DataSamples).Inv := fun sample hsample => absurd hsample not_mem_nil
  refine throughout_iff ?_ ?_ hempty actions
  · exact fun heap action h => keepsValues_iff_careful h
  · exact fun heap action heap' h hcareful hstep => ((keepsValues_iff_careful h).mpr hcareful heap' hstep).1

/-- The time of a sample does not move with it. -/
theorem moved_time_lost : ¬Throughout step KeepsValues ⟨[]⟩ [.new,.setTime 0 7,.new,.moveAssign 1 0] := by
  intro h
  have hmove := (((h.2 _ rfl).2 _ rfl).2 _ rfl).1
  obtain ⟨-,houtcome⟩ := hmove _ rfl
  obtain ⟨after,hafter,hsame⟩ := houtcome _ rfl _ rfl
  cases hafter
  exact absurd (hsame rfl).time (by decide)

end DataSamples
end FepParticipant.DataRegistry
