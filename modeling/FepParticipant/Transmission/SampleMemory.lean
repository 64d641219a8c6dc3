import FepParticipant.Transmission.Transmitter

/-! Data samples with own and with attached memory, and the values that survive every order of calls. -/
namespace FepParticipant.Transmission
open Library List Bool Nat Option

abbrev Blocks := List (List UInt8)

namespace Blocks

/-- The bytes of the block at a pointer, which is null or the number of a block. -/
def read (blocks : Blocks) : Option Nat → List UInt8
  | some block => blocks.getD block []
  | none => []

/-- `a_util::memory::copy` to the begin of the block at a pointer. -/
def write (blocks : Blocks) (data : List UInt8) : Option Nat → Blocks
  | some block => blocks.set block (data ++ (blocks.getD block []).drop data.length)
  | none => blocks

variable {blocks : Blocks} {data : List UInt8} {pointer : Option Nat}

theorem getD_set (block other : Nat) (bytes : List UInt8) : List.getD (blocks.set block bytes) other [] =
      if block = other ∧ block < blocks.length then bytes else List.getD blocks other [] := by
  by_cases hsame : block = other
  · subst hsame
    by_cases hlt : block < blocks.length
    · simp [hlt]
    · simp [hlt]
  · simp [hsame]

theorem length_read_write (h : data.length ≤ (blocks.read pointer).length) (other : Option Nat) :
    ((blocks.write data pointer).read other).length = (blocks.read other).length := by
  cases pointer with
  | none => rfl
  | some block =>
    cases other with
    | none => rfl
    | some other =>
      simp only [read,write] at h ⊢
      rw [getD_set]
      split
      · rename_i hsame
        rw [← hsame.1,length_append,length_drop]
        omega
      · rfl

theorem take_read_write (h : data.length ≤ (blocks.read pointer).length) :
    ((blocks.write data pointer).read pointer).take data.length = data := by
  cases pointer with
  | none =>
    have hempty : data = [] := length_eq_zero_iff.mp (le_zero.mp h)
    simp [hempty]
  | some block =>
    simp only [read,write] at h ⊢
    rw [getD_set]
    split
    · exact take_left
    · rename_i hnone
      rw [getD_eq_getElem?_getD,getElem?_eq_none (by simpa using hnone)] at h
      have hempty : data = [] := length_eq_zero_iff.mp (le_zero.mp h)
      simp [hempty]

end Blocks

/-- `cDataSample` with all its members. -/
structure TransmissionDataSample where
  bSyncFlag : Bool
  nFrameId : UInt64
  nSampleNumberInFrame : UInt16
  tmTimeStamp : Int64
  hSignalHandle : Nat
  oMemory : List UInt8
  bUseExternalMemory : Bool
  pExternalMemoryBlock : Option Nat
  szExternalMemoryBlock : Nat
  szDataSize : Nat

namespace TransmissionDataSample

/-- The constructor. -/
def new : TransmissionDataSample := ⟨false,0,0,0,0,[],false,none,0,0⟩

def copyConstruct (copier : Copier) (oOther : TransmissionDataSample) : TransmissionDataSample :=
  {oOther with oMemory := (copier [] oOther.oMemory).elim [] Subtype.val}

/-- `CopyFrom` for the bytes at a pointer, which may be null. -/
def copyFrom (copier : Copier) (blocks : Blocks) (sample : TransmissionDataSample) (data : Option (List UInt8)) :
    TransmissionDataSample × Blocks × Result :=
  match data with
  | none => (sample,blocks,.errPointer)
  | some data =>
    if sample.bUseExternalMemory then
      if data.length ≤ sample.szExternalMemoryBlock then
        ({sample with szDataSize := data.length},blocks.write data sample.pExternalMemoryBlock,.errNoError)
      else (sample,blocks,.errMemory)
    else
      match copier sample.oMemory data with
      | some copied => ({sample with oMemory := copied.val, szDataSize := data.length},blocks,.errNoError)
      | none => (sample,blocks,.errMemory)

/-- `CopyTo` with the bytes it writes to a pointer, which may be null. -/
def copyTo (blocks : Blocks) (sample : TransmissionDataSample) (isNull : Bool) (szSize : Nat) : List UInt8 × Result :=
  if isNull then ([],.errPointer)
  else if sample.bUseExternalMemory then
    if szSize > sample.szExternalMemoryBlock then ([],.errMemory)
    else ((blocks.read sample.pExternalMemoryBlock).take szSize,.errNoError)
  else if sample.szDataSize < szSize then ([],.errMemory)
  else (sample.oMemory.take szSize,.errNoError)

def getCapacity (sample : TransmissionDataSample) : Nat :=
  if sample.bUseExternalMemory then sample.szExternalMemoryBlock else sample.oMemory.length

def getSize (sample : TransmissionDataSample) : Nat := sample.szDataSize

def setSize (allocate : Allocator) (sample : TransmissionDataSample) (szDataSize : Nat) :
    TransmissionDataSample × Result :=
  if sample.bUseExternalMemory then (sample,.errInvalidFunction)
  else match allocate szDataSize with
    | some block => ({sample with oMemory := block.val, szDataSize := szDataSize},.errNoError)
    | none => (sample,.errMemory)

def adaptSize (allocate : Allocator) (sample : TransmissionDataSample) (szDataSize : Nat) :
    TransmissionDataSample × Result :=
  if sample.bUseExternalMemory then (sample,.errInvalidFunction)
  else if sample.oMemory.length < szDataSize then
    match allocate szDataSize with
    | some block => ({sample with oMemory := block.val, szDataSize := szDataSize},.errNoError)
    | none => (sample,.errMemory)
  else ({sample with szDataSize := szDataSize},.errNoError)

def attach (sample : TransmissionDataSample) (pvData : Option Nat) (szSize : Nat) : TransmissionDataSample :=
  { sample with
    oMemory := []
    pExternalMemoryBlock := pvData
    szExternalMemoryBlock := szSize
    szDataSize := szSize
    bUseExternalMemory := true }

def detach (sample : TransmissionDataSample) : TransmissionDataSample × Result :=
  if sample.pExternalMemoryBlock.isSome then
    ({ sample with
      bUseExternalMemory := false, pExternalMemoryBlock := none, szExternalMemoryBlock := 0, szDataSize := 0 },
      .errNoError)
  else (sample,.errMemory)

/-- The bytes from `GetPtr` on. -/
def memory (blocks : Blocks) (sample : TransmissionDataSample) : List UInt8 :=
  if sample.bUseExternalMemory then blocks.read sample.pExternalMemoryBlock else sample.oMemory

/-- As many of them as the size tells. -/
def content (blocks : Blocks) (sample : TransmissionDataSample) : List UInt8 :=
  (sample.memory blocks).take sample.szDataSize

end TransmissionDataSample

inductive SampleMember where
  | time (tmSample : Int64)
  | syncFlag (bSync : Bool)
  | frameId (nFrameId : UInt64)
  | sampleNumberInFrame (nSampleNumber : UInt16)
  | signalHandle (hSignalHandle : Nat)

/-- `SetTime`, `SetSyncFlag`, `SetFrameId`, `SetSampleNumberInFrame` and `SetSignalHandle`. -/
def TransmissionDataSample.setMember (sample : TransmissionDataSample) : SampleMember → TransmissionDataSample
  | .time tmSample => {sample with tmTimeStamp := tmSample}
  | .syncFlag bSync => {sample with bSyncFlag := bSync}
  | .frameId nFrameId => {sample with nFrameId := nFrameId}
  | .sampleNumberInFrame nSampleNumber => {sample with nSampleNumberInFrame := nSampleNumber}
  | .signalHandle hSignalHandle => {sample with hSignalHandle := hSignalHandle}

/-- The calls on samples, which are numbered in the order of their construction. Each brings the memory it gets. -/
inductive MemoryAction where
  | new
  | copyConstruct (copier : Copier) (other : Nat)
  | assign (copier : Copier) (target other : Nat)
  | copyFrom (copier : Copier) (target : Nat) (data : Option (List UInt8))
  | copyTo (target : Nat) (isNull : Bool) (szSize : Nat)
  | setSize (allocate : Allocator) (target szDataSize : Nat)
  | adaptSize (allocate : Allocator) (target szDataSize : Nat)
  | attach (target : Nat) (pvData : Option Nat) (szSize : Nat)
  | detach (target : Nat)
  | setMember (target : Nat) (member : SampleMember)

/-- The sample that a call changes. -/
def MemoryAction.target : MemoryAction → Option Nat
  | .new | .copyConstruct .. | .copyTo .. => none
  | .assign _ target _ | .copyFrom _ target _ | .setSize _ target _ | .adaptSize _ target _ | .attach target _ _
  | .detach target | .setMember target _ => some target

/-- The samples that exist, and the blocks of their users. -/
structure SampleMemory where
  samples : List TransmissionDataSample
  blocks : Blocks

namespace SampleMemory
open TransmissionDataSample

def change (heap : SampleMemory) (target : Nat) (call : TransmissionDataSample → TransmissionDataSample) :
    Option SampleMemory :=
  heap.samples[target]?.map fun sample => {heap with samples := heap.samples.set target (call sample)}

/-- The calls; the assignment is `operator=` and `CopyTo` for a sample, and only blocks as large as said are
attached. -/
def step (heap : SampleMemory) : MemoryAction → Option SampleMemory
  | .new => some {heap with samples := heap.samples ++ [.new]}
  | .copyConstruct copier other =>
    heap.samples[other]?.map fun oOther => {heap with samples := heap.samples ++ [oOther.copyConstruct copier]}
  | .assign copier target other =>
    heap.samples[other]?.bind fun oOther => heap.change target fun _ => oOther.copyConstruct copier
  | .copyFrom copier target data => heap.samples[target]?.map fun sample =>
    let (sample,blocks,_) := sample.copyFrom copier heap.blocks data
    ⟨heap.samples.set target sample,blocks⟩
  | .copyTo _ _ _ => some heap
  | .setSize allocate target szDataSize => heap.change target fun sample => (sample.setSize allocate szDataSize).1
  | .adaptSize allocate target szDataSize => heap.change target fun sample => (sample.adaptSize allocate szDataSize).1
  | .attach target pvData szSize =>
    if szSize ≤ (heap.blocks.read pvData).length then heap.change target fun sample => sample.attach pvData szSize
    else none
  | .detach target => heap.change target fun sample => sample.detach.1
  | .setMember target member => heap.change target fun sample => sample.setMember member

end SampleMemory

namespace TransmissionDataSample
variable {copier : Copier} {allocate : Allocator} {blocks : Blocks} {sample source : TransmissionDataSample}

/-- The two samples have own memory and agree in all that can be read from them. -/
structure SameValue (blocks : Blocks) (sample source : TransmissionDataSample) : Prop where
  content : sample.content blocks = source.content blocks
  size : sample.getSize = source.getSize
  time : sample.tmTimeStamp = source.tmTimeStamp
  syncFlag : sample.bSyncFlag = source.bSyncFlag
  frameId : sample.nFrameId = source.nFrameId
  sampleNumberInFrame : sample.nSampleNumberInFrame = source.nSampleNumberInFrame
  signalHandle : sample.hSignalHandle = source.hSignalHandle
  own : sample.bUseExternalMemory = false

/-- The size is within the capacity, and `CopyTo` yields as many bytes as are asked for, up to the size. -/
structure Lawful (blocks : Blocks) (sample : TransmissionDataSample) : Prop where
  fits : sample.getSize ≤ sample.getCapacity
  copyTo_isOk : ∀ szSize, isOk (sample.copyTo blocks false szSize).2 = true ↔ szSize ≤ sample.getSize
  copyTo_bytes : ∀ szSize, isOk (sample.copyTo blocks false szSize).2 = true →
    (sample.copyTo blocks false szSize).1 = (sample.content blocks).take szSize ∧
      (sample.copyTo blocks false szSize).1.length = szSize

def Valid (blocks : Blocks) (sample : TransmissionDataSample) : Prop :=
  sample.bUseExternalMemory = true → sample.szExternalMemoryBlock ≤ (blocks.read sample.pExternalMemoryBlock).length

/-- The data fill an attached block, and are within the own memory. -/
def Exact (sample : TransmissionDataSample) : Prop :=
  if sample.bUseExternalMemory then sample.szDataSize = sample.szExternalMemoryBlock
  else sample.szDataSize ≤ sample.oMemory.length

/-- How many bytes `CopyTo` can yield. -/
def copyLimit (sample : TransmissionDataSample) : Nat :=
  if sample.bUseExternalMemory then sample.szExternalMemoryBlock else sample.szDataSize

theorem copyTo_eq (szSize : Nat) : sample.copyTo blocks false szSize =
      if szSize ≤ sample.copyLimit then ((sample.memory blocks).take szSize,.errNoError) else ([],.errMemory) := by
  rw [copyTo,if_neg Bool.false_ne_true,copyLimit,memory]
  cases sample.bUseExternalMemory <;> grind

theorem isOk_copyTo_iff (szSize : Nat) :
    isOk (sample.copyTo blocks false szSize).2 = true ↔ szSize ≤ sample.copyLimit := by
  rw [copyTo_eq]
  split
  · rename_i hsmall
    exact iff_of_true rfl hsmall
  · rename_i hlarge
    exact iff_of_false (by decide) hlarge

theorem copyLimit_of_exact (h : sample.Exact) : sample.copyLimit = sample.szDataSize := by
  rw [Exact] at h
  rw [copyLimit]
  split
  · rename_i hexternal
    rw [if_pos hexternal] at h
    exact h.symm
  · rfl

private theorem le_capacity_of_exact (h : sample.Exact) : sample.szDataSize ≤ sample.getCapacity := by
  rw [Exact] at h
  rw [getCapacity]
  split
  · rename_i hexternal
    rw [if_pos hexternal] at h
    exact le_of_eq h
  · rename_i hexternal
    rwa [if_neg hexternal] at h

private theorem capacity_le_length (h : sample.Valid blocks) : sample.getCapacity ≤ (sample.memory blocks).length := by
  rw [getCapacity,memory]
  split
  · rename_i hexternal
    exact h hexternal
  · exact le_refl _

theorem lawful_iff (hvalid : sample.Valid blocks) : sample.Lawful blocks ↔ sample.Exact := by
  constructor
  · intro h
    have hfits : sample.szDataSize ≤ sample.getCapacity := h.fits
    have hlimit : sample.copyLimit ≤ sample.szDataSize :=
      (h.copyTo_isOk sample.copyLimit).mp ((isOk_copyTo_iff _).mpr (le_refl _))
    rw [getCapacity] at hfits
    rw [copyLimit] at hlimit
    rw [Exact]
    split
    · rename_i hexternal
      rw [if_pos hexternal] at hfits hlimit
      exact le_antisymm hfits hlimit
    · rename_i hexternal
      rwa [if_neg hexternal] at hfits
  · intro h
    have hlength : sample.szDataSize ≤ (sample.memory blocks).length :=
      le_trans (le_capacity_of_exact h) (capacity_le_length hvalid)
    refine ⟨le_capacity_of_exact h,fun szSize => ?_,fun szSize hsize => ?_⟩
    · rw [isOk_copyTo_iff,copyLimit_of_exact h,getSize]
    · have hlimit := (isOk_copyTo_iff _).mp hsize
      have hsize : szSize ≤ sample.szDataSize := copyLimit_of_exact h ▸ hlimit
      rw [copyTo_eq,if_pos hlimit,content,take_take,min_eq_left hsize]
      exact ⟨rfl,length_take_of_le (le_trans hsize hlength)⟩

theorem length_read_copyFrom (hvalid : sample.Valid blocks) (data : Option (List UInt8)) (other : Option Nat) :
    ((sample.copyFrom copier blocks data).2.1.read other).length = (blocks.read other).length := by
  cases data with
  | none => rfl
  | some data =>
    simp only [copyFrom]
    split
    · rename_i hexternal
      split
      · rename_i hfits
        exact Blocks.length_read_write (le_trans hfits (hvalid hexternal)) other
      · rfl
    · split
      · rfl
      · rfl

/-- What `CopyFrom` has to do: take over exactly the bytes, or nothing. -/
def Takes (copier : Copier) (blocks : Blocks) (sample : TransmissionDataSample) (data : Option (List UInt8)) : Prop :=
  let (after,left,nResult) := sample.copyFrom copier blocks data
  (isOk nResult = true → data = some (after.content left)) ∧ (isFailed nResult = true → after = sample ∧ left = blocks)

theorem takes_copyFrom (hvalid : sample.Valid blocks) (data : Option (List UInt8)) :
    sample.Takes copier blocks data := by
  cases data with
  | none => exact ⟨nofun,fun _ => ⟨rfl,rfl⟩⟩
  | some data =>
    by_cases hexternal : sample.bUseExternalMemory = true
    · by_cases hfits : data.length ≤ sample.szExternalMemoryBlock
      · simp only [Takes,copyFrom,if_pos hexternal,if_pos hfits,content,memory]
        rw [Blocks.take_read_write (le_trans hfits (hvalid hexternal))]
        exact ⟨fun _ => rfl,nofun⟩
      · simp only [Takes,copyFrom,if_pos hexternal,if_neg hfits]
        exact ⟨nofun,fun _ => ⟨trivial,trivial⟩⟩
    · simp only [Takes,copyFrom,if_neg hexternal]
      cases copier sample.oMemory data with
      | none => exact ⟨nofun,fun _ => ⟨rfl,rfl⟩⟩
      | some copied =>
        simp only [content,memory,if_neg hexternal]
        exact ⟨fun _ => congrArg some (prefix_iff_eq_take.mp copied.property),nofun⟩

theorem sameValue_copyConstruct (hown : source.bUseExternalMemory = false) (hsource : source.Exact)
    (hcopy : (source.copyConstruct copier).Exact) : (source.copyConstruct copier).SameValue blocks source := by
  refine ⟨?_,rfl,rfl,rfl,rfl,rfl,rfl,hown⟩
  have hne := eq_false_iff.mp hown
  rw [Exact,if_neg hne] at hsource
  rw [Exact,copyConstruct,if_neg hne] at hcopy
  rw [content,content,memory,memory,copyConstruct,if_neg hne,if_neg hne]
  cases hcopied : copier [] source.oMemory with
  | none =>
    rw [hcopied] at hcopy
    rw [le_zero.mp hcopy,take_zero,take_zero]
  | some copied =>
    have hwhole : source.oMemory = copied.val.take source.oMemory.length := prefix_iff_eq_take.mp copied.property
    calc copied.val.take source.szDataSize
        = copied.val.take (min source.szDataSize source.oMemory.length) := by rw [min_eq_left hsource]
      _ = (copied.val.take source.oMemory.length).take source.szDataSize := take_take.symm
      _ = source.oMemory.take source.szDataSize := by rw [← hwhole]

theorem exact_copyConstruct_iff (hsource : source.Exact) : (source.copyConstruct copier).Exact ↔
    (source.bUseExternalMemory = false → source.szDataSize = 0 ∨ (copier [] source.oMemory).isSome) := by
  rw [Exact] at hsource ⊢
  cases hexternal : source.bUseExternalMemory with
  | true =>
    rw [if_pos hexternal] at hsource
    simp [copyConstruct,hexternal,hsource]
  | false =>
    rw [if_neg (eq_false_iff.mp hexternal)] at hsource
    simp only [copyConstruct,hexternal,false_eq_true,if_false,true_imp_iff]
    cases copier [] source.oMemory with
    | none => simp
    | some copied => simpa using le_trans hsource copied.property.length_le

theorem valid_copyFrom (hvalid : sample.Valid blocks) (data : Option (List UInt8)) :
    (sample.copyFrom copier blocks data).1.Valid blocks := by
  simp only [copyFrom]
  repeat' split
  all_goals exact hvalid

theorem exact_copyFrom_iff (hexact : sample.Exact) (data : Option (List UInt8)) :
    (sample.copyFrom copier blocks data).1.Exact ↔
      (sample.bUseExternalMemory = true → ∀ bytes ∈ data, sample.szExternalMemoryBlock ≤ bytes.length) := by
  cases data with
  | none => exact iff_of_true hexact fun _ => nofun
  | some data =>
    simp only [mem_some_iff,forall_eq']
    by_cases hexternal : sample.bUseExternalMemory = true
    · by_cases hfits : data.length ≤ sample.szExternalMemoryBlock
      · simp only [copyFrom,hexternal,if_true,if_pos hfits,Exact,true_imp_iff]
        exact ⟨fun h => le_of_eq h.symm,fun h => le_antisymm hfits h⟩
      · simp only [copyFrom,hexternal,if_true,if_neg hfits,true_imp_iff]
        exact iff_of_true hexact (Nat.le_of_not_le hfits)
    · refine iff_of_true ?_ fun h => absurd h hexternal
      simp only [copyFrom,if_neg hexternal]
      split
      · rename_i copied _
        simpa only [Exact,if_neg hexternal] using copied.property.length_le
      · exact hexact

theorem sound_setSize (h : sample.Valid blocks ∧ sample.Exact) (szDataSize : Nat) :
    (sample.setSize allocate szDataSize).1.Valid blocks ∧ (sample.setSize allocate szDataSize).1.Exact := by
  rw [setSize]
  split
  · exact h
  · rename_i hexternal
    split
    · rename_i block _
      refine ⟨h.1,?_⟩
      simpa only [Exact,if_neg hexternal] using le_of_eq block.property.symm
    · exact h

theorem sound_adaptSize (h : sample.Valid blocks ∧ sample.Exact) (szDataSize : Nat) :
    (sample.adaptSize allocate szDataSize).1.Valid blocks ∧ (sample.adaptSize allocate szDataSize).1.Exact := by
  rw [adaptSize]
  split
  · exact h
  · rename_i hexternal
    split
    · split
      · rename_i block _
        refine ⟨h.1,?_⟩
        simpa only [Exact,if_neg hexternal] using le_of_eq block.property.symm
      · exact h
    · rename_i hlarge
      refine ⟨h.1,?_⟩
      simpa only [Exact,if_neg hexternal] using Nat.le_of_not_lt hlarge

theorem sound_attach {pvData : Option Nat} {szSize : Nat} (h : szSize ≤ (blocks.read pvData).length) :
    (sample.attach pvData szSize).Valid blocks ∧ (sample.attach pvData szSize).Exact :=
  ⟨fun _ => h,rfl⟩

theorem sound_detach (h : sample.Valid blocks ∧ sample.Exact) :
    sample.detach.1.Valid blocks ∧ sample.detach.1.Exact := by
  rw [detach]
  split
  · exact ⟨nofun,zero_le _⟩
  · exact h

theorem sound_setMember (h : sample.Valid blocks ∧ sample.Exact) (member : SampleMember) :
    (sample.setMember member).Valid blocks ∧ (sample.setMember member).Exact := by
  cases member <;> exact h

end TransmissionDataSample

namespace SampleMemory
open TransmissionDataSample
variable {heap heap' : SampleMemory} {action : MemoryAction} {target : Nat}

/-- All samples obey the laws, `CopyFrom` takes over the bytes or nothing, and a copy of a sample with own memory
has its value. -/
def KeepsValues (heap : SampleMemory) (action : MemoryAction) : Prop :=
  ∀ heap', heap.step action = some heap' → (∀ sample ∈ heap'.samples, sample.Lawful heap'.blocks) ∧
    match action with
    | .copyFrom copier target data => ∀ sample ∈ heap.samples[target]?, sample.Takes copier heap.blocks data
    | .copyConstruct _ other => ∀ source ∈ heap.samples[other]?, source.bUseExternalMemory = false →
      ∃ copy ∈ heap'.samples[heap.samples.length]?, copy.SameValue heap'.blocks source
    | .assign _ target other => ∀ source ∈ heap.samples[other]?, source.bUseExternalMemory = false →
      ∃ copy ∈ heap'.samples[target]?, copy.SameValue heap'.blocks source
    | _ => True

/-- No content too short is copied into an attached block, and a sample with own memory is copied only if there is
memory. -/
def Careful (heap : SampleMemory) : MemoryAction → Prop
  | .copyFrom _ target data => ∀ sample ∈ heap.samples[target]?, sample.bUseExternalMemory = true →
    ∀ bytes ∈ data, sample.szExternalMemoryBlock ≤ bytes.length
  | .copyConstruct copier other => ∀ source ∈ heap.samples[other]?, source.bUseExternalMemory = false →
    source.szDataSize = 0 ∨ (copier [] source.oMemory).isSome
  | .assign copier target other => ∀ source ∈ heap.samples[other]?, target < heap.samples.length →
    source.bUseExternalMemory = false → source.szDataSize = 0 ∨ (copier [] source.oMemory).isSome
  | _ => True

/-- What holds of all samples while the calls are careful; the blocks are as large as they have to be anyway. -/
structure Inv (heap : SampleMemory) : Prop where
  valid : ∀ sample ∈ heap.samples, sample.Valid heap.blocks
  exact : ∀ sample ∈ heap.samples, sample.Exact

theorem lawful_iff_exact (hvalid : ∀ sample ∈ heap.samples, sample.Valid heap.blocks) :
    (∀ sample ∈ heap.samples, sample.Lawful heap.blocks) ↔ ∀ sample ∈ heap.samples, sample.Exact :=
  forall_congr' fun sample => forall_congr' fun hmem => lawful_iff (hvalid sample hmem)

theorem append_iff (h : heap.Inv) {sample : TransmissionDataSample} (hvalid : sample.Valid heap.blocks) :
    (∀ other ∈ heap.samples ++ [sample], other.Valid heap.blocks) ∧
      ((∀ other ∈ heap.samples ++ [sample], other.Exact) ↔ sample.Exact) := by
  simp only [forall_mem_append,forall_mem_singleton]
  exact ⟨⟨h.valid,hvalid⟩,and_iff_right h.exact⟩

theorem set_iff (h : heap.Inv) {after : TransmissionDataSample} (htarget : target < heap.samples.length)
    {blocks : Blocks} (hblocks : ∀ pointer, (blocks.read pointer).length = (heap.blocks.read pointer).length)
    (hvalid : after.Valid heap.blocks) : (∀ other ∈ heap.samples.set target after, other.Valid blocks) ∧
      ((∀ other ∈ heap.samples.set target after, other.Exact) ↔ after.Exact) := by
  have hkeeps (sample : TransmissionDataSample) (hvalid : sample.Valid heap.blocks) : sample.Valid blocks := by
    rw [Valid,hblocks]
    exact hvalid
  refine ⟨fun other hother => ?_,fun hall => ?_,fun hexact other hother => ?_⟩
  · rcases mem_or_eq_of_mem_set hother with hold | rfl
    · exact hkeeps other (h.valid other hold)
    · exact hkeeps _ hvalid
  · exact hall after (mem_of_getElem? (getElem?_set_self htarget))
  · rcases mem_or_eq_of_mem_set hother with hold | rfl
    · exact h.exact other hold
    · exact hexact

private theorem inv_change (h : heap.Inv) {call : TransmissionDataSample → TransmissionDataSample}
    (hcall : ∀ sample, sample.Valid heap.blocks ∧ sample.Exact → (call sample).Valid heap.blocks ∧ (call sample).Exact)
    (hstep : heap.change target call = some heap') : heap'.Inv := by
  obtain ⟨sample,hsample,rfl⟩ := map_eq_some_iff.mp hstep
  have hmem := mem_of_getElem? hsample
  obtain ⟨hvalid,hexact⟩ := hcall sample ⟨h.valid sample hmem,h.exact sample hmem⟩
  obtain ⟨hvalids,hexacts⟩ := set_iff h (List.getElem?_eq_some_iff.mp hsample).1 (fun _ => rfl) hvalid
  exact ⟨hvalids,hexacts.mpr hexact⟩

theorem step_iff (h : heap.Inv) (hstep : heap.step action = some heap') :
    (∀ sample ∈ heap'.samples, sample.Valid heap'.blocks) ∧
      ((∀ sample ∈ heap'.samples, sample.Exact) ↔ heap.Careful action) := by
  have hkept (hinv : heap'.Inv) (hcareful : heap.Careful action) :
      (∀ sample ∈ heap'.samples, sample.Valid heap'.blocks) ∧
        ((∀ sample ∈ heap'.samples, sample.Exact) ↔ heap.Careful action) :=
    ⟨hinv.valid,iff_of_true hinv.exact hcareful⟩
  cases action with
  | new =>
    cases hstep
    have hvalid : new.Valid heap.blocks := fun h => absurd h false_ne_true
    obtain ⟨hvalids,hexacts⟩ := append_iff h hvalid
    exact ⟨hvalids,iff_of_true (hexacts.mpr (zero_le _)) trivial⟩
  | copyConstruct copier other =>
    obtain ⟨source,hsource,rfl⟩ := map_eq_some_iff.mp hstep
    have hmem := mem_of_getElem? hsource
    have hcopy : (source.copyConstruct copier).Valid heap.blocks := h.valid source hmem
    obtain ⟨hvalids,hexacts⟩ := append_iff h hcopy
    refine ⟨hvalids,hexacts.trans ((exact_copyConstruct_iff (h.exact source hmem)).trans ?_)⟩
    simp [Careful,hsource]
  | assign copier target other =>
    obtain ⟨source,hsource,hstep⟩ := bind_eq_some_iff.mp hstep
    obtain ⟨sample,hsample,rfl⟩ := map_eq_some_iff.mp hstep
    have hmem := mem_of_getElem? hsource
    have htarget := (List.getElem?_eq_some_iff.mp hsample).1
    have hcopy : (source.copyConstruct copier).Valid heap.blocks := h.valid source hmem
    obtain ⟨hvalids,hexacts⟩ := set_iff h htarget (fun _ => rfl) hcopy
    refine ⟨hvalids,hexacts.trans ((exact_copyConstruct_iff (h.exact source hmem)).trans ?_)⟩
    simp [Careful,hsource,htarget]
  | copyFrom copier target data =>
    obtain ⟨sample,hsample,rfl⟩ := map_eq_some_iff.mp hstep
    have hmem := mem_of_getElem? hsample
    have hvalid := h.valid sample hmem
    obtain ⟨hvalids,hexacts⟩ := set_iff h (List.getElem?_eq_some_iff.mp hsample).1
      (@length_read_copyFrom copier heap.blocks sample hvalid data) (valid_copyFrom hvalid data)
    refine ⟨hvalids,hexacts.trans ((exact_copyFrom_iff (h.exact sample hmem) data).trans ?_)⟩
    simp [Careful,hsample]
  | copyTo target isNull szSize =>
    cases hstep
    exact hkept h trivial
  | setSize allocate target szDataSize =>
    exact hkept (inv_change h (fun _ hsound => sound_setSize hsound szDataSize) hstep) trivial
  | adaptSize allocate target szDataSize =>
    exact hkept (inv_change h (fun _ hsound => sound_adaptSize hsound szDataSize) hstep) trivial
  | attach target pvData szSize =>
    rw [step] at hstep
    split at hstep
    · rename_i hlarge
      exact hkept (inv_change h (fun _ _ => sound_attach hlarge) hstep) trivial
    · cases hstep
  | detach target => exact hkept (inv_change h (fun _ hsound => sound_detach hsound) hstep) trivial
  | setMember target member =>
    exact hkept (inv_change h (fun _ hsound => sound_setMember hsound member) hstep) trivial

private theorem careful_of_step_eq_none (hstep : heap.step action = none) : heap.Careful action := by
  cases action with
  | copyConstruct copier other =>
    have hnone : heap.samples[other]? = none := map_eq_none_iff.mp hstep
    simp [Careful,hnone]
  | assign copier target other =>
    intro source hsource htarget
    simp [step,change,mem_def.mp hsource,htarget] at hstep
  | copyFrom copier target data =>
    have hnone : heap.samples[target]? = none := map_eq_none_iff.mp hstep
    simp [Careful,hnone]
  | _ => trivial

theorem keepsValues_iff (h : heap.Inv) : heap.KeepsValues action ↔ heap.Careful action := by
  constructor
  · intro hkeeps
    cases hstep : heap.step action with
    | none => exact careful_of_step_eq_none hstep
    | some heap' =>
      obtain ⟨hvalids,hexacts⟩ := step_iff h hstep
      exact hexacts.mp ((lawful_iff_exact hvalids).mp (hkeeps heap' hstep).1)
  · intro hcareful heap' hstep
    obtain ⟨hvalids,hexacts⟩ := step_iff h hstep
    have hexact := hexacts.mpr hcareful
    refine ⟨(lawful_iff_exact hvalids).mpr hexact,?_⟩
    cases action with
    | copyFrom copier target data =>
      exact fun sample hsample => takes_copyFrom (h.valid sample (mem_of_getElem? hsample)) data
    | copyConstruct copier other =>
      intro source hsource hown
      rw [step,mem_def.mp hsource] at hstep
      cases hstep
      have hcopy := hexact _ (mem_append_right _ mem_cons_self)
      exact ⟨source.copyConstruct copier,getElem?_concat_length ..,
        sameValue_copyConstruct hown (h.exact source (mem_of_getElem? hsource)) hcopy⟩
    | assign copier target other =>
      intro source hsource hown
      rw [step,mem_def.mp hsource] at hstep
      obtain ⟨sample,hsample,rfl⟩ := map_eq_some_iff.mp hstep
      have hcopy := getElem?_set_self (a := source.copyConstruct copier) (List.getElem?_eq_some_iff.mp hsample).1
      exact ⟨source.copyConstruct copier,hcopy,sameValue_copyConstruct hown
        (h.exact source (mem_of_getElem? hsource)) (hexact _ (mem_of_getElem? hcopy))⟩
    | _ => trivial

private theorem getElem?_change {index other : Nat} {call : TransmissionDataSample → TransmissionDataSample}
    (hstep : heap.change other call = some heap') (hother : other ≠ index) :
    heap'.samples[index]? = heap.samples[index]? := by
  obtain ⟨_,-,rfl⟩ := map_eq_some_iff.mp hstep
  exact getElem?_set_ne hother

theorem getElem?_step {index : Nat} (hstep : heap.step action = some heap') (htarget : action.target ≠ some index)
    (hindex : index < heap.samples.length) : heap'.samples[index]? = heap.samples[index]? := by
  have hother {other : Nat} (h : some other ≠ some index) : other ≠ index := fun hsame => h (congrArg some hsame)
  cases action with
  | new =>
    cases hstep
    exact getElem?_append_left hindex
  | copyConstruct copier other =>
    obtain ⟨source,-,rfl⟩ := map_eq_some_iff.mp hstep
    exact getElem?_append_left hindex
  | assign copier target other =>
    obtain ⟨source,-,hstep⟩ := bind_eq_some_iff.mp hstep
    exact getElem?_change hstep (hother htarget)
  | copyFrom copier target data =>
    obtain ⟨sample,-,rfl⟩ := map_eq_some_iff.mp hstep
    exact getElem?_set_ne (hother htarget)
  | copyTo target isNull szSize =>
    cases hstep
    rfl
  | attach target pvData szSize =>
    rw [step] at hstep
    split at hstep
    · exact getElem?_change hstep (hother htarget)
    · cases hstep
  | _ => exact getElem?_change hstep (hother htarget)

/-- Calls on other samples, the original of a copy for example, change neither a sample with own memory nor its
content. -/
def LeavesOthers (heap : SampleMemory) (actions : List MemoryAction) : Prop :=
  ∀ heap', runActions step heap actions = some heap' → ∀ index, ∀ sample ∈ heap.samples[index]?,
    sample.bUseExternalMemory = false → (∀ action ∈ actions, action.target ≠ some index) →
    heap'.samples[index]? = some sample ∧ sample.content heap'.blocks = sample.content heap.blocks

private theorem leavesOthers (heap : SampleMemory) (actions : List MemoryAction) : heap.LeavesOthers actions := by
  intro heap' hrun index sample hsample hown htargets
  have hcontent (blocks blocks' : Blocks) : sample.content blocks = sample.content blocks' := by
    rw [content,content,memory,memory,if_neg (eq_false_iff.mp hown),if_neg (eq_false_iff.mp hown)]
  refine ⟨?_,hcontent _ _⟩
  induction actions generalizing heap with
  | nil =>
    cases hrun
    exact hsample
  | cons action actions ih =>
    obtain ⟨htarget,htargets⟩ := forall_mem_cons.mp htargets
    obtain ⟨next,hstep,hrest⟩ := bind_eq_some_iff.mp hrun
    have hindex := (List.getElem?_eq_some_iff.mp (mem_def.mp hsample)).1
    exact ih next hrest ((getElem?_step hstep htarget hindex).trans hsample) htargets

/-- In every sequence of calls the samples keep their values exactly if every call is careful, and a copy stays as
it is. -/
theorem data_sample_values (blocks : Blocks) (actions : List MemoryAction) :
    (Throughout step KeepsValues ⟨[],blocks⟩ actions ↔ Throughout step Careful ⟨[],blocks⟩ actions) ∧
      ∀ heap : SampleMemory, heap.LeavesOthers actions := by
  refine ⟨?_,fun heap => leavesOthers heap actions⟩
  have hsame (heap : SampleMemory) (action : MemoryAction) (h : heap.Inv) :
      heap.KeepsValues action ↔ heap.Careful action := keepsValues_iff h
  have hstep (heap : SampleMemory) (action : MemoryAction) (heap' : SampleMemory) (h : heap.Inv)
      (hcareful : heap.Careful action) (hstep : heap.step action = some heap') : heap'.Inv := by
    obtain ⟨hvalids,hexacts⟩ := step_iff h hstep
    exact ⟨hvalids,hexacts.mpr hcareful⟩
  exact throughout_iff hsame hstep ⟨fun _ h => absurd h not_mem_nil,fun _ h => absurd h not_mem_nil⟩ actions

/-- A sample whose attached block holds less than it could yields bytes beyond its size. -/
theorem partly_filled_block :
    ¬∀ (blocks : Blocks) (actions : List MemoryAction), Throughout step KeepsValues ⟨[],blocks⟩ actions := by
  intro h
  have hrun := h [[0,0,0,0]] [.new,.attach 0 (some 0) 4,
    .copyFrom (fun _ source => some ⟨source,prefix_rfl⟩) 0 (some [1,2])]
  have hlawful := (((hrun.2 _ rfl).2 _ rfl).1 _ rfl).1 _ mem_cons_self
  exact absurd ((hlawful.copyTo_isOk 4).mp (by decide)) (by decide)

end SampleMemory
end FepParticipant.Transmission
