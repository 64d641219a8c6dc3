import FepParticipant.Transmission.Transmitter

/-! The memory that a transmitter writes: the header, the copied or the serialized data of each
sample, with the block they go to. -/
namespace FepParticipant.Transmission
open Library List Nat PreparationDataSample

/-- A write to some bytes of a block. -/
structure BufferWrite where
  block : Nat
  offset : Nat
  count : Nat
  deriving DecidableEq

/-- A transmitter with its blocks: `block` is the current one, `attached` the one the serializer writes to. Where
there was no memory at the creation, the recorded size stands for nothing. -/
structure SendBuffer where
  transmitter : Transmitter
  block : Nat
  attached : Nat
  missing : Bool

/-- A call of `TransmitData` on a system. -/
structure TransmitCall where
  platform : Platform
  sample : PreparationDataSample

namespace SendBuffer

/-- The part of `Create` about the buffer. With serialization the result of the codec factory takes the place of
the missing memory. -/
def create (config : ReceiverConfig) (encode : List UInt8 → List UInt8) (allocate : Allocator) :
    Option SendBuffer :=
  match allocate (FepDataHeader.size + config.size) with
  | some block => some ⟨⟨config,encode,block.val⟩,0,0,false⟩
  | none =>
    if config.disableDdlSerialization then none
    else some ⟨⟨config,encode,List.replicate (FepDataHeader.size + config.size) 0⟩,0,0,true⟩

variable (buffer : SendBuffer) (call : TransmitCall)

def szSize : Nat := buffer.transmitter.sendSample.length

/-- The transmitter after `FillFepDataHeader`. -/
def filled : Transmitter := (buffer.transmitter.fillFepDataHeader call.platform call.sample).1

/-- `FillFepDataHeader` refuses the sample. -/
def Rejects : Prop := (buffer.transmitter.fillFepDataHeader call.platform call.sample).2.1 ≠ .errNoError

/-- A block of the size of the sample takes the place of the current one. -/
def reallocates : Bool :=
  FepDataHeader.size + call.sample.dataSize != buffer.szSize && buffer.transmitter.config.raw &&
    (call.platform.allocate (call.sample.dataSize + FepDataHeader.size)).isSome

def currentBlock : Nat := if buffer.reallocates call then buffer.block + 1 else buffer.block

/-- `TransmitData`, whatever the driver says. -/
def transmit : SendBuffer :=
  { buffer with
    transmitter := (buffer.transmitter.transmitData call.platform call.sample true).transmitter
    block := buffer.currentBlock call }

def step (buffer : SendBuffer) (call : TransmitCall) : Option SendBuffer := some (buffer.transmit call)

/-- The bytes behind the header. -/
def payload : List UInt8 :=
  if buffer.transmitter.config.disableDdlSerialization then call.sample.data
  else buffer.transmitter.encode call.sample.data

/-- The writes of `TransmitData` in their order; the minor version of the header is not written. -/
def writes : List BufferWrite :=
  (if (buffer.transmitter.fillFepDataHeader call.platform call.sample).2.1 = .errNoError then
    [⟨buffer.currentBlock call,0,1⟩,⟨buffer.currentBlock call,2,22⟩] else []) ++
  if buffer.transmitter.config.disableDdlSerialization then
    if call.sample.data.length ≤ (buffer.filled call).sendSample.length then
      [⟨buffer.currentBlock call,FepDataHeader.size,call.sample.data.length⟩] else []
  else [⟨buffer.attached,FepDataHeader.size,(buffer.transmitter.encode call.sample.data).length⟩]

/-- The write stays inside the block that is allocated. -/
def Contains (write : BufferWrite) : Prop :=
  write.count = 0 ∨ (buffer.missing = false ∧ write.block = buffer.block ∧ write.offset + write.count ≤ buffer.szSize)

/-- All writes stay inside the buffer, and a sample that is rejected leaves the buffer as it is. -/
def KeepsBounds : Prop :=
  (∀ write ∈ buffer.writes call, (buffer.transmit call).Contains write) ∧
  (buffer.Rejects call → (buffer.transmit call).block = buffer.block ∧
    (buffer.transmit call).transmitter.sendSample = buffer.transmitter.sendSample)

/-- The buffer exists and the sample has its size. Or it does not, the sample is raw, and there is memory for it or
it is empty already. Or it is rejected with nothing to write, a refused copy, or the bytes there already. -/
def Fits : Prop :=
  if FepDataHeader.size + call.sample.dataSize = buffer.szSize then buffer.missing = false
  else if buffer.transmitter.config.raw then
    (call.platform.allocate (call.sample.dataSize + FepDataHeader.size)).isSome = true ∨ buffer.szSize = 0
  else
    buffer.payload call = [] ∨
    (buffer.transmitter.config.disableDdlSerialization = true ∧ buffer.szSize < call.sample.dataSize) ∨
    (buffer.missing = false ∧ FepDataHeader.size + (buffer.payload call).length ≤ buffer.szSize ∧
      (buffer.transmitter.sendSample.drop FepDataHeader.size).take (buffer.payload call).length = buffer.payload call)

end SendBuffer

theorem length_overwrite (block source : List UInt8) (offset : Nat) :
    (overwrite block offset source).length = block.length := by
  simp only [overwrite,length_take,length_append,length_drop]
  omega

theorem overwrite_nil (block : List UInt8) (offset : Nat) : overwrite block offset [] = block := by
  rw [overwrite,append_nil,length_nil,add_zero,take_append_drop,take_length]

theorem overwrite_eq_self_iff {block source : List UInt8} {offset : Nat} (h : offset + source.length ≤ block.length) :
    overwrite block offset source = block ↔ (block.drop offset).take source.length = source := by
  have hlength : (block.take offset ++ source ++ block.drop (offset + source.length)).length = block.length := by
    simp only [length_append,length_take,length_drop]
    omega
  have hsplit : block.take offset ++ (block.drop offset).take source.length ++
      block.drop (offset + source.length) = block := by
    rw [append_assoc,← drop_drop,take_append_drop,take_append_drop]
  rw [overwrite,take_of_length_le (le_of_eq hlength)]
  constructor
  · intro hsame
    have hboth := hsame.trans hsplit.symm
    exact (append_cancel_left (append_cancel_right hboth)).symm
  · intro hsame
    rw [hsame] at hsplit
    exact hsplit

namespace SendBuffer
variable {buffer : SendBuffer} {call : TransmitCall}
variable {transmitter : Transmitter}

/-- A raw signal is not serialized, the serializer has its memory in the current block, and it keeps to the size of
the signal. -/
structure Inv (buffer : SendBuffer) : Prop where
  raw : buffer.transmitter.config.raw = true → buffer.transmitter.config.disableDdlSerialization = true
  encoded : ∀ data, (buffer.transmitter.encode data).length ≤ buffer.transmitter.config.size
  attached : buffer.transmitter.config.disableDdlSerialization = false →
    buffer.attached = buffer.block ∧ buffer.szSize = FepDataHeader.size + buffer.transmitter.config.size
  missing : buffer.missing = true → buffer.transmitter.config.disableDdlSerialization = false

theorem inv_create {config : ReceiverConfig} {encode : List UInt8 → List UInt8} {allocate : Allocator}
    (hraw : config.raw = true → config.disableDdlSerialization = true)
    (hencode : ∀ data, (encode data).length ≤ config.size)
    (h : create config encode allocate = some buffer) : Inv buffer := by
  unfold create at h
  split at h
  · rename_i block _
    cases h
    exact ⟨hraw,hencode,fun _ => ⟨rfl,block.property⟩,nofun⟩
  · split at h
    · cases h
    · rename_i hserialized
      cases h
      exact ⟨hraw,hencode,fun _ => ⟨rfl,length_replicate⟩,fun _ => Bool.eq_false_iff.mpr hserialized⟩

theorem fill_of_size (hsize : FepDataHeader.size + call.sample.dataSize = buffer.szSize) :
    buffer.transmitter.fillFepDataHeader call.platform call.sample =
      (buffer.transmitter.writeHeader call.platform buffer.transmitter.sendSample call.sample,.errNoError,[]) := by
  unfold szSize at hsize
  rw [Transmitter.fillFepDataHeader,if_neg (Classical.not_not.mpr hsize)]

section
variable (hsize : FepDataHeader.size + call.sample.dataSize ≠ buffer.szSize)
include hsize

theorem fill_of_block {block : {memory : List UInt8 // memory.length = call.sample.dataSize + FepDataHeader.size}}
    (hraw : buffer.transmitter.config.raw = true)
    (hblock : call.platform.allocate (call.sample.dataSize + FepDataHeader.size) = some block) :
    buffer.transmitter.fillFepDataHeader call.platform call.sample =
      (buffer.transmitter.writeHeader call.platform block.val call.sample,.errNoError,[]) := by
  unfold szSize at hsize
  rw [Transmitter.fillFepDataHeader,if_pos hsize,if_pos hraw,hblock]

theorem fill_of_no_memory (hraw : buffer.transmitter.config.raw = true)
    (hblock : call.platform.allocate (call.sample.dataSize + FepDataHeader.size) = none) :
    buffer.transmitter.fillFepDataHeader call.platform call.sample =
      ({buffer.transmitter with sendSample := []},.errMemory,[]) := by
  unfold szSize at hsize
  rw [Transmitter.fillFepDataHeader,if_pos hsize,if_pos hraw,hblock]

theorem fill_of_wrong_size (hraw : ¬buffer.transmitter.config.raw = true) :
    buffer.transmitter.fillFepDataHeader call.platform call.sample =
      (buffer.transmitter,.errNotSupported,[.fsiTransmTxWrongSampleSize]) := by
  unfold szSize at hsize
  rw [Transmitter.fillFepDataHeader,if_pos hsize,if_neg hraw]

end

theorem length_writeHeader {platform : Platform} {block : List UInt8}
    {sample : PreparationDataSample} (h : FepDataHeader.size ≤ block.length) :
    (transmitter.writeHeader platform block sample).sendSample.length = block.length := by
  have hheader := FepDataHeader.length_encode platform.localByteorder (transmitter.header platform block sample)
  simp only [Transmitter.writeHeader,length_append,length_drop]
  omega

private theorem length_fillData {data : List UInt8} :
    (transmitter.fillData data).sendSample.length = transmitter.sendSample.length := by
  unfold Transmitter.fillData
  repeat' split
  · exact length_overwrite _ _ _
  · rfl
  · exact length_overwrite _ _ _

theorem fillData_config {data : List UInt8} : (transmitter.fillData data).config = transmitter.config ∧
      (transmitter.fillData data).encode = transmitter.encode := by
  unfold Transmitter.fillData
  repeat' split
  all_goals exact ⟨rfl,rfl⟩

theorem transmit_transmitter : (buffer.transmit call).transmitter = (buffer.filled call).fillData call.sample.data := by
  show (buffer.transmitter.transmitData call.platform call.sample true).transmitter = _
  unfold Transmitter.transmitData
  dsimp only
  repeat' split
  all_goals rfl

theorem szSize_transmit : (buffer.transmit call).szSize = (buffer.filled call).sendSample.length := by
  rw [szSize,transmit_transmitter,length_fillData]

private theorem filled_config : (buffer.filled call).config = buffer.transmitter.config ∧
    (buffer.filled call).encode = buffer.transmitter.encode := by
  unfold filled Transmitter.fillFepDataHeader
  split
  · split
    · split <;> exact ⟨rfl,rfl⟩
    · exact ⟨rfl,rfl⟩
  · exact ⟨rfl,rfl⟩

private theorem transmit_config : (buffer.transmit call).transmitter.config = buffer.transmitter.config ∧
    (buffer.transmit call).transmitter.encode = buffer.transmitter.encode := by
  rw [transmit_transmitter,fillData_config.1,fillData_config.2]
  exact filled_config

theorem currentBlock_of_not_raw (hraw : ¬buffer.transmitter.config.raw = true) :
    buffer.currentBlock call = buffer.block := by
  simp [currentBlock,reallocates,hraw]

theorem szSize_filled_of_size (hsize : FepDataHeader.size + call.sample.dataSize = buffer.szSize) :
    (buffer.filled call).sendSample.length = buffer.szSize := by
  rw [filled,fill_of_size hsize]
  apply length_writeHeader
  show FepDataHeader.size ≤ buffer.szSize
  omega

private theorem szSize_filled_of_not_raw (hraw : ¬buffer.transmitter.config.raw = true) :
    (buffer.filled call).sendSample.length = buffer.szSize := by
  by_cases hsize : FepDataHeader.size + call.sample.dataSize = buffer.szSize
  · exact szSize_filled_of_size hsize
  · rw [filled,fill_of_wrong_size hsize hraw]
    rfl

private theorem inv_transmit (h : Inv buffer) : Inv (buffer.transmit call) where
  raw := by
    rw [transmit_config.1]
    exact h.raw
  encoded := by
    rw [transmit_config.1,transmit_config.2]
    exact h.encoded
  attached := by
    rw [transmit_config.1]
    intro hserialized
    have hraw : ¬buffer.transmitter.config.raw = true := by
      intro hraw
      rw [h.raw hraw] at hserialized
      cases hserialized
    rw [szSize_transmit,szSize_filled_of_not_raw hraw]
    obtain ⟨hattached,hlength⟩ := h.attached hserialized
    exact ⟨hattached.trans (currentBlock_of_not_raw hraw).symm,hlength⟩
  missing := by
    rw [transmit_config.1]
    exact h.missing

theorem inv_of_reaches {config : ReceiverConfig} {encode : List UInt8 → List UInt8} {allocate : Allocator}
    {start : SendBuffer} (hraw : config.raw = true → config.disableDdlSerialization = true)
    (hencode : ∀ data, (encode data).length ≤ config.size) (hstart : create config encode allocate = some start)
    (h : Reaches step anyAction start buffer) : Inv buffer := by
  refine h.invariant (inv_create hraw hencode hstart) fun _ _ _ hinv _ hstep => ?_
  cases hstep
  exact inv_transmit hinv

private theorem contains_payload (hmissing : buffer.missing = false) {count : Nat}
    (hcount : FepDataHeader.size + count ≤ (buffer.filled call).sendSample.length) :
    (buffer.transmit call).Contains ⟨buffer.currentBlock call,FepDataHeader.size,count⟩ := by
  refine .inr ⟨hmissing,rfl,?_⟩
  rw [szSize_transmit]
  exact hcount

theorem keepsBounds_of_filled (h : Inv buffer) (hmissing : buffer.missing = false)
    (hok : (buffer.transmitter.fillFepDataHeader call.platform call.sample).2.1 = .errNoError)
    (hlength : (buffer.filled call).sendSample.length = FepDataHeader.size + call.sample.dataSize)
    (hsize : buffer.transmitter.config.disableDdlSerialization = false →
      (buffer.filled call).sendSample.length = buffer.szSize ∧ buffer.currentBlock call = buffer.block) :
    buffer.KeepsBounds call := by
  have hdata : call.sample.data.length = call.sample.dataSize := length_data
  refine ⟨fun write hwrite => ?_,fun hrejects => absurd hok hrejects⟩
  have hheader (offset count : Nat) (hcount : offset + count ≤ FepDataHeader.size) :
      (buffer.transmit call).Contains ⟨buffer.currentBlock call,offset,count⟩ := by
    refine .inr ⟨hmissing,rfl,?_⟩
    rw [szSize_transmit,hlength]
    show offset + count ≤ _
    omega
  rcases mem_append.mp hwrite with hwrite | hwrite
  · rw [if_pos hok] at hwrite
    rcases mem_cons.mp hwrite with rfl | hwrite
    · exact hheader 0 1 (by decide)
    · cases mem_singleton.mp hwrite
      exact hheader 2 22 (by decide)
  · split at hwrite
    · split at hwrite
      · cases mem_singleton.mp hwrite
        apply contains_payload hmissing
        rw [hlength,hdata]
      · cases hwrite
    · rename_i hserialized
      cases mem_singleton.mp hwrite
      obtain ⟨hattached,hattachedSize⟩ := h.attached (Bool.eq_false_iff.mpr hserialized)
      obtain ⟨hsame,hblock⟩ := hsize (Bool.eq_false_iff.mpr hserialized)
      rw [hattached,← hblock]
      apply contains_payload hmissing
      rw [hsame,hattachedSize]
      exact Nat.add_le_add_left (h.encoded _) _

theorem keepsBounds_of_size (h : Inv buffer) (hsize : FepDataHeader.size + call.sample.dataSize = buffer.szSize) :
    buffer.KeepsBounds call ↔ buffer.missing = false := by
  have hok : (buffer.transmitter.fillFepDataHeader call.platform call.sample).2.1 = .errNoError := by
    rw [fill_of_size hsize]
  constructor
  · rintro ⟨hcontains,-⟩
    have hheader : ⟨buffer.currentBlock call,0,1⟩ ∈ buffer.writes call := by
      apply mem_append_left
      rw [if_pos hok]
      exact mem_cons_self
    rcases hcontains _ hheader with hcount | ⟨hmissing,-,-⟩
    · cases hcount
    · exact hmissing
  · intro hmissing
    apply keepsBounds_of_filled h hmissing hok
    · rw [szSize_filled_of_size hsize,hsize]
    · intro hserialized
      refine ⟨szSize_filled_of_size hsize,currentBlock_of_not_raw fun hraw => ?_⟩
      rw [h.raw hraw] at hserialized
      cases hserialized

theorem keepsBounds_of_block
    {block : {memory : List UInt8 // memory.length = call.sample.dataSize + FepDataHeader.size}}
    (h : Inv buffer) (hsize : FepDataHeader.size + call.sample.dataSize ≠ buffer.szSize)
    (hraw : buffer.transmitter.config.raw = true)
    (hblock : call.platform.allocate (call.sample.dataSize + FepDataHeader.size) = some block) :
    buffer.KeepsBounds call := by
  have hmissing : buffer.missing = false := by
    refine Bool.eq_false_iff.mpr fun hmissing => ?_
    have hserialized := h.missing hmissing
    rw [h.raw hraw] at hserialized
    cases hserialized
  apply keepsBounds_of_filled h hmissing
  · rw [fill_of_block hsize hraw hblock]
  · have hlength := block.property
    rw [filled,fill_of_block hsize hraw hblock,length_writeHeader (by omega)]
    omega
  · intro hserialized
    rw [h.raw hraw] at hserialized
    cases hserialized

theorem keepsBounds_of_no_memory (h : Inv buffer) (hsize : FepDataHeader.size + call.sample.dataSize ≠ buffer.szSize)
    (hraw : buffer.transmitter.config.raw = true)
    (hnone : call.platform.allocate (call.sample.dataSize + FepDataHeader.size) = none) :
    buffer.KeepsBounds call ↔ buffer.szSize = 0 := by
  have hfill := fill_of_no_memory hsize hraw hnone
  have hfilled : (buffer.filled call).sendSample.length = 0 := by
    rw [filled,hfill]
    rfl
  have hempty : (buffer.transmit call).transmitter.sendSample = [] := by
    apply eq_nil_of_length_eq_zero
    exact szSize_transmit.trans hfilled
  have hblock : (buffer.transmit call).block = buffer.block := by
    show buffer.currentBlock call = buffer.block
    simp [currentBlock,reallocates,hnone]
  constructor
  · rintro ⟨-,hsame⟩
    have hrejects : buffer.Rejects call := by
      rw [Rejects,hfill]
      nofun
    rw [szSize,← (hsame hrejects).2,hempty]
    rfl
  · intro hzero
    refine ⟨fun write hwrite => .inl ?_,fun _ => ⟨hblock,?_⟩⟩
    · rw [writes,hfill,if_neg nofun,nil_append,if_pos (h.raw hraw),hfilled] at hwrite
      split at hwrite
      · rename_i hcount
        cases mem_singleton.mp hwrite
        exact Nat.le_zero.mp hcount
      · cases hwrite
    · rw [hempty]
      exact (eq_nil_of_length_eq_zero hzero).symm

private theorem refused_write {source : List UInt8} :
    (source.length = 0 ∨ (buffer.missing = false ∧ FepDataHeader.size + source.length ≤ buffer.szSize)) ∧
        overwrite buffer.transmitter.sendSample FepDataHeader.size source = buffer.transmitter.sendSample ↔
      source = [] ∨ (buffer.missing = false ∧ FepDataHeader.size + source.length ≤ buffer.szSize ∧
        (buffer.transmitter.sendSample.drop FepDataHeader.size).take source.length = source) := by
  constructor
  · rintro ⟨hempty | ⟨hmissing,hroom⟩,hsame⟩
    · exact .inl (eq_nil_of_length_eq_zero hempty)
    · exact .inr ⟨hmissing,hroom,(overwrite_eq_self_iff hroom).mp hsame⟩
  · rintro (rfl | ⟨hmissing,hroom,hsame⟩)
    · exact ⟨.inl rfl,overwrite_nil _ _⟩
    · exact ⟨.inr ⟨hmissing,hroom⟩,(overwrite_eq_self_iff hroom).mpr hsame⟩

private theorem keepsBounds_of_one_write {source : List UInt8} (hrejects : buffer.Rejects call)
    (hblock : (buffer.transmit call).block = buffer.block) (hszSize : (buffer.transmit call).szSize = buffer.szSize)
    (hwrite : buffer.writes call = [⟨buffer.block,FepDataHeader.size,source.length⟩])
    (hover : (buffer.transmit call).transmitter.sendSample =
      overwrite buffer.transmitter.sendSample FepDataHeader.size source) :
    buffer.KeepsBounds call ↔ source = [] ∨
    (buffer.missing = false ∧ FepDataHeader.size + source.length ≤ buffer.szSize ∧
        (buffer.transmitter.sendSample.drop FepDataHeader.size).take source.length = source) := by
  rw [← refused_write,KeepsBounds,hwrite,hover]
  simp only [forall_mem_singleton,Contains,hblock,hszSize,hrejects,forall_const,true_and]
  rfl

theorem keepsBounds_of_wrong_size (h : Inv buffer) (hsize : FepDataHeader.size + call.sample.dataSize ≠ buffer.szSize)
    (hraw : ¬buffer.transmitter.config.raw = true) : buffer.KeepsBounds call ↔ buffer.Fits call := by
  have hfill := fill_of_wrong_size hsize hraw
  have hfilled : buffer.filled call = buffer.transmitter := by rw [filled,hfill]
  have hrejects : buffer.Rejects call := by
    rw [Rejects,hfill]
    nofun
  have hcurrent := @currentBlock_of_not_raw buffer call hraw
  have hblock : (buffer.transmit call).block = buffer.block := hcurrent
  have hszSize : (buffer.transmit call).szSize = buffer.szSize := by rw [szSize_transmit,hfilled,szSize]
  have hsample : (buffer.transmit call).transmitter.sendSample =
      (buffer.transmitter.fillData call.sample.data).sendSample := by rw [transmit_transmitter,hfilled]
  have hwrites : buffer.writes call = if buffer.transmitter.config.disableDdlSerialization then
      if call.sample.data.length ≤ buffer.szSize then
        [⟨buffer.block,FepDataHeader.size,call.sample.data.length⟩] else []
      else [⟨buffer.attached,FepDataHeader.size,(buffer.transmitter.encode call.sample.data).length⟩] := by
    rw [writes,hfill,if_neg nofun,nil_append,hfilled,hcurrent]
    rfl
  rw [Fits,if_neg hsize,if_neg hraw]
  by_cases hcopied : buffer.transmitter.config.disableDdlSerialization = true
  · have hpayload : buffer.payload call = call.sample.data := if_pos hcopied
    have hdata : call.sample.data.length = call.sample.dataSize := length_data
    rw [if_pos hcopied] at hwrites
    rw [Transmitter.fillData,if_pos hcopied] at hsample
    by_cases hroom : call.sample.data.length ≤ buffer.transmitter.sendSample.length
    · rw [if_pos hroom] at hsample
      change call.sample.data.length ≤ buffer.szSize at hroom
      rw [if_pos hroom] at hwrites
      rw [keepsBounds_of_one_write hrejects hblock hszSize hwrites hsample,hpayload]
      have hfits : ¬buffer.szSize < call.sample.dataSize := by omega
      simp only [hfits,and_false,false_or]
    · rw [if_neg hroom] at hsample
      change ¬call.sample.data.length ≤ buffer.szSize at hroom
      rw [if_neg hroom] at hwrites
      have hrefused : buffer.szSize < call.sample.dataSize := by omega
      simp only [hcopied,hrefused,and_self,true_or,or_true,iff_true]
      refine ⟨?_,fun _ => ⟨hblock,hsample⟩⟩
      rw [hwrites]
      nofun
  · have hserialized : buffer.transmitter.config.disableDdlSerialization = false := Bool.eq_false_iff.mpr hcopied
    have hpayload : buffer.payload call = buffer.transmitter.encode call.sample.data := if_neg hcopied
    rw [if_neg hcopied,(h.attached hserialized).1] at hwrites
    rw [Transmitter.fillData,if_neg hcopied] at hsample
    rw [keepsBounds_of_one_write hrejects hblock hszSize hwrites hsample,hpayload,hserialized]
    simp only [Bool.false_eq_true,false_and,false_or]

/-- Whatever was sent before, the next sample keeps to the buffer exactly when it fits: one refused for its size is
written all the same. -/
theorem transmit_keeps_bounds (config : ReceiverConfig) (encode : List UInt8 → List UInt8) (allocate : Allocator)
    (start buffer : SendBuffer) (call : TransmitCall) (hraw : config.raw = true → config.disableDdlSerialization = true)
    (hencode : ∀ data, (encode data).length ≤ config.size) (hstart : create config encode allocate = some start)
    (h : Reaches step anyAction start buffer) : buffer.KeepsBounds call ↔ buffer.Fits call := by
  have hinv := inv_of_reaches hraw hencode hstart h
  by_cases hsize : FepDataHeader.size + call.sample.dataSize = buffer.szSize
  · rw [keepsBounds_of_size hinv hsize,Fits,if_pos hsize]
  by_cases hisRaw : buffer.transmitter.config.raw = true
  · rw [Fits,if_neg hsize,if_pos hisRaw]
    cases hblock : call.platform.allocate (call.sample.dataSize + FepDataHeader.size) with
    | some block =>
      simp only [Option.isSome_some,true_or,iff_true]
      exact keepsBounds_of_block hinv hsize hisRaw hblock
    | none =>
      simp only [Option.isSome_none,Bool.false_eq_true,false_or]
      exact keepsBounds_of_no_memory hinv hsize hisRaw hblock
  · exact keepsBounds_of_wrong_size hinv hsize hisRaw

private def enoughMemory : Allocator := fun size => some ⟨List.replicate size 0,length_zeros size⟩

private def callOfSize (size : Nat) : TransmitCall where
  platform := ⟨.le,2,enoughMemory⟩
  sample := ⟨true,1,1,0,0,List.replicate size 7,size,le_of_eq length_replicate.symm⟩

private def rawSignal : ReceiverConfig := ⟨true,true,4⟩

/-- A large sample after a small one. -/
theorem transmit_keeps_bounds_raw : ∃ start buffer : SendBuffer,
    create rawSignal (fun _ => []) enoughMemory = some start ∧ Reaches step anyAction start buffer ∧
      buffer.szSize = 25 ∧ buffer.KeepsBounds (callOfSize 40) := by
  refine ⟨_,_,rfl,.tail .refl trivial (rfl : step _ (callOfSize 1) = some _),rfl,?_⟩
  refine (transmit_keeps_bounds rawSignal (fun _ => []) enoughMemory _ _ (callOfSize 40) (fun _ => rfl)
    (fun _ => zero_le _) rfl (.tail .refl trivial (rfl : step _ (callOfSize 1) = some _))).mpr ?_
  rw [Fits,if_neg (by decide +kernel),if_pos (by decide +kernel)]
  exact .inl rfl

private def unserializedSignal : ReceiverConfig := ⟨false,true,2⟩

/-- A sample of ten bytes is refused by a signal of two, and copied over the end of its buffer. -/
theorem transmit_past_end : ∃ start : SendBuffer,
    create unserializedSignal (fun _ => []) enoughMemory = some start ∧ start.Rejects (callOfSize 10) ∧
      ∃ write ∈ start.writes (callOfSize 10), ¬(start.transmit (callOfSize 10)).Contains write := by
  refine ⟨_,rfl,nofun,⟨0,24,10⟩,by decide +kernel,?_⟩
  rintro (hcount | ⟨-,-,hroom⟩)
  · cases hcount
  · revert hroom
    decide +kernel

end SendBuffer

end FepParticipant.Transmission
