import FepParticipant.Result
import FepParticipant.Incident
import FepParticipant.Transmission.ReceiveQueue

/-! The data samples that travel between the transmission adapter and the data access, and the data sample of
a receiver, whose memory is reused for data of different sizes. -/
namespace FepParticipant.Transmission
open List Nat

/-- `cDataSample`; its memory is never an external block. -/
structure DataSample where
  syncFlag : Bool
  frameId : Nat
  sampleNumberInFrame : Nat
  timeStamp : Int
  signalHandle : Nat
  memory : List UInt8
  deriving DecidableEq

namespace DataSample

/-- `CreateUserDataSample`: a new sample with whatever its memory holds. -/
def create (signalHandle : Nat) (memory : List UInt8) : DataSample where
  syncFlag := false
  frameId := 0
  sampleNumberInFrame := 0
  timeStamp := 0
  signalHandle := signalHandle
  memory := memory

def setTime (sample : DataSample) (timeStamp : Int) : DataSample := {sample with timeStamp := timeStamp}

end DataSample

/-- A new memory block of a given size, if there is enough memory. -/
abbrev Allocator := (size : Nat) → Option {memory : List UInt8 // memory.length = size}

theorem length_zeros (size : Nat) : (List.replicate size (0 : UInt8)).length = size := List.length_replicate

/-- `a_util::memory::copy` into a buffer, enlarged when it has to be, that then begins with the bytes. Without a
result there is not enough memory. -/
abbrev Copier := (memory source : List UInt8) → Option {copied : List UInt8 // source <+: copied}

/-- `cDataSample` with the widths of its fields; the data are the first bytes of its memory. -/
structure PreparationDataSample where
  syncFlag : Bool
  frameId : UInt64
  sampleNumberInFrame : UInt16
  timeStamp : Int64
  signalHandle : Nat
  memory : List UInt8
  dataSize : Nat
  fits : dataSize ≤ memory.length

namespace PreparationDataSample

/-- The data from `GetPtr` on. -/
def data (sample : PreparationDataSample) : List UInt8 := sample.memory.take sample.dataSize

/-- The sample as the listeners read it. -/
def toDataSample (sample : PreparationDataSample) : DataSample where
  syncFlag := sample.syncFlag
  frameId := sample.frameId.toNat
  sampleNumberInFrame := sample.sampleNumberInFrame.toNat
  timeStamp := sample.timeStamp.toInt
  signalHandle := sample.signalHandle
  memory := sample.data

/-- The memory is enlarged when it has to be, and never made smaller. -/
def adaptSize (allocate : Allocator) (sample : PreparationDataSample) (size : Nat) : PreparationDataSample :=
  if h : sample.memory.length < size then
    match allocate size with
    | some block => {sample with memory := block.val, dataSize := size, fits := le_of_eq block.property.symm}
    | none => sample
  else {sample with dataSize := size, fits := Nat.le_of_not_lt h}

/-- `a_util::memory::copy` into the memory of the sample: nothing is copied when there is no room. -/
def copy (sample : PreparationDataSample) (source : List UInt8) : PreparationDataSample :=
  if h : source.length ≤ sample.memory.length then
    { sample with
      memory := source ++ sample.memory.drop source.length
      fits := by
        have hfits := sample.fits
        simp only [length_append,length_drop]
        omega }
  else sample

/-- The sample of `CreateSample`. -/
def create : PreparationDataSample := ⟨false,0,0,0,0,[],0,le_refl 0⟩

def setTime (sample : PreparationDataSample) (timeStamp : Int64) : PreparationDataSample :=
  {sample with timeStamp := timeStamp}

def setSignalHandle (sample : PreparationDataSample) (signalHandle : Nat) : PreparationDataSample :=
  {sample with signalHandle := signalHandle}

/-- `SetSize` allocates a new memory block. -/
def setSize (allocate : Allocator) (sample : PreparationDataSample) (size : Nat) : PreparationDataSample × Result :=
  match allocate size with
  | some block =>
    ({sample with memory := block.val, dataSize := size, fits := le_of_eq block.property.symm},.errNoError)
  | none => (sample,.errMemory)

/-- `CopyFrom` for the bytes at a pointer, which may be null. -/
def copyFrom (copier : Copier) (sample : PreparationDataSample) (data : Option (List UInt8)) :
    PreparationDataSample × Result :=
  match data with
  | none => (sample,.errPointer)
  | some source =>
    match copier sample.memory source with
    | some copied =>
      ({sample with memory := copied.val, dataSize := source.length, fits := copied.property.length_le},.errNoError)
    | none => (sample,.errMemory)

variable {allocate : Allocator} {copier : Copier} {sample : PreparationDataSample} {size : Nat} {source : List UInt8}

@[simp] theorem length_data : sample.data.length = sample.dataSize := by
  have hfits := sample.fits
  rw [data,length_take]
  omega

theorem adaptSize_of_le (h : size ≤ sample.memory.length) :
    sample.adaptSize allocate size = {sample with dataSize := size, fits := h} := by
  rw [adaptSize,dif_neg (Nat.not_lt.mpr h)]

theorem length_memory_adaptSize : sample.memory.length ≤ (sample.adaptSize allocate size).memory.length := by
  unfold adaptSize
  split
  · rename_i hlt
    split
    · rename_i block _
      rw [block.property]
      exact le_of_lt hlt
    · exact le_refl _
  · exact le_refl _

@[simp] theorem length_memory_copy : (sample.copy source).memory.length = sample.memory.length := by
  unfold copy
  split
  · simp only [length_append,length_drop]
    omega
  · rfl

@[simp] theorem signalHandle_adaptSize : (sample.adaptSize allocate size).signalHandle = sample.signalHandle := by
  unfold adaptSize
  repeat' split
  all_goals rfl

@[simp] theorem signalHandle_copy : (sample.copy source).signalHandle = sample.signalHandle := by
  unfold copy
  split <;> rfl

theorem adaptSize_eq_self_iff (h : sample.dataSize ≠ size) :
    sample.adaptSize allocate size = sample ↔ sample.memory.length < size ∧ allocate size = none := by
  unfold adaptSize
  constructor
  · intro hsame
    split at hsame
    · rename_i hlt
      split at hsame
      · exact absurd (congrArg dataSize hsame).symm h
      · rename_i hnone
        exact ⟨hlt,hnone⟩
    · exact absurd (congrArg dataSize hsame).symm h
  · rintro ⟨hlt,hnone⟩
    rw [dif_pos hlt]
    simp only [hnone]

theorem data_copy_adaptSize (h : source.length ≤ sample.memory.length) :
    ((sample.adaptSize allocate source.length).copy source).data = source := by
  rw [adaptSize_of_le h,copy,dif_pos h,data]
  exact take_left

theorem data_eq_nil (h : sample.dataSize = 0) : sample.data = [] := by rw [data,h,take_zero]

@[simp] theorem signalHandle_setSize : (sample.setSize allocate size).1.signalHandle = sample.signalHandle := by
  unfold setSize
  split <;> rfl

@[simp] theorem signalHandle_copyFrom {data : Option (List UInt8)} :
    (sample.copyFrom copier data).1.signalHandle = sample.signalHandle := by
  unfold copyFrom
  repeat' split
  all_goals rfl

@[simp] theorem timeStamp_copyFrom {data : Option (List UInt8)} :
    (sample.copyFrom copier data).1.timeStamp = sample.timeStamp := by
  unfold copyFrom
  repeat' split
  all_goals rfl

theorem data_copyFrom (h : (copier sample.memory source).isSome) :
    (sample.copyFrom copier (some source)).1.data = source := by
  obtain ⟨copied,hcopied⟩ := Option.isSome_iff_exists.mp h
  simp only [copyFrom,hcopied,data]
  exact (prefix_iff_eq_take.mp copied.property).symm

theorem data_copy (h : sample.dataSize = source.length) : (sample.copy source).data = source := by
  have hfits := sample.fits
  rw [h] at hfits
  rw [copy,dif_pos hfits,data]
  simp only [h]
  exact take_left

end PreparationDataSample

/-- The system a participant runs on, and the major version of its library. -/
structure Platform where
  localByteorder : ByteOrder
  participantVersionMajor : UInt8
  allocate : Allocator

/-- A transmitter has the options of its signal as a receiver has, and an encoder for serialized data. -/
structure Transmitter where
  config : ReceiverConfig
  encode : List UInt8 → List UInt8
  sendSample : List UInt8

/-- What `TransmitData` leaves behind and hands to the driver. -/
structure Transmitted where
  transmitter : Transmitter
  packet : Option (List UInt8)
  result : Result
  incidents : List IncidentCode

/-- The bytes of a block from an offset on replaced by others, as far as they are in the block. -/
def overwrite (block : List UInt8) (offset : Nat) (source : List UInt8) : List UInt8 :=
  (block.take offset ++ source ++ block.drop (offset + source.length)).take block.length

namespace Transmitter

/-- The serialization mode of the signal and the byte order of the system. -/
def serAndByteOrderFlags (platform : Platform) (transmitter : Transmitter) : UInt8 :=
  (if transmitter.config.disableDdlSerialization then serializationRaw else serializationDdl) |||
    platform.localByteorder.flag

/-- The header of a sample; the minor version is whatever was in the memory before. -/
def header (platform : Platform) (transmitter : Transmitter) (block : List UInt8) (sample : PreparationDataSample) :
    FepDataHeader where
  majorVersion := platform.participantVersionMajor
  minorVersion := block.getD 1 0
  serAndByteOrderFlags := transmitter.serAndByteOrderFlags platform
  sync := if sample.syncFlag then 1 else 0
  unused := 0
  sampleNumber := sample.sampleNumberInFrame
  frameId := sample.frameId
  sendTimeStamp := sample.timeStamp

def writeHeader (platform : Platform) (transmitter : Transmitter) (block : List UInt8)
    (sample : PreparationDataSample) : Transmitter :=
  { transmitter with
    sendSample := (transmitter.header platform block sample).encode platform.localByteorder ++
      block.drop FepDataHeader.size }

/-- A raw signal gets a memory block of the size of the sample, any other has to be of its own size. -/
def fillFepDataHeader (platform : Platform) (transmitter : Transmitter) (sample : PreparationDataSample) :
    Transmitter × Result × List IncidentCode :=
  if FepDataHeader.size + sample.dataSize ≠ transmitter.sendSample.length then
    if transmitter.config.raw then
      match platform.allocate (sample.dataSize + FepDataHeader.size) with
      | some block => (transmitter.writeHeader platform block.val sample,.errNoError,[])
      | none => ({transmitter with sendSample := []},.errMemory,[])
    else (transmitter,.errNotSupported,[.fsiTransmTxWrongSampleSize])
  else (transmitter.writeHeader platform transmitter.sendSample sample,.errNoError,[])

def fillData (transmitter : Transmitter) (data : List UInt8) : Transmitter :=
  if transmitter.config.disableDdlSerialization then
    if data.length ≤ transmitter.sendSample.length then
      {transmitter with sendSample := overwrite transmitter.sendSample FepDataHeader.size data}
    else transmitter
  else
    { transmitter with
      sendSample := overwrite transmitter.sendSample FepDataHeader.size (transmitter.encode data) }

/-- The data are copied whether or not the header was filled; `transmits` is the answer of the driver. -/
def transmitData (platform : Platform) (transmitter : Transmitter) (sample : PreparationDataSample)
    (transmits : Bool) : Transmitted :=
  let filled := transmitter.fillFepDataHeader platform sample
  let transmitter := filled.1.fillData sample.data
  if isOk filled.2.1 then
    if transmits then ⟨transmitter,some transmitter.sendSample,filled.2.1,filled.2.2⟩
    else ⟨transmitter,some transmitter.sendSample,.errFailed,filled.2.2 ++ [.fsiTransmDataTxFailed]⟩
  else ⟨transmitter,none,filled.2.1,filled.2.2⟩

section
variable {platform : Platform} {transmitter : Transmitter} {sample : PreparationDataSample} {transmits : Bool}
  {packet : List UInt8}

private theorem overwrite_header {front block source : List UInt8} (hfront : front.length = FepDataHeader.size)
    (hblock : block.length = FepDataHeader.size + source.length) :
    overwrite (front ++ block.drop FepDataHeader.size) FepDataHeader.size source = front ++ source := by
  have hrest : (front ++ block.drop FepDataHeader.size).drop (FepDataHeader.size + source.length) = [] := by
    apply drop_eq_nil_of_le
    simp only [length_append,length_drop]
    omega
  rw [overwrite,hrest,append_nil,take_left' hfront]
  apply take_of_length_le
  simp only [length_append,length_drop]
  omega

theorem fillData_writeHeader {block : List UInt8} (hraw : transmitter.config.disableDdlSerialization = true)
    (hblock : block.length = FepDataHeader.size + sample.dataSize) :
    ((transmitter.writeHeader platform block sample).fillData sample.data).sendSample =
      (transmitter.header platform block sample).encode platform.localByteorder ++ sample.data := by
  have hlength := FepDataHeader.length_encode platform.localByteorder (transmitter.header platform block sample)
  have hdata : sample.data.length = sample.dataSize := PreparationDataSample.length_data
  unfold fillData writeHeader
  rw [if_pos hraw,if_pos]
  · apply overwrite_header hlength
    rw [hblock,hdata]
  · simp only [length_append,length_drop]
    omega

private theorem fillFepDataHeader_ok (h : (transmitter.fillFepDataHeader platform sample).2.1 = .errNoError) :
    ∃ block : List UInt8, block.length = FepDataHeader.size + sample.dataSize ∧
      (transmitter.fillFepDataHeader platform sample).1 = transmitter.writeHeader platform block sample := by
  unfold fillFepDataHeader at h ⊢
  split
  · rename_i hsize
    rw [if_pos hsize] at h
    split
    · rename_i hraw
      rw [if_pos hraw] at h
      split
      · rename_i block _
        exact ⟨block.val,block.property.trans (add_comm _ _),rfl⟩
      · rename_i hnone
        simp only [hnone,reduceCtorEq] at h
    · rename_i hraw
      rw [if_neg hraw] at h
      cases h
  · rename_i hsize
    exact ⟨transmitter.sendSample,(Classical.not_not.mp hsize).symm,rfl⟩

theorem packet_eq (hraw : transmitter.config.disableDdlSerialization = true)
    (h : (transmitter.transmitData platform sample transmits).packet = some packet) : ∃ block : List UInt8, packet =
      (transmitter.header platform block sample).encode platform.localByteorder ++ sample.data := by
  unfold transmitData at h
  dsimp only at h
  split at h
  · rename_i hok
    obtain ⟨block,hblock,hfilled⟩ := fillFepDataHeader_ok ((isOk_iff _).mp hok)
    refine ⟨block,?_⟩
    rw [hfilled,fillData_writeHeader hraw hblock] at h
    split at h <;> exact (Option.some.inj h).symm
  · cases h

theorem packet_isSome (hraw : transmitter.config.raw = true)
    (hmemory : (platform.allocate (sample.dataSize + FepDataHeader.size)).isSome) :
    (transmitter.transmitData platform sample transmits).packet.isSome := by
  have hok : (transmitter.fillFepDataHeader platform sample).2.1 = .errNoError := by
    obtain ⟨block,hblock⟩ := Option.isSome_iff_exists.mp hmemory
    unfold fillFepDataHeader
    simp only [hraw,if_true,hblock]
    split <;> rfl
  unfold transmitData
  rw [if_pos ((isOk_iff _).mpr hok)]
  split <;> rfl

end

end Transmitter

end FepParticipant.Transmission
