import FepParticipant.Transmission.Transmitter
import Mathlib.Data.List.GetD

/-! How a receiver processes a packet: it checks the header, and copies the data into the one sample that it hands to
its listeners. Raw data sent with a header reach them unchanged, and other packets are dropped. -/
namespace FepParticipant.Transmission
open Nat List PreparationDataSample FepDataHeader

/-- A receiver with the one sample it copies all data into. Of its history, what its listeners were given. -/
structure DataReceiver where
  config : ReceiverConfig
  decode : List UInt8 → List UInt8
  currentDataSample : PreparationDataSample
  delivered : List DataSample
  fits : config.size ≤ currentDataSample.memory.length

/-- What `Process` leaves behind, and how many bytes from the start of the packet on it has read. -/
structure Processed where
  receiver : DataReceiver
  result : Result
  incident : Option IncidentCode
  readBytes : Nat

/-- The size of the data behind the header, as a 64 bit number without sign. -/
def payloadSize (size : Nat) : Nat :=
  if FepDataHeader.size ≤ size then size - FepDataHeader.size else 2 ^ 64 - (FepDataHeader.size - size)

namespace DataReceiver

/-- The receiver with another sample, whose memory is not smaller. -/
def setSample (receiver : DataReceiver) (sample : PreparationDataSample)
    (h : receiver.currentDataSample.memory.length ≤ sample.memory.length) : DataReceiver :=
  {receiver with currentDataSample := sample, fits := le_trans receiver.fits h}

def adaptSize (platform : Platform) (receiver : DataReceiver) (size : Nat) : DataReceiver :=
  receiver.setSample (receiver.currentDataSample.adaptSize platform.allocate size)
    length_memory_adaptSize

/-- The data of a packet copied into the current sample. -/
def copy (receiver : DataReceiver) (source : List UInt8) : DataReceiver :=
  receiver.setSample (receiver.currentDataSample.copy source)
    (le_of_eq length_memory_copy.symm)

/-- The fields of the header in the current sample, converted to the byte order of the system. -/
def setFields (platform : Platform) (receiver : DataReceiver) (header : FepDataHeader) : DataReceiver :=
  let byteOrderFlag := getByteOrderFlag header.serAndByteOrderFlags
  let convert := convertToCorrectByteorder platform.localByteorder byteOrderFlag
  receiver.setSample
    { receiver.currentDataSample with
      syncFlag := header.sync != 0
      frameId := .ofNat (convert 8 header.frameId.toNat)
      sampleNumberInFrame := .ofNat (convert 2 header.sampleNumber.toNat)
      timeStamp := (UInt64.ofNat (convert 8 header.sendTimeStamp.toUInt64.toNat)).toInt64 }
    (le_refl _)

def updateListeners (receiver : DataReceiver) : DataReceiver :=
  {receiver with delivered := receiver.delivered ++ [receiver.currentDataSample.toDataSample]}

def deliver (platform : Platform) (receiver : DataReceiver) (header : FepDataHeader) (readBytes : Nat) : Processed :=
  ⟨(receiver.setFields platform header).updateListeners,.errNoError,none,readBytes⟩

/-- The part of `Process` behind the check of the size. -/
def processData (platform : Platform) (receiver : DataReceiver) (header : FepDataHeader)
    (memory : List UInt8) (size : Nat) : Processed :=
  let byteOrderFlag := getByteOrderFlag header.serAndByteOrderFlags
  let serializationFlag := getSerializationFlag header.serAndByteOrderFlags
  let data := (memory.drop FepDataHeader.size).take (payloadSize size)
  if serializationFlag = serializationDdl then
    if receiver.config.disableDdlSerialization then
      ⟨receiver,.errInvalidFlags,some .fsiTransmFepProtoWrongSerMode,FepDataHeader.size⟩
    else (receiver.copy (receiver.decode data)).deliver platform header (FepDataHeader.size + payloadSize size)
  else if serializationFlag = serializationRaw then
    if receiver.config.disableDdlSerialization ∧ byteOrderFlag = platform.localByteorder.flag then
      if payloadSize size ≤ receiver.currentDataSample.memory.length then
        (receiver.copy data).deliver platform header (FepDataHeader.size + payloadSize size)
      else receiver.deliver platform header FepDataHeader.size
    else ⟨receiver,.errInvalidFlags,some .fsiTransmFepProtoWrongSerMode,FepDataHeader.size⟩
  -- flags of both modes
  else receiver.deliver platform header FepDataHeader.size

/-- `Process` on the memory of a container that starts with a packet of this size. -/
def process (platform : Platform) (receiver : DataReceiver) (memory : List UInt8) (size : Nat) : Processed :=
  let header := FepDataHeader.decode platform.localByteorder memory
  let byteOrderFlag := getByteOrderFlag header.serAndByteOrderFlags
  let serializationFlag := getSerializationFlag header.serAndByteOrderFlags
  if header.majorVersion ≠ platform.participantVersionMajor then
    ⟨receiver,.errInvalidVersion,some .fsiTransmSampleVersionFailed,4⟩
  else if byteOrderFlag = 0 ∨ serializationFlag = 0 then
    ⟨receiver,.errInvalidFlags,some .fsiTransmFepProtoCorruptHeader,4⟩
  else if FepDataHeader.size + receiver.currentDataSample.dataSize ≠ size then
    if receiver.config.raw then
      (receiver.adaptSize platform (payloadSize size)).processData platform header memory size
    else ⟨receiver,.errInvalidFlags,some .fsiTransmFepProtoCorruptHeader,FepDataHeader.size⟩
  else receiver.processData platform header memory size

variable {platform : Platform} {receiver : DataReceiver} {header : FepDataHeader} {memory packet : List UInt8}
  {size : Nat}

/-- The packet has a header as a transmitter of raw data on the same system writes it. -/
structure Matches (platform : Platform) (packet : List UInt8) : Prop where
  size_le : FepDataHeader.size ≤ packet.length
  version : packet.getD 0 0 = platform.participantVersionMajor
  byteOrder : getByteOrderFlag (packet.getD 2 0) = platform.localByteorder.flag
  serialization : getSerializationFlag (packet.getD 2 0) = serializationRaw

/-- The first checks fail: the version is another, or a flag is missing. -/
def Rejects (platform : Platform) (header : FepDataHeader) : Prop :=
  header.majorVersion ≠ platform.participantVersionMajor ∨
    getByteOrderFlag header.serAndByteOrderFlags = 0 ∨ getSerializationFlag header.serAndByteOrderFlags = 0

def KeepsSize (platform : Platform) (receiver : DataReceiver) (size : Nat) : Prop :=
  FepDataHeader.size + receiver.currentDataSample.dataSize = size ∨
    receiver.currentDataSample.memory.length < payloadSize size ∧ platform.allocate (payloadSize size) = none

theorem process_of_rejects (h : Rejects platform (FepDataHeader.decode platform.localByteorder memory)) :
    (receiver.process platform memory size).receiver = receiver ∧
      (receiver.process platform memory size).readBytes = 4 := by
  unfold process
  dsimp only
  split
  · exact ⟨rfl,rfl⟩
  · rename_i hversion
    rw [if_pos (h.resolve_left hversion)]
    exact ⟨rfl,rfl⟩

/-- The receiver that goes into the remaining checks. -/
def adapted (platform : Platform) (receiver : DataReceiver) (size : Nat) : DataReceiver :=
  if FepDataHeader.size + receiver.currentDataSample.dataSize ≠ size then
    receiver.adaptSize platform (payloadSize size)
  else receiver

theorem process_of_not_rejects (hraw : receiver.config.raw = true)
    (h : ¬Rejects platform (FepDataHeader.decode platform.localByteorder memory)) :
    receiver.process platform memory size = (receiver.adapted platform size).processData platform
        (FepDataHeader.decode platform.localByteorder memory) memory size := by
  unfold process adapted
  rw [if_neg (fun hversion => h (.inl hversion)),if_neg (fun hflags => h (.inr hflags)),if_pos hraw]
  split <;> rfl

theorem size_le_readBytes_processData :
    FepDataHeader.size ≤ (receiver.processData platform header memory size).readBytes := by
  unfold processData deliver
  dsimp only
  repeat' split
  all_goals first | exact le_refl _ | exact le_add_right _ _

theorem processData_dropped (hserialization : receiver.config.disableDdlSerialization = true)
    (h : getSerializationFlag header.serAndByteOrderFlags = serializationDdl ∨
      getSerializationFlag header.serAndByteOrderFlags = serializationRaw ∧
        getByteOrderFlag header.serAndByteOrderFlags ≠ platform.localByteorder.flag) :
    (receiver.processData platform header memory size).receiver = receiver ∧
      (receiver.processData platform header memory size).readBytes = FepDataHeader.size := by
  unfold processData
  rcases h with hddl | ⟨hraw,horder⟩
  · rw [if_pos hddl,if_pos hserialization]
    exact ⟨rfl,rfl⟩
  · rw [hraw,if_neg (by decide),if_pos rfl,if_neg (fun hboth => horder hboth.2)]
    exact ⟨rfl,rfl⟩

private theorem length_delivered_deliver {readBytes : Nat} :
    (receiver.deliver platform header readBytes).receiver.delivered.length = receiver.delivered.length + 1 := by
  simp [deliver,updateListeners,setFields,setSample]

theorem processData_delivered (hserialization : receiver.config.disableDdlSerialization = true)
    (hddl : getSerializationFlag header.serAndByteOrderFlags ≠ serializationDdl)
    (hraw : getSerializationFlag header.serAndByteOrderFlags = serializationRaw →
      getByteOrderFlag header.serAndByteOrderFlags = platform.localByteorder.flag) :
    (receiver.processData platform header memory size).receiver.delivered.length = receiver.delivered.length + 1 := by
  unfold processData
  rw [if_neg hddl]
  split
  · rename_i hflag
    rw [if_pos ⟨hserialization,hraw hflag⟩]
    split
    · exact length_delivered_deliver
    · exact length_delivered_deliver
  · exact length_delivered_deliver

private theorem setSample_eq_self_iff {sample : PreparationDataSample}
    (h : receiver.currentDataSample.memory.length ≤ sample.memory.length) :
    receiver.setSample sample h = receiver ↔ sample = receiver.currentDataSample := by
  constructor
  · intro hsame
    exact congrArg currentDataSample hsame
  · rintro rfl
    rfl

@[simp] theorem adapted_config : (receiver.adapted platform size).config = receiver.config := by
  unfold adapted
  split <;> rfl

@[simp] theorem adapted_delivered : (receiver.adapted platform size).delivered = receiver.delivered := by
  unfold adapted
  split <;> rfl

theorem adapted_eq_self_iff (hsize : FepDataHeader.size ≤ size) :
    receiver.adapted platform size = receiver ↔ receiver.KeepsSize platform size := by
  have hpayload : payloadSize size = size - FepDataHeader.size := if_pos hsize
  unfold adapted KeepsSize
  split
  · rename_i hother
    have hne : receiver.currentDataSample.dataSize ≠ payloadSize size := by omega
    rw [or_iff_right hother,← adaptSize_eq_self_iff hne]
    exact setSample_eq_self_iff _
  · rename_i hsame
    exact iff_of_true rfl (.inl (Classical.not_not.mp hsame))

/-- The packet is dropped: nothing changes, and nothing behind its end is read. -/
def Drops (platform : Platform) (receiver : DataReceiver) (packet rest : List UInt8) : Prop :=
  (receiver.process platform (packet ++ rest) packet.length).receiver = receiver ∧
    (receiver.process platform (packet ++ rest) packet.length).readBytes ≤ packet.length

/-- The checks of the header drop the packet before the current sample is adapted to it, or adapting changes
nothing. -/
def DroppedByChecks (platform : Platform) (receiver : DataReceiver) (packet : List UInt8) : Prop :=
  4 ≤ packet.length ∧
    (packet.getD 0 0 ≠ platform.participantVersionMajor ∨
      getByteOrderFlag (packet.getD 2 0) = 0 ∨ getSerializationFlag (packet.getD 2 0) = 0 ∨
      FepDataHeader.size ≤ packet.length ∧ receiver.KeepsSize platform packet.length ∧
        (getSerializationFlag (packet.getD 2 0) = serializationDdl ∨
          getSerializationFlag (packet.getD 2 0) = serializationRaw))

theorem four_le_readBytes (hraw : receiver.config.raw = true) :
    4 ≤ (receiver.process platform memory size).readBytes := by
  by_cases hrejects : Rejects platform (FepDataHeader.decode platform.localByteorder memory)
  · rw [(process_of_rejects hrejects).2]
  · rw [process_of_not_rejects hraw hrejects]
    exact le_trans (by decide) size_le_readBytes_processData

theorem decode_append_rest (rest : List UInt8) (h : 4 ≤ packet.length) :
    (FepDataHeader.decode platform.localByteorder (packet ++ rest)).majorVersion = packet.getD 0 0 ∧
      (FepDataHeader.decode platform.localByteorder (packet ++ rest)).serAndByteOrderFlags = packet.getD 2 0 :=
  ⟨getD_append _ _ _ _ (by omega),getD_append _ _ _ _ (by omega)⟩

theorem processData_drops_iff (hserialization : receiver.config.disableDdlSerialization = true)
    (hsize : FepDataHeader.size ≤ size)
    (hunmatched : getSerializationFlag header.serAndByteOrderFlags = serializationRaw →
      getByteOrderFlag header.serAndByteOrderFlags ≠ platform.localByteorder.flag) :
    (((receiver.adapted platform size).processData platform header memory size).receiver = receiver ∧
      ((receiver.adapted platform size).processData platform header memory size).readBytes ≤ size) ↔
      receiver.KeepsSize platform size ∧ (getSerializationFlag header.serAndByteOrderFlags = serializationDdl ∨
          getSerializationFlag header.serAndByteOrderFlags = serializationRaw) := by
  have hadapted : (receiver.adapted platform size).config.disableDdlSerialization = true := by
    rw [adapted_config,hserialization]
  rw [← adapted_eq_self_iff hsize]
  by_cases hflag : getSerializationFlag header.serAndByteOrderFlags = serializationDdl ∨
      getSerializationFlag header.serAndByteOrderFlags = serializationRaw
  · obtain ⟨hreceiver,hread⟩ := @processData_dropped platform (receiver.adapted platform size) header memory size
      hadapted (hflag.imp id fun hraw => ⟨hraw,hunmatched hraw⟩)
    rw [hreceiver,hread]
    exact ⟨fun h => ⟨h.1,hflag⟩,fun h => ⟨h.1,hsize⟩⟩
  · obtain ⟨hddl,hraw⟩ := not_or.mp hflag
    have hlength := @processData_delivered platform (receiver.adapted platform size) header memory size
      hadapted hddl (fun h => absurd h hraw)
    rw [adapted_delivered] at hlength
    refine iff_of_false (fun h => ?_) fun h => hflag h.2
    rw [h.1] at hlength
    omega

theorem drops_iff (hraw : receiver.config.raw = true)
    (hserialization : receiver.config.disableDdlSerialization = true) (rest : List UInt8)
    (hunmatched : ¬Matches platform packet) :
    receiver.Drops platform packet rest ↔ receiver.DroppedByChecks platform packet := by
  unfold Drops DroppedByChecks
  by_cases hfour : 4 ≤ packet.length
  case neg =>
    refine iff_of_false (fun h => hfour ?_) fun h => hfour h.1
    exact le_trans (four_le_readBytes hraw) h.2
  obtain ⟨hversion,hflags⟩ := @decode_append_rest platform packet rest hfour
  rw [← hversion,← hflags,and_iff_right hfour]
  by_cases hrejects : Rejects platform (FepDataHeader.decode platform.localByteorder (packet ++ rest))
  · obtain ⟨hreceiver,hread⟩ := @process_of_rejects platform receiver _ packet.length hrejects
    rw [hreceiver,hread]
    refine iff_of_true ⟨rfl,hfour⟩ ?_
    exact hrejects.imp id fun h => h.imp id .inl
  · rw [process_of_not_rejects hraw hrejects]
    obtain ⟨hmajor,hnone⟩ := not_or.mp hrejects
    obtain ⟨horder,hmode⟩ := not_or.mp hnone
    rw [or_iff_right hmajor,or_iff_right horder,or_iff_right hmode]
    by_cases hsize : FepDataHeader.size ≤ packet.length
    · rw [and_iff_right hsize]
      refine processData_drops_iff hserialization hsize fun hmode' horder' => hunmatched ?_
      refine ⟨hsize,?_,?_,?_⟩
      · rw [← hversion]
        exact Classical.not_not.mp hmajor
      · rw [← hflags,horder']
      · rw [← hflags,hmode']
    · refine iff_of_false (fun h => hsize ?_) fun h => hsize h.1
      exact le_trans size_le_readBytes_processData h.2

section
variable {transmitter : Transmitter} {data : List UInt8}

theorem deliver_delivered {readBytes : Nat}
    (horder : getByteOrderFlag header.serAndByteOrderFlags = platform.localByteorder.flag) :
    (receiver.deliver platform header readBytes).receiver.delivered = receiver.delivered ++
      [⟨header.sync != 0,header.frameId.toNat,header.sampleNumber.toNat,header.sendTimeStamp.toInt,
        receiver.currentDataSample.signalHandle,receiver.currentDataSample.data⟩] := by
  have hconvert (width n : Nat) : convertToCorrectByteorder platform.localByteorder
      (getByteOrderFlag header.serAndByteOrderFlags) width n = n := if_pos horder
  simp [deliver,updateListeners,setFields,setSample,PreparationDataSample.toDataSample,
    PreparationDataSample.data,hconvert]

theorem payloadSize_add (n : Nat) : payloadSize (FepDataHeader.size + n) = n := by
  rw [payloadSize,if_pos (Nat.le_add_right _ _),Nat.add_sub_cancel_left]

theorem adapted_copy_data (hdata : data.length ≤ receiver.currentDataSample.memory.length) :
    ((receiver.adapted platform (FepDataHeader.size + data.length)).copy data).currentDataSample.data = data := by
  unfold adapted
  split
  · rw [payloadSize_add]
    exact data_copy_adaptSize hdata
  · rename_i hsame
    apply data_copy
    omega

theorem adapted_copy_signalHandle : ((receiver.adapted platform size).copy data).currentDataSample.signalHandle =
      receiver.currentDataSample.signalHandle := by
  unfold adapted
  split
  · exact signalHandle_copy.trans signalHandle_adaptSize
  · exact signalHandle_copy

theorem flags_of_raw (hserialization : transmitter.config.disableDdlSerialization = true) :
    getByteOrderFlag (transmitter.serAndByteOrderFlags platform) = platform.localByteorder.flag ∧
      getSerializationFlag (transmitter.serAndByteOrderFlags platform) = serializationRaw := by
  rw [Transmitter.serAndByteOrderFlags,if_pos hserialization]
  cases platform.localByteorder <;> decide

theorem process_data (hraw : receiver.config.raw = true)
    (hserialization : receiver.config.disableDdlSerialization = true)
    (hversion : header.majorVersion = platform.participantVersionMajor)
    (horder : getByteOrderFlag header.serAndByteOrderFlags = platform.localByteorder.flag)
    (hmode : getSerializationFlag header.serAndByteOrderFlags = serializationRaw)
    (hdata : data.length ≤ receiver.config.size) (rest : List UInt8) :
    receiver.process platform (header.encode platform.localByteorder ++ data ++ rest)
    (FepDataHeader.size + data.length) =
      ((receiver.adapted platform (FepDataHeader.size + data.length)).copy data).deliver platform header
        (FepDataHeader.size + data.length) := by
  have hdecode := decode_encode_append platform.localByteorder header (data ++ rest)
  have hdrop : (header.encode platform.localByteorder ++ (data ++ rest)).drop FepDataHeader.size = data ++ rest :=
    drop_left' (length_encode _ _)
  have hmemory : data.length ≤
      (receiver.adapted platform (FepDataHeader.size + data.length)).currentDataSample.memory.length := by
    have hfits := (receiver.adapted platform (FepDataHeader.size + data.length)).fits
    rw [adapted_config] at hfits
    exact le_trans hdata hfits
  rw [append_assoc,process_of_not_rejects hraw,hdecode]
  · unfold processData
    rw [hmode,if_neg (by decide),if_pos rfl,adapted_config,if_pos ⟨hserialization,horder⟩,payloadSize_add,
      if_pos hmemory,hdrop,take_left]
  · rw [hdecode]
    rintro (hother | hnone | hnone)
    · exact hother hversion
    · rw [horder] at hnone
      revert hnone
      cases platform.localByteorder <;> decide
    · rw [hmode] at hnone
      revert hnone
      decide

end

/-- The sample with the handle of another signal. -/
def asReceived (receiver : DataReceiver) (sample : PreparationDataSample) : DataSample :=
  {sample.toDataSample with signalHandle := receiver.currentDataSample.signalHandle}

theorem process_transmitData {transmitter : Transmitter} {sender : Platform} {sample : PreparationDataSample}
    {transmits : Bool} (hraw : receiver.config.raw = true)
    (hserialization : receiver.config.disableDdlSerialization = true)
    (hsends : transmitter.config.disableDdlSerialization = true)
    (horder : sender.localByteorder = platform.localByteorder)
    (hversion : sender.participantVersionMajor = platform.participantVersionMajor)
    (hsample : sample.dataSize ≤ receiver.config.size) (rest : List UInt8)
    (hpacket : (transmitter.transmitData sender sample transmits).packet = some packet) :
    (receiver.process platform (packet ++ rest) packet.length).receiver.delivered =
        receiver.delivered ++ [receiver.asReceived sample] ∧
      (receiver.process platform (packet ++ rest) packet.length).readBytes = packet.length := by
  obtain ⟨block,rfl⟩ := Transmitter.packet_eq hsends hpacket
  have hlength : sample.data.length = sample.dataSize := length_data
  have hdata : sample.data.length ≤ receiver.config.size := by
    rw [hlength]
    exact hsample
  obtain ⟨hflag,hmode⟩ := @flags_of_raw sender transmitter hsends
  rw [horder] at hflag ⊢
  rw [length_append,length_encode]
  rw [process_data hraw hserialization hversion hflag hmode hdata rest,deliver_delivered hflag,
    adapted_copy_signalHandle,adapted_copy_data (le_trans hdata receiver.fits)]
  refine ⟨?_,rfl⟩
  have hdelivered : ((receiver.adapted platform (FepDataHeader.size + sample.data.length)).copy
      sample.data).delivered = receiver.delivered := adapted_delivered
  rw [hdelivered]
  cases hsync : sample.syncFlag <;> simp [asReceived,PreparationDataSample.toDataSample,Transmitter.header,hsync]

/-- Every raw sample that fits the signal arrives as it was sent, whatever was handled before; a packet with a wrong
header is dropped exactly when the checks drop it. -/
theorem raw_signal_round_trip (platform : Platform) (receiver : DataReceiver) (hraw : receiver.config.raw = true)
    (hserialization : receiver.config.disableDdlSerialization = true) :
    (∀ (transmitter : Transmitter) (sender : Platform) (sample : PreparationDataSample) (transmits : Bool),
      transmitter.config.raw = true → transmitter.config.disableDdlSerialization = true →
      sender.localByteorder = platform.localByteorder →
      sender.participantVersionMajor = platform.participantVersionMajor →
      sample.dataSize ≤ receiver.config.size →
      ((sender.allocate (sample.dataSize + FepDataHeader.size)).isSome →
        (transmitter.transmitData sender sample transmits).packet.isSome) ∧
      ∀ packet rest : List UInt8, (transmitter.transmitData sender sample transmits).packet = some packet →
        (receiver.process platform (packet ++ rest) packet.length).receiver.delivered =
            receiver.delivered ++ [receiver.asReceived sample] ∧
          (receiver.process platform (packet ++ rest) packet.length).readBytes = packet.length) ∧
    ∀ packet rest : List UInt8, ¬Matches platform packet →
      (receiver.Drops platform packet rest ↔ receiver.DroppedByChecks platform packet) := by
  refine ⟨fun transmitter sender sample transmits hsender hsends horder hversion hsample => ⟨?_,?_⟩,?_⟩
  · exact Transmitter.packet_isSome hsender
  · intro packet rest hpacket
    exact process_transmitData hraw hserialization hsends horder hversion hsample rest hpacket
  · intro packet rest hunmatched
    exact drops_iff hraw hserialization rest hunmatched

private def system : Platform :=
  ⟨.le,3,fun size => if size < 2 ^ 32 then some ⟨List.replicate size 0,length_zeros size⟩ else none⟩

private def fourByteReceiver : DataReceiver :=
  ⟨⟨true,true,4⟩,id,⟨false,0,0,0,0,[0,0,0,0],4,by decide⟩,[],by decide⟩

private def fourByteTransmitter : Transmitter := ⟨⟨true,true,4⟩,id,List.replicate 28 0⟩

theorem raw_signal_round_trip_three_bytes : ∃ packet : List UInt8,
    (fourByteTransmitter.transmitData system ⟨true,7,3,-5,0,[1,2,3,9],3,by decide⟩ true).packet = some packet ∧
      (fourByteReceiver.process system (packet ++ []) packet.length).receiver.delivered =
        [⟨true,7,3,-5,0,[1,2,3]⟩] := by
  have hboth := (raw_signal_round_trip system fourByteReceiver rfl rfl).1 fourByteTransmitter system
    ⟨true,7,3,-5,0,[1,2,3,9],3,by decide⟩ true rfl rfl rfl rfl (by decide)
  obtain ⟨packet,hpacket⟩ := Option.isSome_iff_exists.mp (hboth.1 rfl)
  refine ⟨packet,hpacket,?_⟩
  rw [(hboth.2 packet [] hpacket).1]
  rfl

/-- A packet of eight bytes with the right version and flags is processed as if it had a whole header. -/
theorem short_packet_not_dropped :
    ¬∀ packet rest : List UInt8, ¬Matches system packet → fourByteReceiver.Drops system packet rest := by
  intro h
  have hdrops := h [3,0,9,1,0,0,0,0] (List.replicate 20 0) fun hmatches => absurd hmatches.size_le (by decide)
  have hread : ¬(fourByteReceiver.process system ([3,0,9,1,0,0,0,0] ++ List.replicate 20 0) 8).readBytes ≤ 8 := by
    decide +kernel
  exact hread hdrops.2

end DataReceiver

end FepParticipant.Transmission
