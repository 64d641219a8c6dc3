import FepParticipant.Library.MachineWord
import FepParticipant.Library.Chunks

/-! Samples cut into fragments by a writer and put together by a reader, byte by byte.
The protocol version and the fragmentation boundary are template parameters of both. -/
namespace FepParticipant.Transmission
open Library List Nat

/-- The packed fragment header. -/
structure Fragment where
  magic : Nat
  version : Nat
  padding : Nat
  senderId : Nat
  sampleNumber : Nat
  sampleSize : Nat
  size : Nat
  index : Nat

namespace Fragment

def magicNumber : Nat := 0xABADCAFE

/-- `sizeof(Fragment)`. -/
def sizeofFragment : Nat := 34

/-- The bytes of the header. -/
def encode (fragment : Fragment) : List UInt8 :=
  littleEndian 8 fragment.magic ++ (littleEndian 1 fragment.version ++
  (littleEndian 3 fragment.padding ++ (littleEndian 8 fragment.senderId ++
  (littleEndian 4 fragment.sampleNumber ++ (littleEndian 4 fragment.sampleSize ++
  (littleEndian 4 fragment.size ++ littleEndian 2 fragment.index))))))

/-- The header at the front of a memory block and what follows it. -/
def decode (bytes : List UInt8) : Fragment × List UInt8 :=
  let (magic,bytes) := takeField 8 bytes
  let (version,bytes) := takeField 1 bytes
  let (padding,bytes) := takeField 3 bytes
  let (senderId,bytes) := takeField 8 bytes
  let (sampleNumber,bytes) := takeField 4 bytes
  let (sampleSize,bytes) := takeField 4 bytes
  let (size,bytes) := takeField 4 bytes
  let (index,bytes) := takeField 2 bytes
  (⟨magic,version,padding,senderId,sampleNumber,sampleSize,size,index⟩,bytes)

/-- Every field fits its type. -/
structure InRange (fragment : Fragment) : Prop where
  magic : fragment.magic < 2 ^ 64
  version : fragment.version < 2 ^ 8
  padding : fragment.padding < 2 ^ 24
  senderId : fragment.senderId < 2 ^ 64
  sampleNumber : fragment.sampleNumber < 2 ^ 32
  sampleSize : fragment.sampleSize < 2 ^ 32
  size : fragment.size < 2 ^ 32
  index : fragment.index < 2 ^ 16

@[simp] theorem length_encode (fragment : Fragment) : fragment.encode.length = sizeofFragment := by
  simp [encode,sizeofFragment]

theorem decode_encode {fragment : Fragment} (h : fragment.InRange) (payload : List UInt8) :
    decode (fragment.encode ++ payload) = (fragment,payload) := by
  simp only [encode,decode,append_assoc]
  rw [takeField_append (by simpa using h.magic),takeField_append (by simpa using h.version),
    takeField_append (by simpa using h.padding),takeField_append (by simpa using h.senderId),
    takeField_append (by simpa using h.sampleNumber),takeField_append (by simpa using h.sampleSize),
    takeField_append (by simpa using h.size),takeField_append (by simpa using h.index)]

end Fragment

/-- The header fields a writer keeps in its buffer; the padding is never written. -/
structure FragmentingWriter where
  senderId : Nat
  padding : Nat
  sampleNumber : Nat

/-- The reader; the map of the sample numbers has 0 for a sender it does not know. -/
structure DefragmentingReader where
  buffer : List UInt8
  currentSampleNumbers : Nat → Nat
  remainingSampleSize : Nat

/-- What `receiveSample` is given: the sample, or memory behind the end of the buffer. -/
inductive Report where
  | sample (bytes : List UInt8)
  | beyondBuffer (buffer : List UInt8) (length : Nat)
  deriving DecidableEq

variable (protocolVersion boundary : Nat)

namespace FragmentingWriter

/-- The constructor with `setBuffer`. -/
def new (senderId padding : Nat) : FragmentingWriter := ⟨senderId,padding,0⟩

def maxSampleSize : Nat := boundary * 65535 % 2 ^ 32

/-- The loop of `transmitSample`: the packets transmitted and the fragment index behind it. -/
def transmitLoop (transmits : List UInt8 → Bool) (fragment : Fragment) (source : List UInt8) :
    List (List UInt8) × Nat :=
  if source = [] ∨ boundary = 0 then ([],fragment.index)
  else
    let fragmentSize := min source.length boundary
    let sized := {fragment with size := fragmentSize}
    let packet := sized.encode ++ source.take fragmentSize
    if transmits packet then
      let (packets,index) := transmitLoop transmits
        {sized with index := (fragment.index + 1) % 2 ^ 16} (source.drop fragmentSize)
      (packet::packets,index)
    else ([],fragment.index)
termination_by source.length
decreasing_by
  rename_i hloop _
  rw [not_or] at hloop
  have hlength := length_pos_iff.mpr hloop.1
  rw [length_drop]
  omega

def nextSampleNumber (writer : FragmentingWriter) : Nat := (writer.sampleNumber % 2 ^ 16 + 1) % 2 ^ 16

/-- `transmitSample`, with the packets handed to `transmitFragment` that were transmitted. -/
def transmitSample (writer : FragmentingWriter) (transmits : List UInt8 → Bool) (sample : List UInt8) :
    FragmentingWriter × List (List UInt8) × Nat :=
  if sample.length = 0 ∨ maxSampleSize boundary < sample.length then (writer,[],0)
  else
    let fragment : Fragment :=
      { magic := Fragment.magicNumber
        version := protocolVersion
        padding := writer.padding
        senderId := writer.senderId
        sampleNumber := writer.nextSampleNumber
        sampleSize := sample.length
        size := 0
        index := 0 }
    ({writer with sampleNumber := writer.nextSampleNumber},transmitLoop boundary transmits fragment sample)

end FragmentingWriter

/-- `std::vector::resize`. -/
def resize (buffer : List UInt8) (size : Nat) : List UInt8 :=
  buffer.take size ++ List.replicate (size - buffer.length) 0

namespace DefragmentingReader
variable (reader : DefragmentingReader)
variable (fragment : Fragment)

def new : DefragmentingReader := ⟨List.replicate boundary 0,fun _ => 0,0⟩

/-- A fragment whose sample number is not the recorded one of its sender starts a sample. -/
def opens : Bool := fragment.sampleNumber != reader.currentSampleNumbers fragment.senderId

/-- The number of lost samples that is returned. -/
def lost : Nat :=
  if reader.opens fragment && reader.remainingSampleSize != 0 then
    if fragment.sampleNumber < reader.currentSampleNumbers fragment.senderId then 1
    else fragment.sampleNumber - reader.currentSampleNumbers fragment.senderId
  else 0

def openSample : DefragmentingReader :=
  if reader.opens fragment then
    { buffer := resize reader.buffer fragment.sampleSize
      currentSampleNumbers := fun senderId =>
        if senderId = fragment.senderId then fragment.sampleNumber else reader.currentSampleNumbers senderId
      remainingSampleSize := fragment.sampleSize }
  else reader

/-- The payload is wanted and finds its place. -/
def takes : Bool :=
  decide (fragment.size ≤ reader.remainingSampleSize) &&
    decide (fragment.index * boundary % 2 ^ 32 + fragment.size ≤ reader.buffer.length)

def copyPayload (payload : List UInt8) :
    DefragmentingReader :=
  if reader.takes boundary fragment then
    { reader with
      buffer := writeAt reader.buffer (fragment.index * boundary % 2 ^ 32) (payload.take fragment.size)
      remainingSampleSize := reader.remainingSampleSize - fragment.size }
  else reader

/-- The call of `receiveSample` when nothing remains. -/
def report : Option Report :=
  if reader.remainingSampleSize = 0 then
    some (if fragment.sampleSize ≤ reader.buffer.length then .sample (reader.buffer.take fragment.sampleSize)
      else .beyondBuffer reader.buffer fragment.sampleSize)
  else none

/-- `receiveFragment` for a fragment of this protocol. -/
def acceptFragment (payload : List UInt8) :
    DefragmentingReader × Nat × Option Report :=
  let copied := (reader.openSample fragment).copyPayload boundary fragment payload
  (copied,reader.lost fragment,copied.report fragment)

/-- `receiveFragment`: the number of lost samples and what was passed to `receiveSample`. -/
def receiveFragment (bytes : List UInt8) :
    DefragmentingReader × Nat × Option Report :=
  if bytes.length < Fragment.sizeofFragment then (reader,0,none)
  else
    let (fragment,payload) := Fragment.decode bytes
    if fragment.magic ≠ Fragment.magicNumber ∨ fragment.version ≠ protocolVersion then (reader,0,none)
    else reader.acceptFragment boundary fragment payload

end DefragmentingReader

/-- A sample on the wire with the header fields its fragments share. -/
structure WireSample where
  senderId : Nat
  padding : Nat
  sampleNumber : Nat
  bytes : List UInt8

variable {protocolVersion boundary : Nat}

namespace WireSample

def header (protocolVersion boundary : Nat) (sample : WireSample) (index : Nat) : Fragment where
  magic := Fragment.magicNumber
  version := protocolVersion
  padding := sample.padding
  senderId := sample.senderId
  sampleNumber := sample.sampleNumber
  sampleSize := sample.bytes.length
  size := (chunk boundary sample.bytes index).length
  index := index

/-- The memory block of one fragment. -/
def packet (protocolVersion boundary : Nat) (sample : WireSample) (index : Nat) : List UInt8 :=
  (sample.header protocolVersion boundary index).encode ++ chunk boundary sample.bytes index

/-- A sample the writer accepts, with fields that fit their types. -/
structure Valid (boundary : Nat) (sample : WireSample) : Prop where
  fits : boundary * 65535 < 2 ^ 32
  pos : 0 < sample.bytes.length
  le : sample.bytes.length ≤ boundary * 65535
  senderId : sample.senderId < 2 ^ 64
  padding : sample.padding < 2 ^ 24
  sampleNumber : sample.sampleNumber < 2 ^ 16

namespace Valid

variable {sample : WireSample} {index : Nat}

section
variable (h : sample.Valid boundary)
include h

theorem boundary_pos : 0 < boundary := by
  have hpos := h.pos
  have hle := h.le
  apply pos_of_ne_zero
  rintro rfl
  omega

theorem index_lt (hindex : index * boundary < sample.bytes.length) : index < 65535 := by
  have hlt : index * boundary < 65535 * boundary := by
    have hle := h.le
    rw [mul_comm boundary] at hle
    exact lt_of_lt_of_le hindex hle
  exact Nat.lt_of_mul_lt_mul_right hlt

section
variable (hversion : protocolVersion < 2 ^ 8)
include hversion

section
variable (hindex : index * boundary < sample.bytes.length)
include hindex

private theorem header_inRange : (sample.header protocolVersion boundary index).InRange where
  magic := by
    show Fragment.magicNumber < 2 ^ 64
    decide
  version := hversion
  padding := h.padding
  senderId := h.senderId
  sampleNumber := lt_trans h.sampleNumber (by decide)
  sampleSize := lt_of_le_of_lt h.le h.fits
  size := by
    have hfits := h.fits
    simp only [header,length_chunk]
    omega
  index := lt_trans (h.index_lt hindex) (by decide)

theorem decode_packet : Fragment.decode (sample.packet protocolVersion boundary index) =
      (sample.header protocolVersion boundary index,chunk boundary sample.bytes index) :=
  Fragment.decode_encode (h.header_inRange hversion hindex) _

theorem receive_packet (reader : DefragmentingReader) :
    reader.receiveFragment protocolVersion boundary (sample.packet protocolVersion boundary index) =
      reader.acceptFragment boundary (sample.header protocolVersion boundary index)
        (chunk boundary sample.bytes index) := by
  have hlength : ¬(sample.packet protocolVersion boundary index).length < Fragment.sizeofFragment := by
    simp [packet]
  rw [DefragmentingReader.receiveFragment,if_neg hlength,h.decode_packet hversion hindex]
  exact if_neg (by simp [header])

end

end

theorem chunk_pos (hindex : index * boundary < sample.bytes.length) :
    0 < (chunk boundary sample.bytes index).length := by
  have hpos := h.boundary_pos
  rw [length_chunk]
  omega

end

end Valid
end WireSample

namespace FragmentingWriter

variable {transmits : List UInt8 → Bool}
variable {writer : FragmentingWriter}

def wire (writer : FragmentingWriter) (bytes : List UInt8) : WireSample :=
  ⟨writer.senderId,writer.padding,writer.nextSampleNumber,bytes⟩

/-- The fields of a writer fit their types. -/
structure InRange (writer : FragmentingWriter) : Prop where
  senderId : writer.senderId < 2 ^ 64
  padding : writer.padding < 2 ^ 24

theorem inRange_new {senderId padding : Nat} (hsender : senderId < 2 ^ 64) (hpadding : padding < 2 ^ 24) :
    (new senderId padding).InRange :=
  ⟨hsender,hpadding⟩

theorem InRange.counted {writer : FragmentingWriter} (h : writer.InRange) :
    {writer with sampleNumber := writer.nextSampleNumber : FragmentingWriter}.InRange :=
  ⟨h.senderId,h.padding⟩

theorem InRange.wire_valid {bytes : List UInt8} (h : writer.InRange)
    (hfits : boundary * 65535 < 2 ^ 32) (hpos : 0 < bytes.length) (hle : bytes.length ≤ boundary * 65535) :
    (writer.wire bytes).Valid boundary :=
  ⟨hfits,hpos,hle,h.senderId,h.padding,mod_lt _ (by decide)⟩

theorem transmitLoop_turn {sample : WireSample} (hvalid : sample.Valid boundary) {index : Nat}
    (hindex : index * boundary < sample.bytes.length) {fragment : Fragment}
    (hfragment : {fragment with size := (chunk boundary sample.bytes index).length} =
      sample.header protocolVersion boundary index) :
    (transmitLoop boundary transmits fragment (sample.bytes.drop (index * boundary))).1 =
      if transmits (sample.packet protocolVersion boundary index) then
        sample.packet protocolVersion boundary index ::
          (transmitLoop boundary transmits {sample.header protocolVersion boundary index with index := index + 1}
            (sample.bytes.drop ((index + 1) * boundary))).1
      else [] := by
  have hloop : ¬(sample.bytes.drop (index * boundary) = [] ∨ boundary = 0) := by
    rintro (hnil | hzero)
    · exact not_le_of_gt hindex (drop_eq_nil_iff.mp hnil)
    · exact ne_of_gt hvalid.boundary_pos hzero
  have hsize : min (sample.bytes.drop (index * boundary)).length boundary =
      (chunk boundary sample.bytes index).length := by
    rw [length_chunk,length_drop,min_comm]
  have htake : (sample.bytes.drop (index * boundary)).take (chunk boundary sample.bytes index).length =
      chunk boundary sample.bytes index := by
    rw [← hsize,chunk,min_comm]
    exact take_eq_take_min.symm
  have hcount : (fragment.index + 1) % 2 ^ 16 = index + 1 := by
    have hlt := hvalid.index_lt hindex
    rw [show fragment.index = index from congrArg Fragment.index hfragment]
    omega
  have hdrop : (sample.bytes.drop (index * boundary)).drop (chunk boundary sample.bytes index).length =
      sample.bytes.drop ((index + 1) * boundary) := by
    rw [drop_drop,succ_mul,length_chunk]
    by_cases hfull : boundary ≤ sample.bytes.length - index * boundary
    · rw [min_eq_left hfull]
    · rw [min_eq_right (by omega),drop_eq_nil_of_le (by omega),drop_eq_nil_of_le (by omega)]
  rw [← hfragment,transmitLoop,if_neg hloop]
  simp only [hsize,htake,hcount,hdrop,WireSample.packet,← hfragment]
  split
  · rfl
  · rfl

theorem transmitLoop_packets {sample : WireSample} (hvalid : sample.Valid boundary) (index : Nat) (fragment : Fragment)
    (hfragment : {fragment with size := (chunk boundary sample.bytes index).length} =
      sample.header protocolVersion boundary index) :
    ∃ count, (transmitLoop boundary transmits fragment (sample.bytes.drop (index * boundary))).1 =
        (List.range' index count).map (sample.packet protocolVersion boundary) ∧
      (∀ next, next < index + count → index ≤ next → next * boundary < sample.bytes.length) ∧
      ((∀ packet, transmits packet = true) → sample.bytes.length ≤ (index + count) * boundary) := by
  induction hrest : sample.bytes.length - index * boundary using Nat.strongRecOn generalizing index fragment with
  | ind rest ih =>
    by_cases hindex : index * boundary < sample.bytes.length
    · rw [transmitLoop_turn hvalid hindex hfragment]
      by_cases htransmits : transmits (sample.packet protocolVersion boundary index) = true
      · have hpos := hvalid.boundary_pos
        have hless : sample.bytes.length - (index + 1) * boundary < rest := by
          rw [succ_mul]
          omega
        obtain ⟨count,hpackets,hbelow,hall⟩ := ih _ hless (index + 1)
          {sample.header protocolVersion boundary index with index := index + 1} rfl rfl
        refine ⟨count + 1,?_,?_,?_⟩
        · rw [if_pos htransmits,hpackets,range'_succ,map_cons]
        · intro next hlt hle
          rcases eq_or_lt_of_le hle with rfl | hlater
          · exact hindex
          · exact hbelow next (by omega) hlater
        · intro h
          rw [← add_assoc,add_right_comm]
          exact hall h
      · refine ⟨0,?_,?_,?_⟩
        · rw [if_neg htransmits]
          rfl
        · intro next hlt hle
          omega
        · intro h
          exact absurd (h _) htransmits
    · refine ⟨0,?_,?_,?_⟩
      · rw [drop_eq_nil_of_le (Nat.le_of_not_lt hindex),transmitLoop,if_pos (.inl rfl)]
        rfl
      · intro next hlt hle
        omega
      · intro _
        exact Nat.le_of_not_lt hindex

theorem transmitSample_packets (protocolVersion : Nat) (transmits : List UInt8 → Bool)
    {bytes : List UInt8} (hvalid : (writer.wire bytes).Valid boundary) :
    (transmitSample protocolVersion boundary writer transmits bytes).1 =
        {writer with sampleNumber := writer.nextSampleNumber} ∧
    ∃ count, (transmitSample protocolVersion boundary writer transmits bytes).2.1 =
        (List.range count).map ((writer.wire bytes).packet protocolVersion boundary) ∧
      (∀ index < count, index * boundary < bytes.length) ∧
      ((∀ packet, transmits packet = true) → bytes.length ≤ count * boundary) := by
  have hpos : 0 < bytes.length := hvalid.pos
  have hle : bytes.length ≤ boundary * 65535 := hvalid.le
  have hsize : maxSampleSize boundary = boundary * 65535 := mod_eq_of_lt hvalid.fits
  have haccepts : ¬(bytes.length = 0 ∨ maxSampleSize boundary < bytes.length) := by omega
  rw [transmitSample,if_neg haccepts]
  refine ⟨rfl,?_⟩
  obtain ⟨count,hpackets,hbelow,hall⟩ := transmitLoop_packets hvalid 0
    {(writer.wire bytes).header protocolVersion boundary 0 with size := 0} rfl
  rw [zero_mul,drop_zero,← range_eq_range'] at hpackets
  refine ⟨count,hpackets,?_,?_⟩
  · intro index hlt
    exact hbelow index (by omega) (zero_le _)
  · intro h
    have hlength := hall h
    rwa [zero_add] at hlength

end FragmentingWriter
end FepParticipant.Transmission
