import FepParticipant.Transmission.Reassembly

/-! A stream of samples from one writer, received by a reader that joins in between. The number
of the samples wraps, and a reader takes number 0 for one it has received already. -/
namespace FepParticipant.Transmission
open Library List Nat FragmentingWriter DefragmentingReader

variable {protocolVersion boundary : Nat}

namespace FragmentingWriter

/-- `transmitSample` for one sample after the other: the writer and the packets transmitted. -/
def transmitSamples (protocolVersion boundary : Nat) (writer : FragmentingWriter) :
    List (List UInt8 × (List UInt8 → Bool)) → FragmentingWriter × List (List UInt8)
  | [] => (writer,[])
  | (sample,transmits)::samples =>
    let (writer,packets,_) := writer.transmitSample protocolVersion boundary transmits sample
    let (writer,others) := transmitSamples protocolVersion boundary writer samples
    (writer,packets ++ others)

/-- The lengths `transmitSample` accepts. -/
def Transmissible (boundary : Nat) (sample : List UInt8) : Prop :=
  0 < sample.length ∧ sample.length ≤ boundary * 65535

private theorem nextSampleNumber_lt (writer : FragmentingWriter) : writer.nextSampleNumber < 65536 :=
  mod_lt _ (by decide)

theorem nextSampleNumber_ne (writer : FragmentingWriter) : writer.nextSampleNumber ≠ writer.sampleNumber := by
  unfold nextSampleNumber
  omega

theorem transmitSamples_writer (protocolVersion : Nat) {writer : FragmentingWriter} (hrange : writer.InRange)
    (hfits : boundary * 65535 < 2 ^ 32) (hnumber : writer.sampleNumber < 65536)
    {samples : List (List UInt8 × (List UInt8 → Bool))}
    (hsamples : ∀ sample ∈ samples, Transmissible boundary sample.1) :
    (writer.transmitSamples protocolVersion boundary samples).1 =
      {writer with sampleNumber := (writer.sampleNumber + samples.length) % 65536} := by
  induction samples generalizing writer with
  | nil => rw [transmitSamples,length_nil,add_zero,mod_eq_of_lt hnumber]
  | cons sample samples ih =>
    have hsample := hsamples sample (mem_cons_self ..)
    have htransmit := (transmitSample_packets protocolVersion sample.2 (hrange.wire_valid hfits hsample.1 hsample.2)).1
    have hrest := ih hrange.counted writer.nextSampleNumber_lt
      fun other hother => hsamples other (mem_cons_of_mem _ hother)
    show (transmitSamples protocolVersion boundary (transmitSample protocolVersion boundary writer sample.2
      sample.1).1 samples).1 = _
    rw [htransmit,hrest,length_cons]
    simp only [nextSampleNumber]
    congr 1
    omega

end FragmentingWriter

namespace DefragmentingReader
variable {index : Nat} {indices : List Nat}

/-- `receiveFragment` for one packet after the other: the sum of the lost samples and what was
passed to `receiveSample`. -/
def receiveFragments (protocolVersion boundary : Nat) (reader : DefragmentingReader) :
    List (List UInt8) → DefragmentingReader × Nat × List Report
  | [] => (reader,0,[])
  | packet::packets =>
    let (reader,lost,report) := reader.receiveFragment protocolVersion boundary packet
    let (reader,others,reports) := receiveFragments protocolVersion boundary reader packets
    (reader,lost + others,report.toList ++ reports)

theorem receiveFragments_append (reader : DefragmentingReader) (packets others : List (List UInt8)) :
    reader.receiveFragments protocolVersion boundary (packets ++ others) =
      let first := reader.receiveFragments protocolVersion boundary packets
      let second := first.1.receiveFragments protocolVersion boundary others
      (second.1,first.2.1 + second.2.1,first.2.2 ++ second.2.2) := by
  induction packets generalizing reader with
  | nil => simp [receiveFragments]
  | cons packet packets ih => simp only [cons_append,receiveFragments,ih,add_assoc,append_assoc]

variable {sample : WireSample}

private theorem mem_received (h : ∀ other, other ∈ indices ↔ other < index) (other : Nat) :
    other ∈ index::indices ↔ other < index + 1 := by
  rw [mem_cons,h]
  omega

theorem receiveFragments_rest (hvalid : sample.Valid boundary) (hversion : protocolVersion < 2 ^ 8)
    {index count : Nat} (hindices : ∀ other, other ∈ indices ↔ other < index)
    (hbelow : ∀ next, next < index + (count + 1) → index ≤ next → next * boundary < sample.bytes.length)
    (hall : sample.bytes.length ≤ (index + (count + 1)) * boundary) (reader : DefragmentingReader)
    (hlost : reader.lost (sample.header protocolVersion boundary index) = 0)
    (hassembles : (reader.openSample (sample.header protocolVersion boundary index)).Assembles boundary
      sample indices) :
    ∃ next : DefragmentingReader,
      reader.receiveFragments protocolVersion boundary
        ((List.range' index (count + 1)).map (sample.packet protocolVersion boundary)) =
          (next,0,[.sample sample.bytes]) ∧
      next.currentSampleNumbers sample.senderId = sample.sampleNumber ∧ next.remainingSampleSize = 0 := by
  induction count generalizing index indices reader with
  | zero =>
    have hindex := hbelow index (by omega) (le_refl _)
    have hnew : index ∉ indices := by simp [hindices]
    have hcomplete : missing boundary sample.bytes.length (index::indices) = 0 :=
      (missing_eq_zero_iff hvalid.boundary_pos (mem_received hindices)).mpr hall
    obtain ⟨next,hreceive,hnext⟩ := receive_next hvalid hversion hindex hassembles hnew
    rw [if_pos hcomplete,hlost] at hreceive
    refine ⟨next,?_,hnext.number,hnext.remaining.trans hcomplete⟩
    simp [List.range',receiveFragments,hreceive]
  | succ count ih =>
    have hindex := hbelow index (by omega) (le_refl _)
    have hnew : index ∉ indices := by simp [hindices]
    have hlater := hbelow (index + 1) (by omega) (by omega)
    have hincomplete : missing boundary sample.bytes.length (index::indices) ≠ 0 := by
      rw [ne_eq,missing_eq_zero_iff hvalid.boundary_pos (mem_received hindices)]
      exact not_le_of_gt hlater
    obtain ⟨next,hreceive,hnext⟩ := receive_next hvalid hversion hindex hassembles hnew
    rw [if_neg hincomplete,hlost] at hreceive
    have hcontinues : next.opens (sample.header protocolVersion boundary (index + 1)) = false := hnext.not_opens
    have hothers : ∀ other, other < index + 1 + (count + 1) → index + 1 ≤ other →
        other * boundary < sample.bytes.length := by
      intro other hlt hle
      exact hbelow other (by omega) (by omega)
    have hall' : sample.bytes.length ≤ (index + 1 + (count + 1)) * boundary := by
      rwa [add_assoc,add_comm 1]
    obtain ⟨last,hrest,hlast⟩ := ih (mem_received hindices) hothers hall' next
      (by simp [lost,hcontinues]) (by rwa [openSample_of_not_opens hcontinues])
    refine ⟨last,?_,hlast⟩
    rw [range'_succ,map_cons,receiveFragments,hreceive]
    simp [hrest]

variable {reader : DefragmentingReader}

section
variable (hvalid : sample.Valid boundary)
include hvalid

section
variable (hversion : protocolVersion < 2 ^ 8)
include hversion

theorem receiveFragments_sample {count : Nat} (hbelow : ∀ index < count, index * boundary < sample.bytes.length)
    (hall : sample.bytes.length ≤ count * boundary) (hidle : reader.remainingSampleSize = 0)
    (hnumber : reader.currentSampleNumbers sample.senderId ≠ sample.sampleNumber) : ∃ next : DefragmentingReader,
      reader.receiveFragments protocolVersion boundary
      ((List.range count).map (sample.packet protocolVersion boundary)) =
          (next,0,[.sample sample.bytes]) ∧
      next.currentSampleNumbers sample.senderId = sample.sampleNumber ∧ next.remainingSampleSize = 0 := by
  have hopens : reader.opens (sample.header protocolVersion boundary 0) = true := by
    simpa [opens,WireSample.header] using hnumber.symm
  cases count with
  | zero =>
    have hpos := hvalid.pos
    omega
  | succ count =>
    rw [range_eq_range']
    have hnothing : ∀ other, other ∈ ([] : List Nat) ↔ other < 0 := by simp
    apply receiveFragments_rest hvalid hversion hnothing
    · intro next hlt _
      exact hbelow next (by omega)
    · rwa [zero_add]
    · simp [lost,hidle]
    · exact assembles_openSample hopens

private theorem receiveFragment_stale (hindex : index * boundary < sample.bytes.length)
    (hidle : reader.remainingSampleSize = 0)
    (hnumber : reader.currentSampleNumbers sample.senderId = sample.sampleNumber) :
    reader.receiveFragment protocolVersion boundary (sample.packet protocolVersion boundary index) =
      (reader,0,reader.report (sample.header protocolVersion boundary index)) := by
  have hcontinues : reader.opens (sample.header protocolVersion boundary index) = false := by
    simp [opens,WireSample.header,hnumber]
  have hrefuses : reader.takes boundary (sample.header protocolVersion boundary index) = false := by
    have hpos := hvalid.chunk_pos hindex
    rw [takes,Bool.and_eq_false_iff]
    apply Or.inl
    apply decide_eq_false
    simp only [WireSample.header,hidle]
    omega
  rw [hvalid.receive_packet hversion hindex,acceptFragment,openSample_of_not_opens hcontinues]
  simp [copyPayload,hrefuses,lost,hcontinues]

theorem receiveFragments_stale (hidle : reader.remainingSampleSize = 0)
    (hnumber : reader.currentSampleNumbers sample.senderId = sample.sampleNumber)
    (hindices : ∀ index ∈ indices, index * boundary < sample.bytes.length) :
    reader.receiveFragments protocolVersion boundary (indices.map (sample.packet protocolVersion boundary)) =
      (reader,0,indices.flatMap fun index =>
        (reader.report (sample.header protocolVersion boundary index)).toList) := by
  induction indices with
  | nil => rfl
  | cons index indices ih =>
    have hindex := hindices index (mem_cons_self ..)
    have hrest := ih fun other hother => hindices other (mem_cons_of_mem _ hother)
    rw [map_cons,receiveFragments,receiveFragment_stale hvalid hversion hindex hidle hnumber]
    simp [hrest]

end

end

theorem receiveFragments_stream (hversion : protocolVersion < 2 ^ 8) (hfits : boundary * 65535 < 2 ^ 32)
    {writer : FragmentingWriter} (hrange : writer.InRange) {samples : List (List UInt8)}
    (hsamples : ∀ sample ∈ samples, FragmentingWriter.Transmissible boundary sample)
    (reader : DefragmentingReader) (hidle : reader.remainingSampleSize = 0)
    (hnumber : reader.currentSampleNumbers writer.senderId ≠ writer.nextSampleNumber) :
    (reader.receiveFragments protocolVersion boundary (writer.transmitSamples protocolVersion boundary
      (samples.map fun sample => (sample,fun _ => true))).2).2 = (0,samples.map .sample) := by
  induction samples generalizing writer reader with
  | nil => rfl
  | cons sample samples ih =>
    have hsample := hsamples sample (mem_cons_self ..)
    have hvalid := hrange.wire_valid hfits hsample.1 hsample.2
    obtain ⟨hwriter,count,hpackets,hbelow,hall⟩ := transmitSample_packets protocolVersion
      (fun _ => true) hvalid
    obtain ⟨next,hreceive,hrecorded,hdone⟩ := receiveFragments_sample hvalid hversion hbelow
      (hall fun _ => rfl) hidle hnumber
    have hdiffers : next.currentSampleNumbers writer.senderId ≠
        FragmentingWriter.nextSampleNumber {writer with sampleNumber := writer.nextSampleNumber} := by
      intro hsame
      exact nextSampleNumber_ne _ (hsame.symm.trans hrecorded)
    have hrest := ih hrange.counted (fun other hother => hsamples other (mem_cons_of_mem _ hother))
      next hdone hdiffers
    rw [map_cons,FragmentingWriter.transmitSamples]
    simp only [hwriter,hpackets,receiveFragments_append,hreceive,hrest]
    rfl

/-- What a fresh reader makes of every packet of a sample with number 0. -/
def zeroReport (boundary : Nat) (sample : List UInt8) : Report :=
  if sample.length ≤ boundary then .sample (List.replicate sample.length 0)
  else .beyondBuffer (List.replicate boundary 0) sample.length

private theorem report_new : (new boundary).report (sample.header protocolVersion boundary index) =
    some (zeroReport boundary sample.bytes) := by
  simp only [report,new,zeroReport,WireSample.header,length_replicate,take_replicate,if_true]
  split
  · rename_i hle
    rw [min_eq_left hle]
  · rfl

private theorem receiveFragments_zero (hvalid : sample.Valid boundary) (hversion : protocolVersion < 2 ^ 8)
    (hzero : sample.sampleNumber = 0) {count : Nat} (hbelow : ∀ index < count, index * boundary < sample.bytes.length) :
    (new boundary).receiveFragments protocolVersion boundary
        ((List.range count).map (sample.packet protocolVersion boundary)) =
      (new boundary,0,List.replicate count (zeroReport boundary sample.bytes)) := by
  have hindices : ∀ index ∈ List.range count, index * boundary < sample.bytes.length := by
    intro index hindex
    exact hbelow index (mem_range.mp hindex)
  rw [receiveFragments_stale hvalid hversion rfl hzero.symm hindices]
  simp [report_new,flatMap_def,flatten_replicate_singleton]

end DefragmentingReader

/-- What reaches a fresh reader that joins behind a writer's earlier samples is exactly what is transmitted from
then on. -/
def ReceivedFromJoin (protocolVersion boundary senderId padding : Nat)
    (earlier : List (List UInt8 × (List UInt8 → Bool))) (samples : List (List UInt8)) : Prop :=
  let writer := ((FragmentingWriter.new senderId padding).transmitSamples protocolVersion boundary earlier).1
  let packets := (writer.transmitSamples protocolVersion boundary
    (samples.map fun sample => (sample,fun _ => true))).2
  ((DefragmentingReader.new boundary).receiveFragments protocolVersion boundary packets).2 = (0,samples.map .sample)

theorem received_from_zero (hversion : protocolVersion < 2 ^ 8) (hfits : boundary * 65535 < 2 ^ 32)
    {writer : FragmentingWriter} (hrange : writer.InRange) (hzero : writer.nextSampleNumber = 0)
    {first : List UInt8} {samples : List (List UInt8)}
    (hsamples : ∀ sample ∈ first::samples, FragmentingWriter.Transmissible boundary sample) :
    ((DefragmentingReader.new boundary).receiveFragments protocolVersion boundary
      (writer.transmitSamples protocolVersion boundary
        ((first::samples).map fun sample => (sample,fun _ => true))).2).2 =
        (0,(first::samples).map .sample) ↔
      first.length ≤ boundary ∧ ∀ byte ∈ first, byte = 0 := by
  have hfirst := hsamples first (mem_cons_self ..)
  have hvalid := hrange.wire_valid hfits hfirst.1 hfirst.2
  obtain ⟨hwriter,count,hpackets,hbelow,hall⟩ := transmitSample_packets protocolVersion
    (fun _ => true) hvalid
  have hlength := hall fun _ => rfl
  have hnumber : (DefragmentingReader.new boundary).currentSampleNumbers writer.senderId ≠
      FragmentingWriter.nextSampleNumber {writer with sampleNumber := writer.nextSampleNumber} := by
    intro hsame
    exact nextSampleNumber_ne _ (hsame.symm.trans hzero.symm)
  have hrest := receiveFragments_stream hversion hfits
    hrange.counted (fun other hother => hsamples other (mem_cons_of_mem _ hother))
    _ rfl hnumber
  have hreports : ((DefragmentingReader.new boundary).receiveFragments protocolVersion boundary
      (writer.transmitSamples protocolVersion boundary
        ((first::samples).map fun sample => (sample,fun _ => true))).2).2 =
      (0,List.replicate count (DefragmentingReader.zeroReport boundary first) ++ samples.map .sample) := by
    rw [map_cons,FragmentingWriter.transmitSamples]
    simp only [hwriter,hpackets,receiveFragments_append,
      receiveFragments_zero hvalid hversion hzero hbelow,hrest]
    rfl
  rw [hreports,Prod.mk.injEq,map_cons]
  by_cases hshort : first.length ≤ boundary
  · have hone : count = 1 := by
      have hnotzero : count ≠ 0 := by
        rintro rfl
        rw [zero_mul] at hlength
        exact not_le_of_gt hfirst.1 hlength
      have hnotmore : ¬1 < count := by
        intro hmore
        have hsecond := hbelow 1 hmore
        rw [one_mul] at hsecond
        exact not_le_of_gt hsecond hshort
      omega
    subst hone
    simp [DefragmentingReader.zeroReport,hshort,eq_replicate_iff,eq_comm]
  · cases count with
    | zero =>
      rw [zero_mul] at hlength
      exact absurd hlength (not_le_of_gt hfirst.1)
    | succ more => simp [DefragmentingReader.zeroReport,hshort,replicate_succ]

/-- The round trip fails for a reader that joins at a sample with number 0 only. -/
theorem received_from_join_iff (hversion : protocolVersion < 2 ^ 8) (hfits : boundary * 65535 < 2 ^ 32)
    {senderId padding : Nat} (hsender : senderId < 2 ^ 64) (hpadding : padding < 2 ^ 24)
    {earlier : List (List UInt8 × (List UInt8 → Bool))} {samples : List (List UInt8)}
    (hearlier : ∀ sample ∈ earlier, FragmentingWriter.Transmissible boundary sample.1)
    (hsamples : ∀ sample ∈ samples, FragmentingWriter.Transmissible boundary sample) :
    ReceivedFromJoin protocolVersion boundary senderId padding earlier samples ↔ (earlier.length + 1) % 65536 ≠ 0 ∨
        ∀ first ∈ samples.head?, first.length ≤ boundary ∧ ∀ byte ∈ first, byte = 0 := by
  have hrange := inRange_new hsender hpadding
  have hwriter := transmitSamples_writer protocolVersion hrange hfits (zero_lt_succ _) hearlier
  have hnumber : ((FragmentingWriter.new senderId padding).transmitSamples protocolVersion boundary
      earlier).1.nextSampleNumber = (earlier.length + 1) % 65536 := by
    rw [hwriter]
    simp only [FragmentingWriter.nextSampleNumber,FragmentingWriter.new]
    omega
  have hjoined : ((FragmentingWriter.new senderId padding).transmitSamples protocolVersion boundary
      earlier).1.InRange := by
    rw [hwriter]
    exact ⟨hsender,hpadding⟩
  rw [ReceivedFromJoin,← hnumber]
  by_cases hzero : ((FragmentingWriter.new senderId padding).transmitSamples protocolVersion boundary
      earlier).1.nextSampleNumber = 0
  · cases samples with
    | nil => simp [FragmentingWriter.transmitSamples,DefragmentingReader.receiveFragments]
    | cons first samples => simpa [hzero] using received_from_zero hversion hfits hjoined hzero hsamples
  · have hstream := receiveFragments_stream hversion hfits hjoined hsamples
      (DefragmentingReader.new boundary) rfl (Ne.symm hzero)
    exact iff_of_true hstream (.inl hzero)

/-- Two samples cut at four bytes for a reader that joins behind another one. -/
theorem received_from_join_second :
    ReceivedFromJoin 1 4 7 0 [([1,2,3,4,5],fun _ => true)] [[1,2,3,4,5,6,7,8],[9]] :=
  (received_from_join_iff (by decide) (by decide) (by decide) (by decide)
    (by simp [FragmentingWriter.Transmissible]) (by simp [FragmentingWriter.Transmissible])).mpr
    (.inl (by decide))

/-- The reader that joins behind 65535 samples is given an empty buffer in place of the sample. -/
theorem join_at_zero_lost : ¬ReceivedFromJoin 1 4 7 0 (List.replicate 65535 ([1],fun _ => true)) [[42]] := by
  have hearlier : ∀ sample ∈ List.replicate 65535 (([1],fun _ => true) : List UInt8 × (List UInt8 → Bool)),
      FragmentingWriter.Transmissible 4 sample.1 := by
    intro sample hsample
    rw [eq_of_mem_replicate hsample]
    exact ⟨one_pos,by decide⟩
  have hwriter := transmitSamples_writer 1 (inRange_new
    (by decide : 7 < 2 ^ 64) (by decide : 0 < 2 ^ 24)) (by decide : 4 * 65535 < 2 ^ 32) (zero_lt_succ _)
    hearlier
  rw [length_replicate] at hwriter
  rw [ReceivedFromJoin,hwriter]
  decide +kernel

end FepParticipant.Transmission
