import FepParticipant.Transmission.FragmentationRoundTrip
import Mathlib.Data.List.DropRight

/-! What becomes of one sender's samples, some of whose fragments are lost, and the sum of the loss counts of a reader,
which can tell by the numbers of the samples around only. -/
namespace FepParticipant.Transmission
open Library Nat List FragmentingWriter DefragmentingReader

/-- No fragment of the sample arrives, some do, or all do. -/
inductive SampleFate where
  | lost
  | incomplete
  | complete
  deriving DecidableEq

/-- The samples from the first to the last one of which a fragment arrives. -/
def samplesBetween (fates : List SampleFate) : List SampleFate :=
  (fates.dropWhile (· == .lost)).rdropWhile (· == .lost)

def undelivered (fates : List SampleFate) : Nat := fates.countP (· != .complete)

/-- The samples not delivered between a sample with an arriving fragment and the last such one, which may still be
completed; `gap` are lost behind the former. -/
def missedBehind (gap : Nat) (fate : SampleFate) : List SampleFate → Nat
  | [] => 0
  | .lost::fates => missedBehind (gap + 1) fate fates
  | next::fates => (gap + if fate = .complete then 0 else 1) + missedBehind 0 next fates

/-- Nothing is missed behind a complete sample, and behind an incomplete one nothing or samples whose numbers do not
wrap. A reader that never opened a sample does not know of it. -/
def GapCounted (number gap : Nat) (unopened : Bool) (fate : SampleFate) : Prop :=
  if fate = .complete then gap = 0 else unopened = false ∧ (gap = 0 ∨ number + gap + 1 < 65536)

instance (number gap : Nat) (unopened : Bool) (fate : SampleFate) :
    Decidable (GapCounted number gap unopened fate) :=
  inferInstanceAs (Decidable (if fate = .complete then gap = 0 else _ ∧ (_ ∨ _)))

def GapsCounted (number gap : Nat) (unopened : Bool) (fate : SampleFate) : List SampleFate → Prop
  | [] => True
  | .lost::fates => GapsCounted number (gap + 1) unopened fate fates
  | next::fates => GapCounted number gap unopened fate ∧ GapsCounted ((number + gap + 1) % 65536) 0 false next fates

/-- Every gap is counted: the numbers go from 1 on and wrap, and sample 0 is not opened by a reader that has
received no other. -/
def StreamCounted (samples : Nat) : List SampleFate → Prop
  | [] => True
  | .lost::fates => StreamCounted (samples + 1) fates
  | next::fates => GapsCounted ((samples + 1) % 65536) 0 ((samples + 1) % 65536 == 0) next fates

instance decidableGapsCounted (number gap : Nat) (unopened : Bool) (fate : SampleFate) :
    (fates : List SampleFate) → Decidable (GapsCounted number gap unopened fate fates)
  | [] => inferInstanceAs (Decidable True)
  | .lost::fates => decidableGapsCounted number (gap + 1) unopened fate fates
  | .incomplete::fates =>
    have := decidableGapsCounted ((number + gap + 1) % 65536) 0 false .incomplete fates
    inferInstanceAs (Decidable (_ ∧ _))
  | .complete::fates =>
    have := decidableGapsCounted ((number + gap + 1) % 65536) 0 false .complete fates
    inferInstanceAs (Decidable (_ ∧ _))

instance decidableStreamCounted (samples : Nat) : (fates : List SampleFate) → Decidable (StreamCounted samples fates)
  | [] => inferInstanceAs (Decidable True)
  | .lost::fates => decidableStreamCounted (samples + 1) fates
  | .incomplete::fates => decidableGapsCounted _ _ _ .incomplete fates
  | .complete::fates => decidableGapsCounted _ _ _ .complete fates

variable {number gap : Nat} {unopened : Bool} {fate next : SampleFate} {fates : List SampleFate}

theorem missedBehind_next (hnext : next ≠ .lost) : missedBehind gap fate (next::fates) =
    (gap + if fate = .complete then 0 else 1) + missedBehind 0 next fates := by
  cases next with
  | lost => exact absurd rfl hnext
  | incomplete => rfl
  | complete => rfl

theorem gapsCounted_next (hnext : next ≠ .lost) : GapsCounted number gap unopened fate (next::fates) ↔
    GapCounted number gap unopened fate ∧ GapsCounted ((number + gap + 1) % 65536) 0 false next fates := by
  cases next with
  | lost => exact absurd rfl hnext
  | incomplete => rfl
  | complete => rfl

def returnedLoss (idle : Bool) (recorded number : Nat) : Nat :=
  if idle then 0 else if number < recorded then 1 else number - recorded

/-- A reader that knows whether its sample is complete returns at most what was missed, and the right number exactly
for a counted gap. -/
theorem returnedLoss_tracked (gap : Nat) (hnumber : number < 65536) {idle : Bool}
    (hidle : idle = true ↔ fate = .complete ∨ unopened = true) :
    returnedLoss idle number ((number + gap + 1) % 65536) ≤ (gap + if fate = .complete then 0 else 1) ∧
    (returnedLoss idle number ((number + gap + 1) % 65536) = (gap + if fate = .complete then 0 else 1) ↔
      GapCounted number gap unopened fate) := by
  rw [returnedLoss,GapCounted]
  by_cases hcomplete : fate = .complete
  · rw [if_pos (hidle.mpr (.inl hcomplete)),if_pos hcomplete,if_pos hcomplete]
    omega
  · rw [if_neg hcomplete,if_neg hcomplete]
    cases unopened with
    | true =>
      rw [if_pos (hidle.mpr (.inr rfl))]
      simp
    | false =>
      rw [if_neg (by simpa [hcomplete] using hidle)]
      simp only [true_and]
      split <;> omega

theorem returnedLoss_le (gap : Nat) (hnumber : number < 65536) (idle : Bool) :
    returnedLoss idle number ((number + gap + 1) % 65536) ≤ gap + 1 := by
  rw [returnedLoss]
  split
  · omega
  · split <;> omega

theorem rdropWhile_cons (hnext : next ≠ .lost) :
    (next::fates).rdropWhile (· == .lost) = next::fates.rdropWhile (· == .lost) := by
  induction fates using List.reverseRecOn with
  | nil => rw [rdropWhile_singleton,if_neg (by simpa using hnext),rdropWhile_nil]
  | append_singleton fates last ih =>
    rw [← cons_append,rdropWhile_concat,rdropWhile_concat,ih]
    split <;> rfl

private theorem rdropWhile_lost (gap : Nat) (hnext : next ≠ .lost) :
    (List.replicate gap SampleFate.lost ++ next::fates).rdropWhile (· == .lost) =
      List.replicate gap SampleFate.lost ++ next::fates.rdropWhile (· == .lost) := by
  induction fates using List.reverseRecOn with
  | nil => rw [rdropWhile_concat,if_neg (by simpa using hnext),rdropWhile_nil]
  | append_singleton fates last ih =>
    rw [← cons_append,← append_assoc,rdropWhile_concat,rdropWhile_concat,ih]
    split <;> simp

private theorem undelivered_dropLast (gap : Nat) (hfate : fate ≠ .lost) (fates : List SampleFate) :
    undelivered (fate::(List.replicate gap SampleFate.lost ++ fates).rdropWhile (· == .lost)).dropLast =
      missedBehind gap fate fates := by
  induction fates generalizing gap fate with
  | nil =>
    rw [append_nil,rdropWhile_eq_nil_iff.mpr (by simp)]
    rfl
  | cons next fates ih =>
    by_cases hnext : next = .lost
    · subst hnext
      rw [append_cons,← replicate_succ',ih (gap + 1) hfate]
      rfl
    · have hrest := ih 0 hnext
      rw [rdropWhile_lost gap hnext,missedBehind_next hnext,← hrest,← cons_append,
        dropLast_append_of_ne_nil (cons_ne_nil _ _),undelivered,countP_append,countP_cons]
      rw [undelivered,countP_replicate]
      simp

theorem undelivered_between (hnext : next ≠ .lost) (fates : List SampleFate) :
    undelivered (samplesBetween (next::fates)).dropLast = missedBehind 0 next fates := by
  rw [samplesBetween,dropWhile_cons_of_neg (by simpa using hnext),rdropWhile_cons hnext]
  exact undelivered_dropLast 0 hnext fates

theorem streamCounted_next (hnext : next ≠ .lost) (samples : Nat) : StreamCounted samples (next::fates) ↔
    GapsCounted ((samples + 1) % 65536) 0 ((samples + 1) % 65536 == 0) next fates := by
  cases next with
  | lost => exact absurd rfl hnext
  | incomplete => rfl
  | complete => rfl

theorem undelivered_eq_dropLast :
    undelivered fates = undelivered fates.dropLast + if ∀ last ∈ fates.getLast?, last = .complete then 0 else 1 := by
  induction fates using List.reverseRecOn with
  | nil => rfl
  | append_singleton fates last _ => simp [undelivered,countP_cons,bne]

variable {protocolVersion boundary : Nat}

def arriving (packets : List (List UInt8)) (arrives : Nat → Bool) : List (List UInt8) :=
  ((List.range packets.length).filter arrives).filterMap fun index => packets[index]?

def FragmentingWriter.arrivals (protocolVersion boundary : Nat) (writer : FragmentingWriter) :
    List (List UInt8 × (Nat → Bool)) → List (List UInt8)
  | [] => []
  | (sample,arrives)::samples =>
    let (writer,packets,_) := writer.transmitSample protocolVersion boundary (fun _ => true) sample
    arriving packets arrives ++ arrivals protocolVersion boundary writer samples

/-- The sum of the loss counts returned to a fresh reader of a fresh writer. -/
def returnedLosses (protocolVersion boundary senderId padding : Nat) (samples : List (List UInt8 × (Nat → Bool))) :
    Nat :=
  ((DefragmentingReader.new boundary).receiveFragments protocolVersion boundary
    ((FragmentingWriter.new senderId padding).arrivals protocolVersion boundary samples)).2.1

/-- The number of fragments of a sample. -/
def fragmentCount (boundary : Nat) (sample : List UInt8) : Nat := (sample.length + boundary - 1) / boundary

def sampleFate (boundary : Nat) (sample : List UInt8 × (Nat → Bool)) : SampleFate :=
  let indices := List.range (fragmentCount boundary sample.1)
  if indices.all sample.2 then .complete else if indices.any sample.2 then .incomplete else .lost

namespace DefragmentingReader

variable {sample : WireSample} {reader : DefragmentingReader}
variable {kept : List Nat}

theorem receiveFragments_cons (packet : List UInt8) (packets : List (List UInt8)) :
    reader.receiveFragments protocolVersion boundary (packet::packets) =
      let first := reader.receiveFragment protocolVersion boundary packet
      let rest := first.1.receiveFragments protocolVersion boundary packets
      (rest.1,first.2.1 + rest.2.1,first.2.2.toList ++ rest.2.2) := rfl

section
variable (hvalid : sample.Valid boundary)
include hvalid

theorem receive_chunks (hversion : protocolVersion < 2 ^ 8)
    {kept indices : List Nat} (hkept : ∀ index ∈ kept, index * boundary < sample.bytes.length)
    (hnodup : kept.Nodup) (hnew : ∀ index ∈ kept, index ∉ indices)
    (hassembles : reader.Assembles boundary sample indices) :
    let received := reader.receiveFragments protocolVersion boundary (kept.map (sample.packet protocolVersion boundary))
    received.2.1 = 0 ∧ received.1.Assembles boundary sample (kept.reverse ++ indices) := by
  induction kept generalizing reader indices with
  | nil => exact ⟨rfl,hassembles⟩
  | cons index kept ih =>
    rw [forall_mem_cons] at hkept hnew
    rw [nodup_cons] at hnodup
    have hopened : (reader.openSample (sample.header protocolVersion boundary index)).Assembles boundary
        sample indices := by
      rwa [openSample_of_not_opens hassembles.not_opens]
    have hlost : reader.lost (sample.header protocolVersion boundary index) = 0 := by
      simp [lost,hassembles.not_opens]
    obtain ⟨next,hreceive,hnext⟩ := receive_next hvalid hversion hkept.1 hopened hnew.1
    have hothers : ∀ other ∈ kept, other ∉ index::indices := by
      intro other hother hmem
      rcases mem_cons.mp hmem with rfl | hmem
      · exact hnodup.1 hother
      · exact hnew.2 other hother hmem
    obtain ⟨hrest,hlast⟩ := ih hkept.2 hnodup.2 hothers hnext
    simp only [map_cons,receiveFragments_cons,hreceive,hlost,hrest,reverse_cons,append_assoc]
    exact ⟨trivial,hlast⟩

private theorem remaining_eq_zero_iff {indices : List Nat} {count : Nat}
    (hcount : ∀ index, index < count ↔ index * boundary < sample.bytes.length)
    (hindices : ∀ index ∈ indices, index < count) (hassembles : reader.Assembles boundary sample indices) :
    reader.remainingSampleSize = 0 ↔ ∀ index < count, index ∈ indices := by
  constructor
  · intro hzero index hindex
    apply by_contra
    intro hmissing
    exact hassembles.remaining_ne_zero hvalid ((hcount index).mp hindex) hmissing hzero
  · intro hall
    rw [hassembles.remaining,missing_eq_zero_iff hvalid.boundary_pos fun other => ⟨hindices other,hall other⟩]
    exact Nat.le_of_not_lt fun hlt => lt_irrefl _ ((hcount count).mpr hlt)

theorem receive_opening (hversion : protocolVersion < 2 ^ 8) {count : Nat}
    (hcount : ∀ index, index < count ↔ index * boundary < sample.bytes.length)
    (hkept : ∀ index ∈ kept, index < count) (hnodup : kept.Nodup) (hne : kept ≠ [])
    (hnumber : reader.currentSampleNumbers sample.senderId ≠ sample.sampleNumber) :
    let received := reader.receiveFragments protocolVersion boundary (kept.map (sample.packet protocolVersion boundary))
    received.2.1 = returnedLoss (reader.remainingSampleSize == 0) (reader.currentSampleNumbers sample.senderId)
      sample.sampleNumber ∧
    received.1.currentSampleNumbers sample.senderId = sample.sampleNumber ∧
    (received.1.remainingSampleSize = 0 ↔ ∀ index < count, index ∈ kept) := by
  obtain ⟨index,kept,rfl⟩ := exists_cons_of_ne_nil hne
  rw [nodup_cons] at hnodup
  have hopens : reader.opens (sample.header protocolVersion boundary index) = true := by
    simpa [opens,WireSample.header] using hnumber.symm
  have hchunk : ∀ other ∈ index::kept, other * boundary < sample.bytes.length := fun other hother =>
    (hcount other).mp (hkept other hother)
  rw [forall_mem_cons] at hchunk
  obtain ⟨first,hreceive,hfirst⟩ := receive_next hvalid hversion hchunk.1 (assembles_openSample hopens) not_mem_nil
  have hothers : ∀ other ∈ kept, other ∉ [index] := by
    intro other hother hsame
    obtain rfl := mem_singleton.mp hsame
    exact hnodup.1 hother
  obtain ⟨hrest,hnext⟩ := receive_chunks hvalid hversion hchunk.2 hnodup.2 hothers hfirst
  have hlost : reader.lost (sample.header protocolVersion boundary index) =
      returnedLoss (reader.remainingSampleSize == 0) (reader.currentSampleNumbers sample.senderId)
        sample.sampleNumber := by
    rw [lost,hopens,returnedLoss]
    by_cases hidle : reader.remainingSampleSize = 0
    · simp [hidle]
    · simp only [bne_iff_ne.mpr hidle,beq_eq_false_iff_ne.mpr hidle]
      rfl
  simp only [map_cons,receiveFragments_cons,hreceive,hlost,hrest,add_zero,true_and]
  refine ⟨hnext.number,?_⟩
  rw [remaining_eq_zero_iff hvalid hcount _ hnext]
  · simp [or_comm]
  · intro other hother
    exact hkept other (by simpa [or_comm] using hother)

theorem receive_recorded (hversion : protocolVersion < 2 ^ 8)
    (hkept : ∀ index ∈ kept, index * boundary < sample.bytes.length)
    (hnumber : reader.currentSampleNumbers sample.senderId = sample.sampleNumber) :
    let received := reader.receiveFragments protocolVersion boundary (kept.map (sample.packet protocolVersion boundary))
    received.2.1 = 0 ∧ received.1.currentSampleNumbers sample.senderId = sample.sampleNumber ∧
    (reader.remainingSampleSize = 0 → received.1.remainingSampleSize = 0) := by
  induction kept generalizing reader with
  | nil => exact ⟨rfl,hnumber,id⟩
  | cons index kept ih =>
    rw [forall_mem_cons] at hkept
    have hcontinues : reader.opens (sample.header protocolVersion boundary index) = false := by
      simp [opens,WireSample.header,hnumber]
    have hlost : reader.lost (sample.header protocolVersion boundary index) = 0 := by simp [lost,hcontinues]
    let copied := reader.copyPayload boundary (sample.header protocolVersion boundary index)
      (chunk boundary sample.bytes index)
    have hcopied : copied.currentSampleNumbers = reader.currentSampleNumbers ∧
        (reader.remainingSampleSize = 0 → copied.remainingSampleSize = 0) := by
      simp only [copied,copyPayload]
      split
      · exact ⟨rfl,fun hidle => by simp [hidle]⟩
      · exact ⟨rfl,id⟩
    have hrest := @ih copied hkept.2 (by rw [hcopied.1,hnumber])
    simp only [map_cons,receiveFragments_cons,hvalid.receive_packet hversion hkept.1,acceptFragment,
      openSample_of_not_opens hcontinues,hlost]
    exact ⟨by rw [hrest.1],hrest.2.1,fun hzero => hrest.2.2 (hcopied.2 hzero)⟩

end

end DefragmentingReader

namespace FragmentingWriter

private theorem arriving_packets {sample : WireSample} (count : Nat) (arrives : Nat → Bool) :
    arriving ((List.range count).map (sample.packet protocolVersion boundary)) arrives =
      ((List.range count).filter arrives).map (sample.packet protocolVersion boundary) := by
  rw [arriving,length_map,length_range,← filterMap_eq_map]
  apply filterMap_congr
  intro index hindex
  have hlt := mem_range.mp (mem_of_mem_filter hindex)
  simp [hlt]

private theorem count_eq_fragmentCount {bytes : List UInt8} {count : Nat} (hpos : 0 < bytes.length)
    (hbelow : ∀ index < count, index * boundary < bytes.length) (hall : bytes.length ≤ count * boundary) :
    count = fragmentCount boundary bytes := by
  cases count with
  | zero => omega
  | succ count =>
    have hlast := hbelow count (lt_succ_self _)
    rw [fragmentCount,eq_comm]
    rw [succ_mul] at hall
    apply Nat.div_eq_of_lt_le
    · rw [succ_mul]
      omega
    · rw [succ_mul,succ_mul]
      omega

theorem arrivals_cons (protocolVersion : Nat) {writer : FragmentingWriter} (hrange : writer.InRange)
    (hfits : boundary * 65535 < 2 ^ 32) {sample : List UInt8} (hsample : Transmissible boundary sample)
    (arrives : Nat → Bool)
    (samples : List (List UInt8 × (Nat → Bool))) :
    writer.arrivals protocolVersion boundary ((sample,arrives)::samples) =
        ((List.range (fragmentCount boundary sample)).filter arrives).map
          ((writer.wire sample).packet protocolVersion boundary) ++
        {writer with sampleNumber := writer.nextSampleNumber : FragmentingWriter}.arrivals protocolVersion boundary
          samples ∧
      ∀ index, index < fragmentCount boundary sample ↔ index * boundary < sample.length := by
  have hvalid := hrange.wire_valid hfits hsample.1 hsample.2
  obtain ⟨hwriter,count,hpackets,hbelow,hall⟩ := transmitSample_packets protocolVersion (fun _ => true) hvalid
  have hlength := hall fun _ => rfl
  obtain rfl := count_eq_fragmentCount hsample.1 hbelow hlength
  refine ⟨?_,fun index => ⟨hbelow index,fun hindex => ?_⟩⟩
  · rw [← arriving_packets,← hpackets,← hwriter]
    rfl
  · exact Nat.lt_of_mul_lt_mul_right (Nat.lt_of_lt_of_le hindex hlength)

end FragmentingWriter

variable {sample : List UInt8} {writer : FragmentingWriter}
variable {arrives : Nat → Bool} {samples : List (List UInt8 × (Nat → Bool))}

theorem sampleFate_eq_lost (hpos : 0 < fragmentCount boundary sample) :
    sampleFate boundary (sample,arrives) = .lost ↔
      (List.range (fragmentCount boundary sample)).filter arrives = [] := by
  rw [sampleFate,filter_eq_nil_iff]
  by_cases hall : (List.range (fragmentCount boundary sample)).all arrives = true
  · rw [if_pos hall]
    rw [all_eq_true] at hall
    refine iff_of_false (by simp) fun hnone => ?_
    exact hnone 0 (mem_range.mpr hpos) (hall 0 (mem_range.mpr hpos))
  · rw [if_neg hall]
    by_cases hany : (List.range (fragmentCount boundary sample)).any arrives = true
    · rw [if_pos hany]
      obtain ⟨index,hindex,harrives⟩ := any_eq_true.mp hany
      exact iff_of_false (by simp) fun hnone => hnone index hindex harrives
    · rw [if_neg hany]
      refine iff_of_true rfl fun index hindex harrives => hany (any_eq_true.mpr ⟨index,hindex,harrives⟩)

theorem sampleFate_eq_complete :
    sampleFate boundary (sample,arrives) = .complete ↔
      ∀ index < fragmentCount boundary sample, index ∈ (List.range (fragmentCount boundary sample)).filter arrives := by
  have hall : (List.range (fragmentCount boundary sample)).all arrives = true ↔
      ∀ index < fragmentCount boundary sample, index ∈ (List.range (fragmentCount boundary sample)).filter arrives := by
    simp only [all_eq_true,mem_range,mem_filter]
    exact forall₂_congr fun index hindex => (and_iff_right hindex).symm
  rw [← hall,sampleFate]
  split
  · rename_i h
    exact iff_of_true rfl h
  · rename_i h
    refine iff_of_false ?_ h
    split <;> simp

theorem losses_cons (hrange : writer.InRange) (hfits : boundary * 65535 < 2 ^ 32)
    (hsample : FragmentingWriter.Transmissible boundary sample)
    (reader : DefragmentingReader) :
    let received := reader.receiveFragments protocolVersion boundary
      (((List.range (fragmentCount boundary sample)).filter arrives).map
        ((writer.wire sample).packet protocolVersion boundary))
    (reader.receiveFragments protocolVersion boundary
      (writer.arrivals protocolVersion boundary ((sample,arrives)::samples))).2.1 =
      received.2.1 + (received.1.receiveFragments protocolVersion boundary
        ({writer with sampleNumber := writer.nextSampleNumber : FragmentingWriter}.arrivals protocolVersion boundary
          samples)).2.1 := by
  rw [(arrivals_cons protocolVersion hrange hfits hsample arrives samples).1,
    receiveFragments_append]

theorem fragmentCount_pos (hrange : writer.InRange) (hfits : boundary * 65535 < 2 ^ 32)
    (hsample : FragmentingWriter.Transmissible boundary sample) : 0 < fragmentCount boundary sample := by
  have hcount := (arrivals_cons 0 hrange hfits hsample (fun _ => true) []).2
  rw [hcount,zero_mul]
  exact hsample.1

section
variable (hversion : protocolVersion < 2 ^ 8)
include hversion

theorem receive_next_sample
    (hrange : writer.InRange) (hfits : boundary * 65535 < 2 ^ 32)
    (hsample : FragmentingWriter.Transmissible boundary sample) {arrives : Nat → Bool}
    (hfate : sampleFate boundary (sample,arrives) ≠ .lost) (reader : DefragmentingReader) :
    let received := reader.receiveFragments protocolVersion boundary
      (((List.range (fragmentCount boundary sample)).filter arrives).map
        ((writer.wire sample).packet protocolVersion boundary))
    received.1.currentSampleNumbers writer.senderId = writer.nextSampleNumber ∧
    if writer.nextSampleNumber = reader.currentSampleNumbers writer.senderId then
      received.2.1 = 0 ∧ (reader.remainingSampleSize = 0 → received.1.remainingSampleSize = 0)
    else
      received.2.1 = returnedLoss (reader.remainingSampleSize == 0) (reader.currentSampleNumbers writer.senderId)
        writer.nextSampleNumber ∧
      (received.1.remainingSampleSize = 0 ↔ sampleFate boundary (sample,arrives) = .complete) := by
  have hvalid := hrange.wire_valid hfits hsample.1 hsample.2
  have hcount := (arrivals_cons protocolVersion hrange hfits hsample arrives []).2
  have hkept : ∀ index ∈ (List.range (fragmentCount boundary sample)).filter arrives,
      index < fragmentCount boundary sample := by
    intro index hindex
    exact mem_range.mp (mem_of_mem_filter hindex)
  by_cases hsame : writer.nextSampleNumber = reader.currentSampleNumbers writer.senderId
  · have hchunk : ∀ index ∈ (List.range (fragmentCount boundary sample)).filter arrives,
        index * boundary < (writer.wire sample).bytes.length := by
      intro index hindex
      exact (hcount index).mp (hkept index hindex)
    obtain ⟨hlost,hrecorded,hidle⟩ := receive_recorded hvalid hversion hchunk hsame.symm
    exact ⟨hrecorded,(if_pos hsame).mpr ⟨hlost,hidle⟩⟩
  · have hne := (sampleFate_eq_lost (fragmentCount_pos hrange hfits hsample)).not.mp hfate
    obtain ⟨hlost,hrecorded,hidle⟩ := receive_opening hvalid hversion hcount hkept
      (nodup_range.filter _) hne (Ne.symm hsame)
    exact ⟨hrecorded,(if_neg hsame).mpr ⟨hlost,hidle.trans sampleFate_eq_complete.symm⟩⟩

theorem losses_behind (hfits : boundary * 65535 < 2 ^ 32)
    {samples : List (List UInt8 × (Nat → Bool))}
    (hsamples : ∀ sample ∈ samples, FragmentingWriter.Transmissible boundary sample.1)
    (hrange : writer.InRange) (gap : Nat) (fate : SampleFate) {number : Nat} (hnumber : number < 65536)
    (hwriter : writer.sampleNumber = (number + gap) % 65536) {reader : DefragmentingReader}
    (hreader : reader.currentSampleNumbers writer.senderId = number) :
    let losses := (reader.receiveFragments protocolVersion boundary
      (writer.arrivals protocolVersion boundary samples)).2.1
    let missed := missedBehind gap fate (samples.map (sampleFate boundary))
    losses ≤ missed + 1 ∧ ∀ unopened, (reader.remainingSampleSize = 0 ↔ fate = .complete ∨ unopened = true) →
      losses ≤ missed ∧ (losses = missed ↔
        GapsCounted number gap unopened fate (samples.map (sampleFate boundary))) := by
  induction samples generalizing writer number gap fate reader with
  | nil => exact ⟨zero_le _,fun _ _ => ⟨le_refl _,iff_of_true rfl trivial⟩⟩
  | cons sample samples ih =>
    obtain ⟨sample,arrives⟩ := sample
    rw [forall_mem_cons] at hsamples
    have hnext : writer.nextSampleNumber = (number + gap + 1) % 65536 := by
      rw [FragmentingWriter.nextSampleNumber,hwriter]
      omega
    simp only [losses_cons hrange hfits hsamples.1,map_cons]
    by_cases hfate : sampleFate boundary (sample,arrives) = .lost
    · rw [(sampleFate_eq_lost (fragmentCount_pos hrange hfits hsamples.1)).mp hfate,hfate,map_nil]
      simp only [DefragmentingReader.receiveFragments,zero_add]
      exact ih hsamples.2 hrange.counted (gap + 1) fate hnumber hnext hreader
    · have hreceived := receive_next_sample hversion hrange hfits hsamples.1 hfate reader
      generalize reader.receiveFragments protocolVersion boundary
        (((List.range (fragmentCount boundary sample)).filter arrives).map
          ((writer.wire sample).packet protocolVersion boundary)) = received at hreceived ⊢
      generalize sampleFate boundary (sample,arrives) = next at hfate hreceived ⊢
      obtain ⟨hrecorded,hreceived⟩ := hreceived
      rw [hnext,hreader] at hreceived
      obtain ⟨hslack,hrest⟩ := ih hsamples.2 hrange.counted 0 next (mod_lt _ (by decide))
        (by simp [hnext]) (hrecorded.trans hnext)
      simp only [missedBehind_next hfate,gapsCounted_next hfate]
      by_cases hsame : (number + gap + 1) % 65536 = number
      · -- the numbers have wrapped: the reader takes the sample for the one it has recorded
        rw [if_pos hsame] at hreceived
        refine ⟨by omega,fun unopened _ => ⟨by omega,iff_of_false (by omega) fun hcounted => ?_⟩⟩
        have hcounted := hcounted.1
        rw [GapCounted] at hcounted
        split at hcounted <;> omega
      · rw [if_neg hsame] at hreceived
        obtain ⟨hlost,hidle⟩ := hreceived
        obtain ⟨hle,hiff⟩ := hrest false (hidle.trans (by simp))
        constructor
        · have hone := returnedLoss_le gap hnumber (reader.remainingSampleSize == 0)
          omega
        · intro unopened hknown
          obtain ⟨hstep,hstepiff⟩ := returnedLoss_tracked gap hnumber (beq_iff_eq.trans hknown)
          refine ⟨by omega,?_⟩
          rw [← hiff,← hstepiff]
          omega

theorem losses_from_start (hfits : boundary * 65535 < 2 ^ 32)
    (hsamples : ∀ sample ∈ samples, FragmentingWriter.Transmissible boundary sample.1)
    (hrange : writer.InRange) (before : Nat) (hwriter : writer.sampleNumber = before % 65536) :
    let losses := ((DefragmentingReader.new boundary).receiveFragments protocolVersion boundary
      (writer.arrivals protocolVersion boundary samples)).2.1
    let missed := undelivered (samplesBetween (samples.map (sampleFate boundary))).dropLast
    losses ≤ missed ∧ (losses = missed ↔ StreamCounted before (samples.map (sampleFate boundary))) := by
  induction samples generalizing writer before with
  | nil => exact ⟨le_refl _,iff_of_true rfl trivial⟩
  | cons sample samples ih =>
    obtain ⟨sample,arrives⟩ := sample
    rw [forall_mem_cons] at hsamples
    have hnext : writer.nextSampleNumber = (before + 1) % 65536 := by
      rw [FragmentingWriter.nextSampleNumber,hwriter]
      omega
    simp only [losses_cons hrange hfits hsamples.1,map_cons]
    by_cases hfate : sampleFate boundary (sample,arrives) = .lost
    · rw [(sampleFate_eq_lost (fragmentCount_pos hrange hfits hsamples.1)).mp hfate,hfate,map_nil]
      simp only [DefragmentingReader.receiveFragments,zero_add]
      exact ih hsamples.2 hrange.counted (before + 1) hnext
    · obtain ⟨hrecorded,hreceived⟩ := receive_next_sample hversion hrange hfits
        hsamples.1 hfate (DefragmentingReader.new boundary)
      have hrest := losses_behind hversion hfits hsamples.2 hrange.counted 0
        (sampleFate boundary (sample,arrives)) (mod_lt (before + 1) (by decide)) (by simp [hnext])
        (hrecorded.trans hnext)
      simp only [undelivered_between hfate,streamCounted_next hfate]
      rw [hnext,show (DefragmentingReader.new boundary).currentSampleNumbers writer.senderId = 0 from rfl] at hreceived
      by_cases hzero : (before + 1) % 65536 = 0
      · rw [if_pos hzero] at hreceived
        rw [hreceived.1,zero_add]
        exact hrest.2 _ (iff_of_true (hreceived.2 rfl) (.inr (by simp [hzero])))
      · rw [if_neg hzero] at hreceived
        obtain ⟨hlost,hidle⟩ := hreceived
        rw [hlost,show returnedLoss ((DefragmentingReader.new boundary).remainingSampleSize == 0) _ _ = 0 from rfl,
          zero_add]
        exact hrest.2 _ (hidle.trans (by simp [hzero]))

end

/-- The returned losses add up to the samples not completely delivered, from the first to the last with an arrived
fragment, exactly when every gap is counted: behind a complete sample nothing is lost, behind an incomplete one nothing
or no number wraps, and sample 0 does not come first. The last sample must be complete if counted. -/
theorem returned_losses_iff (hversion : protocolVersion < 2 ^ 8) (hfits : boundary * 65535 < 2 ^ 32)
    {senderId padding : Nat} (hsender : senderId < 2 ^ 64) (hpadding : padding < 2 ^ 24)
    {samples : List (List UInt8 × (Nat → Bool))}
    (hsamples : ∀ sample ∈ samples, FragmentingWriter.Transmissible boundary sample.1) :
    let fates := samples.map (sampleFate boundary)
    let losses := returnedLosses protocolVersion boundary senderId padding samples
    (losses = undelivered (samplesBetween fates).dropLast ↔ StreamCounted 0 fates) ∧
    (losses = undelivered (samplesBetween fates) ↔
      StreamCounted 0 fates ∧ ∀ last ∈ (samplesBetween fates).getLast?, last = .complete) := by
  obtain ⟨hle,hiff⟩ := losses_from_start hversion hfits hsamples (inRange_new hsender hpadding) 0 rfl
  refine ⟨hiff,?_⟩
  rw [← hiff,undelivered_eq_dropLast]
  split
  · rename_i hlast
    exact (and_iff_left hlast).symm
  · rename_i hlast
    refine iff_of_false ?_ fun h => hlast h.2
    exact Nat.ne_of_lt (Nat.lt_succ_of_le hle)

/-- Of the second sample the first fragment is lost, and of the third one all. -/
theorem returned_losses_second :
    let samples : List (List UInt8 × (Nat → Bool)) := [([1],fun _ => true),([1,2,3,4,5],fun index => index != 0),
      ([1],fun _ => false),([9],fun _ => true)]
    (∀ sample ∈ samples, FragmentingWriter.Transmissible 4 sample.1) ∧
      returnedLosses 1 4 7 0 samples = undelivered (samplesBetween (samples.map (sampleFate 4))) := by
  refine ⟨by simp [FragmentingWriter.Transmissible],?_⟩
  exact (returned_losses_iff (by decide) (by decide) (by decide) (by decide)
    (by simp [FragmentingWriter.Transmissible])).2.mpr (by decide)

/-- A sample lost behind a complete one is not counted. -/
theorem sample_behind_complete_not_counted :
    let samples : List (List UInt8 × (Nat → Bool)) := [([1],fun _ => true),([2],fun _ => false),([3],fun _ => true)]
    returnedLosses 1 4 7 0 samples ≠ undelivered (samplesBetween (samples.map (sampleFate 4))) := by
  decide +kernel

end FepParticipant.Transmission
