import FepParticipant.Transmission.WireSample

/-! The reader while it puts one sample together: what has arrived stands in the buffer and
what is missing is counted. -/
namespace FepParticipant.Transmission
open Library List

variable {protocolVersion boundary : Nat}

namespace DefragmentingReader

variable {reader : DefragmentingReader} {sample : WireSample} {index : Nat} {indices : List Nat}

/-- The reader is at work on the sample: it has the chunks with these indices. -/
structure Assembles (boundary : Nat) (reader : DefragmentingReader) (sample : WireSample)
    (indices : List Nat) : Prop where
  number : reader.currentSampleNumbers sample.senderId = sample.sampleNumber
  holds : Holds boundary sample.bytes indices reader.buffer
  remaining : reader.remainingSampleSize = missing boundary sample.bytes.length indices

@[simp] theorem length_resize (buffer : List UInt8) (size : Nat) : (resize buffer size).length = size := by
  simp only [resize,length_append,length_take,length_replicate]
  omega

theorem assembles_openSample (hopens : reader.opens (sample.header protocolVersion boundary index) = true) :
    (reader.openSample (sample.header protocolVersion boundary index)).Assembles boundary sample [] := by
  simp only [openSample,hopens,if_true]
  refine ⟨by simp [WireSample.header],⟨by simp [WireSample.header],?_⟩,by simp [WireSample.header]⟩
  intro position hposition
  cases hposition

theorem openSample_of_not_opens {fragment : Fragment} (hopens : reader.opens fragment = false) :
    reader.openSample fragment = reader := by
  simp [openSample,hopens]

theorem Assembles.not_opens (h : reader.Assembles boundary sample indices) :
    reader.opens (sample.header protocolVersion boundary index) = false := by
  simp [opens,WireSample.header,h.number]

theorem Assembles.remaining_ne_zero (h : reader.Assembles boundary sample indices) (hvalid : sample.Valid boundary)
    (hindex : index * boundary < sample.bytes.length) (hnew : index ∉ indices) : reader.remainingSampleSize ≠ 0 := by
  have hmissing := missing_cons hvalid.boundary_pos sample.bytes hnew
  have hpos := hvalid.chunk_pos hindex
  have hremaining := h.remaining
  omega

theorem destination_eq (hvalid : sample.Valid boundary) (hindex : index * boundary < sample.bytes.length) :
    index * boundary % 2 ^ 32 = index * boundary :=
  Nat.mod_eq_of_lt (lt_trans hindex (lt_of_le_of_lt hvalid.le hvalid.fits))

theorem Assembles.takes (protocolVersion : Nat) (h : reader.Assembles boundary sample indices)
    (hvalid : sample.Valid boundary) (hindex : index * boundary < sample.bytes.length) (hnew : index ∉ indices) :
    reader.takes boundary (sample.header protocolVersion boundary index) = true := by
  have hmissing := missing_cons hvalid.boundary_pos sample.bytes hnew
  have hfits := h.holds.fits (le_of_lt hindex)
  have hremaining := h.remaining
  rw [DefragmentingReader.takes,Bool.and_eq_true]
  constructor
  · apply decide_eq_true
    simp only [WireSample.header]
    omega
  · apply decide_eq_true
    simp only [WireSample.header,destination_eq hvalid hindex]
    exact hfits

theorem Assembles.copy (protocolVersion : Nat) (h : reader.Assembles boundary sample indices)
    (hvalid : sample.Valid boundary) (hindex : index * boundary < sample.bytes.length) (hnew : index ∉ indices) :
    (reader.copyPayload boundary (sample.header protocolVersion boundary index)
      (chunk boundary sample.bytes index)).Assembles boundary sample (index::indices) := by
  have hmissing := missing_cons hvalid.boundary_pos sample.bytes hnew
  simp only [copyPayload,h.takes protocolVersion hvalid hindex hnew,if_true]
  refine ⟨h.number,?_,?_⟩
  · have htake : (chunk boundary sample.bytes index).take
        (sample.header protocolVersion boundary index).size = chunk boundary sample.bytes index :=
      take_length
    rw [htake]
    simp only [WireSample.header,destination_eq hvalid hindex]
    exact h.holds.write hvalid.boundary_pos (le_of_lt hindex)
  · simp only [WireSample.header,h.remaining]
    omega

private theorem Assembles.report_eq (h : reader.Assembles boundary sample indices) :
    reader.report (sample.header protocolVersion boundary index) =
      if missing boundary sample.bytes.length indices = 0 then some (.sample sample.bytes) else none := by
  rw [report,h.remaining]
  split
  · rename_i hzero
    have hbuffer := h.holds.complete hzero
    simp [WireSample.header,hbuffer]
  · rfl

theorem receive_next (hvalid : sample.Valid boundary) (hversion : protocolVersion < 2 ^ 8)
    (hindex : index * boundary < sample.bytes.length)
    (hnext : (reader.openSample (sample.header protocolVersion boundary index)).Assembles boundary sample indices)
    (hnew : index ∉ indices) : ∃ next : DefragmentingReader,
    reader.receiveFragment protocolVersion boundary (sample.packet protocolVersion boundary index) =
      (next,reader.lost (sample.header protocolVersion boundary index),
        if missing boundary sample.bytes.length (index::indices) = 0 then some (.sample sample.bytes)
        else none) ∧ next.Assembles boundary sample (index::indices) := by
  have hcopied := hnext.copy protocolVersion hvalid hindex hnew
  refine ⟨_,?_,hcopied⟩
  rw [hvalid.receive_packet hversion hindex,acceptFragment,hcopied.report_eq]

end DefragmentingReader

/-- An access to memory: to the fragment, the buffer with its size, the counter, or the reported length. -/
inductive MemoryAccess where
  | readFragment (offset count : Nat)
  | writeBuffer (offset count size : Nat)
  | subtract (remaining amount : Nat)
  | report (length size : Nat)

def MemoryAccess.Within (length : Nat) : MemoryAccess → Prop
  | readFragment offset count => offset + count ≤ length
  | writeBuffer offset count size => offset + count ≤ size
  | subtract remaining amount => amount ≤ remaining
  | report reported size => reported ≤ size

instance (length : Nat) (access : MemoryAccess) : Decidable (access.Within length) := by
  cases access <;> exact inferInstanceAs (Decidable (_ ≤ _))

variable (protocolVersion boundary : Nat)

namespace DefragmentingReader

/-- The accesses for a fragment of this protocol, behind those to its magic number and version. -/
def acceptAccesses (reader : DefragmentingReader) (fragment : Fragment) (payload : List UInt8) : List MemoryAccess :=
  let opened := reader.openSample fragment
  let copied := opened.copyPayload boundary fragment payload
  [.readFragment 12 8,.readFragment 20 4] ++
    (if reader.opens fragment then [.readFragment 24 4] else []) ++ [.readFragment 28 4] ++
    (if fragment.size ≤ opened.remainingSampleSize then [.readFragment 32 2] else []) ++
    (if opened.takes boundary fragment then
      [.readFragment Fragment.sizeofFragment fragment.size,
        .writeBuffer (fragment.index * boundary % 2 ^ 32) fragment.size opened.buffer.length,
        .subtract opened.remainingSampleSize fragment.size] else []) ++
    (if copied.remainingSampleSize = 0 then
      [.readFragment 24 4,.report fragment.sampleSize copied.buffer.length] else [])

/-- The accesses of `receiveFragment`. -/
def accesses (reader : DefragmentingReader) (bytes : List UInt8) : List MemoryAccess :=
  if bytes.length < Fragment.sizeofFragment then []
  else
    let (fragment,payload) := Fragment.decode bytes
    if fragment.magic ≠ Fragment.magicNumber then [.readFragment 0 8]
    else if fragment.version ≠ protocolVersion then [.readFragment 0 8,.readFragment 8 1]
    else [.readFragment 0 8,.readFragment 8 1] ++ reader.acceptAccesses boundary fragment payload

def StaysInside (reader : DefragmentingReader) : List (List UInt8) → Prop
  | [] => True
  | bytes::others => (∀ access ∈ reader.accesses protocolVersion boundary bytes, access.Within bytes.length) ∧
      (reader.receiveFragment protocolVersion boundary bytes).1.StaysInside others

/-- A fragment whose payload is taken has as many bytes as its header says, and one with the recorded number that
leaves nothing to come has a sample size for which there is room. -/
def WellSized (reader : DefragmentingReader) (bytes : List UInt8) : Prop :=
  let (fragment,payload) := Fragment.decode bytes
  Fragment.sizeofFragment ≤ bytes.length → fragment.magic = Fragment.magicNumber → fragment.version = protocolVersion →
    ((reader.openSample fragment).takes boundary fragment = true → fragment.size ≤ payload.length) ∧
    (reader.opens fragment = false →
      reader.remainingSampleSize = (if reader.takes boundary fragment then fragment.size else 0) →
        fragment.sampleSize ≤ reader.buffer.length)

def AllWellSized (reader : DefragmentingReader) : List (List UInt8) → Prop
  | [] => True
  | bytes::others => reader.WellSized protocolVersion boundary bytes ∧
      (reader.receiveFragment protocolVersion boundary bytes).1.AllWellSized others

variable {protocolVersion boundary} {reader : DefragmentingReader} {fragment : Fragment} {payload : List UInt8}

theorem takes_iff : reader.takes boundary fragment = true ↔ fragment.size ≤ reader.remainingSampleSize ∧
    fragment.index * boundary % 2 ^ 32 + fragment.size ≤ reader.buffer.length := by
  rw [takes,Bool.and_eq_true,decide_eq_true_eq,decide_eq_true_eq]

theorem length_copyPayload : (reader.copyPayload boundary fragment payload).buffer.length = reader.buffer.length := by
  rw [copyPayload]
  split
  · rename_i htakes
    apply length_writeAt
    have hroom := (takes_iff.mp htakes).2
    have hle : (payload.take fragment.size).length ≤ fragment.size := length_take_le _ _
    omega
  · rfl

theorem remaining_copyPayload : (reader.copyPayload boundary fragment payload).remainingSampleSize = 0 ↔
    reader.remainingSampleSize = if reader.takes boundary fragment then fragment.size else 0 := by
  rw [copyPayload]
  split
  · rename_i htakes
    have hsize := (takes_iff.mp htakes).1
    show reader.remainingSampleSize - fragment.size = 0 ↔ _
    omega
  · exact Iff.rfl

theorem length_openSample (hopens : reader.opens fragment = true) :
    (reader.openSample fragment).buffer.length = fragment.sampleSize := by
  rw [openSample,if_pos hopens]
  exact length_resize _ _

theorem forall_mem_if {α : Type} {p : Prop} [Decidable p] {P : α → Prop} {elements : List α} :
    (∀ element ∈ (if p then elements else []), P element) ↔ (p → ∀ element ∈ elements, P element) := by
  by_cases hp : p <;> simp [hp]

theorem acceptAccesses_within {length : Nat} (hheader : Fragment.sizeofFragment ≤ length) :
    (∀ access ∈ reader.acceptAccesses boundary fragment payload, access.Within length) ↔
      ((reader.openSample fragment).takes boundary fragment = true → Fragment.sizeofFragment + fragment.size ≤ length) ∧
      (((reader.openSample fragment).copyPayload boundary fragment payload).remainingSampleSize = 0 →
        fragment.sampleSize ≤ (reader.openSample fragment).buffer.length) := by
  have hfield (offset count : Nat) (hend : offset + count ≤ Fragment.sizeofFragment) :
      (MemoryAccess.readFragment offset count).Within length := le_trans hend hheader
  have hsampleSize := hfield 24 4 (by decide)
  have hguarded (htakes : (reader.openSample fragment).takes boundary fragment = true) :
      (MemoryAccess.writeBuffer (fragment.index * boundary % 2 ^ 32) fragment.size
        (reader.openSample fragment).buffer.length).Within length ∧
      (MemoryAccess.subtract (reader.openSample fragment).remainingSampleSize fragment.size).Within length :=
    ⟨(takes_iff.mp htakes).2,(takes_iff.mp htakes).1⟩
  simp only [acceptAccesses,forall_mem_append,forall_mem_if,forall_mem_cons,length_copyPayload,
    not_mem_nil,false_implies,implies_true,and_true]
  constructor
  · rintro ⟨⟨-,htaken⟩,hreported⟩
    exact ⟨fun htakes => (htaken htakes).1,fun hdone => (hreported hdone).2⟩
  · rintro ⟨htaken,hreported⟩
    refine ⟨⟨⟨⟨⟨⟨hfield 12 8 (by decide),hfield 20 4 (by decide)⟩,fun _ => hsampleSize⟩,hfield 28 4 (by decide)⟩,
      fun _ => hfield 32 2 (by decide)⟩,?_⟩,?_⟩
    · exact fun htakes => ⟨htaken htakes,hguarded htakes⟩
    · exact fun hdone => ⟨hsampleSize,hreported hdone⟩

private theorem length_decode (bytes : List UInt8) :
    (Fragment.decode bytes).2.length = bytes.length - Fragment.sizeofFragment := by
  simp only [Fragment.decode,takeField,length_drop,Fragment.sizeofFragment]
  omega

theorem accesses_within_iff (bytes : List UInt8) :
    (∀ access ∈ reader.accesses protocolVersion boundary bytes, access.Within bytes.length) ↔
      reader.WellSized protocolVersion boundary bytes := by
  have hpayload := length_decode bytes
  rw [accesses,WellSized]
  generalize Fragment.decode bytes = decoded at hpayload ⊢
  obtain ⟨fragment,payload⟩ := decoded
  change payload.length = _ at hpayload
  by_cases hlength : bytes.length < Fragment.sizeofFragment
  · rw [if_pos hlength]
    exact iff_of_true (fun _ hnone => absurd hnone not_mem_nil) fun hle => absurd hlength (Nat.not_lt_of_le hle)
  have hheader := Nat.le_of_not_lt hlength
  have hmagicRead : (MemoryAccess.readFragment 0 8).Within bytes.length := le_trans (by decide) hheader
  have hversionRead : (MemoryAccess.readFragment 8 1).Within bytes.length := le_trans (by decide) hheader
  rw [if_neg hlength]
  by_cases hmagic : fragment.magic = Fragment.magicNumber
  · by_cases hversion : fragment.version = protocolVersion
    · simp only [hmagic,hversion,ne_eq,not_true_eq_false,if_false,forall_mem_append,
        acceptAccesses_within hheader,forall_mem_cons,hmagicRead,hversionRead,true_and,hheader,true_implies,
        remaining_copyPayload,not_mem_nil,false_implies,implies_true]
      refine and_congr (imp_congr_right fun _ => by omega) ?_
      cases hopens : reader.opens fragment with
      | true =>
        rw [length_openSample hopens]
        exact iff_of_true (fun _ => le_refl _) (by simp)
      | false => simp [openSample_of_not_opens hopens]
    · simp [hmagic,hversion,hmagicRead,hversionRead]
  · simp [hmagic,hmagicRead]

/-- Any sequence of byte strings is received without an access outside exactly when each is well sized for the
reader it finds. -/
theorem stays_inside_iff_all_well_sized (protocolVersion boundary : Nat) (fragments : List (List UInt8)) :
    (new boundary).StaysInside protocolVersion boundary fragments ↔
      (new boundary).AllWellSized protocolVersion boundary fragments := by
  generalize new boundary = reader
  induction fragments generalizing reader with
  | nil => exact Iff.rfl
  | cons bytes others ih => exact and_congr (accesses_within_iff bytes) (ih _)

/-- A header that promises a byte of payload which is not there. -/
theorem payload_read_outside : ¬(new 4).StaysInside 1 4
    [(Fragment.encode ⟨Fragment.magicNumber,1,0,7,1,1,1,0⟩)] := by
  rintro ⟨hinside,-⟩
  revert hinside
  decide +kernel

end DefragmentingReader
end FepParticipant.Transmission
