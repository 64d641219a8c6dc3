import FepParticipant.Library.Reachability
import FepParticipant.Transmission.Reassembly

/-! Any number of senders transmit on one signal and one reader, with one buffer for all, puts their samples together.
Fragments on their way may be lost, duplicated and overtake each other. -/
namespace FepParticipant.Transmission
open Library List DefragmentingReader

/-- A packet that may arrive any time and any number of times; the origin numbers its sample among all transmitted. -/
structure Flight where
  origin : Nat
  index : Nat
  packet : List UInt8

/-- The signal with its history: the samples transmitted, the one opened last, the fragments (by origin and index)
copied since, and the reports with the origin of their last fragment. -/
structure SharedSignal where
  writers : UInt64 → FragmentingWriter
  transmitted : List WireSample
  network : List Flight
  reader : DefragmentingReader
  opened : Option Nat
  copied : List (Nat × Nat)
  reports : List (Nat × Report)

inductive SignalAction where
  | transmit (sender : UInt64) (transmits : List UInt8 → Bool) (sample : List UInt8)
  | arrive (position : Nat)

variable {protocolVersion boundary : Nat}

namespace SharedSignal
variable {flight : Flight}

/-- Writers whose paddings are what was in their buffers. -/
def new (boundary : Nat) (padding : UInt64 → Nat) : SharedSignal where
  writers := fun sender => FragmentingWriter.new sender.toNat (padding sender)
  transmitted := []
  network := []
  reader := DefragmentingReader.new boundary
  opened := none
  copied := []
  reports := []

def transmit (protocolVersion boundary : Nat) (signal : SharedSignal) (sender : UInt64)
    (transmits : List UInt8 → Bool) (sample : List UInt8) : SharedSignal :=
  if sample.length = 0 ∨ FragmentingWriter.maxSampleSize boundary < sample.length then signal
  else
    let (writer,packets,_) := (signal.writers sender).transmitSample protocolVersion boundary transmits sample
    { signal with
      writers := fun other => if other = sender then writer else signal.writers other
      transmitted := signal.transmitted ++ [(signal.writers sender).wire sample]
      network := signal.network ++ packets.mapIdx fun index packet => ⟨signal.transmitted.length,index,packet⟩ }

/-- A packet arrives at the reader. -/
def arrive (protocolVersion boundary : Nat) (signal : SharedSignal) (flight : Flight) : SharedSignal :=
  let fragment := (Fragment.decode flight.packet).1
  let (reader,_,report) := signal.reader.receiveFragment protocolVersion boundary flight.packet
  let kept := if signal.reader.opens fragment then [] else signal.copied
  { signal with
    reader := reader
    opened := if signal.reader.opens fragment then some flight.origin else signal.opened
    copied := if (signal.reader.openSample fragment).takes boundary fragment then
        (flight.origin,flight.index)::kept else kept
    reports := signal.reports ++ report.toList.map fun report => (flight.origin,report) }

def step (protocolVersion boundary : Nat) (signal : SharedSignal) : SignalAction → Option SharedSignal
  | .transmit sender transmits sample => some (signal.transmit protocolVersion boundary sender transmits sample)
  | .arrive position => signal.network[position]?.map (signal.arrive protocolVersion boundary)

/-- What was reported are samples transmitted, each reported once. -/
def Genuine (signal : SharedSignal) : Prop :=
  ∃ origins : List Nat, origins.Nodup ∧
    List.Forall₂ (fun origin report => ∃ sample, signal.transmitted[origin]? = some sample ∧
      report = .sample sample.bytes) origins (signal.reports.map Prod.snd)

/-- A fragment that starts a sample is not late: none was reported. One that continues does so for the sample opened
last with a new chunk, or is dropped. -/
def InPlace (boundary : Nat) (signal : SharedSignal) : SignalAction → Prop
  | .transmit .. => True
  | .arrive position => ∀ flight ∈ signal.network[position]?,
      let fragment := (Fragment.decode flight.packet).1
      if signal.reader.opens fragment then flight.origin ∉ signal.reports.map Prod.fst
      else (signal.opened = some flight.origin ∧ (flight.origin,flight.index) ∉ signal.copied) ∨
        (signal.reader.remainingSampleSize ≠ 0 ∧ signal.reader.takes boundary fragment = false)

def Authentic (protocolVersion boundary : Nat) (transmitted : List WireSample) (flight : Flight) : Prop :=
  ∃ sample, transmitted[flight.origin]? = some sample ∧ sample.Valid boundary ∧
    flight.index * boundary < sample.bytes.length ∧
    flight.packet = sample.packet protocolVersion boundary flight.index

/-- The reader has the fragments copied of one sample, and that sample is reported only when
nothing of it remains. -/
structure Assembly (boundary : Nat) (signal : SharedSignal) (origin : Nat) : Prop where
  sample : ∃ sample, signal.transmitted[origin]? = some sample ∧
    signal.reader.Assembles boundary sample (signal.copied.map Prod.snd)
  copied : ∀ entry ∈ signal.copied, entry.1 = origin
  unreported : signal.reader.remainingSampleSize ≠ 0 → origin ∉ signal.reports.map Prod.fst

structure SharedInv (protocolVersion boundary : Nat) (signal : SharedSignal) : Prop where
  writers : ∀ sender, (signal.writers sender).InRange
  network : ∀ flight ∈ signal.network, Authentic protocolVersion boundary signal.transmitted flight
  reports : ∀ entry ∈ signal.reports, ∃ sample, signal.transmitted[entry.1]? = some sample ∧
    entry.2 = .sample sample.bytes
  once : (signal.reports.map Prod.fst).Nodup
  opened : ∀ origin, signal.opened = some origin → Assembly boundary signal origin

variable {signal : SharedSignal}

theorem SharedInv.genuine (h : SharedInv protocolVersion boundary signal) : signal.Genuine := by
  refine ⟨signal.reports.map Prod.fst,h.once,?_⟩
  rw [forall₂_map_left_iff,forall₂_map_right_iff,forall₂_same]
  exact h.reports

theorem getElem?_transmitted {transmitted : List WireSample} {origin : Nat} {sample : WireSample}
    (h : transmitted[origin]? = some sample) (more : List WireSample) :
    (transmitted ++ more)[origin]? = some sample := by
  rw [getElem?_append_left (List.getElem?_eq_some_iff.mp h).1,h]

private theorem Authentic.append {transmitted : List WireSample} {flight : Flight}
    (h : Authentic protocolVersion boundary transmitted flight) (more : List WireSample) :
    Authentic protocolVersion boundary (transmitted ++ more) flight := by
  obtain ⟨sample,horigin,hrest⟩ := h
  exact ⟨sample,getElem?_transmitted horigin more,hrest⟩

theorem sharedInv_new {padding : UInt64 → Nat} (hpadding : ∀ sender, padding sender < 2 ^ 24) :
    SharedInv protocolVersion boundary (new boundary padding) where
  writers sender := FragmentingWriter.inRange_new sender.toNat_lt (hpadding sender)
  network flight hflight := by cases hflight
  reports entry hentry := by cases hentry
  once := nodup_nil
  opened origin horigin := by cases horigin

theorem sharedInv_transmit (h : SharedInv protocolVersion boundary signal) (hfits : boundary * 65535 < 2 ^ 32)
    (sender : UInt64) (transmits : List UInt8 → Bool) (sample : List UInt8) :
    SharedInv protocolVersion boundary (signal.transmit protocolVersion boundary sender transmits sample) := by
  unfold transmit
  split
  · exact h
  · rename_i haccepts
    have hsize : FragmentingWriter.maxSampleSize boundary = boundary * 65535 := Nat.mod_eq_of_lt hfits
    have hvalid : ((signal.writers sender).wire sample).Valid boundary :=
      (h.writers sender).wire_valid hfits (by omega) (by omega)
    obtain ⟨hwriter,count,hpackets,hbelow,-⟩ :=
      FragmentingWriter.transmitSample_packets protocolVersion transmits hvalid
    refine ⟨?_,?_,?_,h.once,?_⟩
    · intro other
      simp only [hwriter]
      split
      · exact (h.writers sender).counted
      · exact h.writers other
    · intro flight hflight
      rcases mem_append.mp hflight with hold | hnew
      · exact (h.network flight hold).append _
      · obtain ⟨index,hlt,rfl⟩ := mem_mapIdx.mp hnew
        simp only [hpackets] at hlt ⊢
        rw [length_map,length_range] at hlt
        refine ⟨_,getElem?_concat_length,hvalid,hbelow index hlt,?_⟩
        simp
    · intro entry hentry
      obtain ⟨reported,horigin,hreport⟩ := h.reports entry hentry
      exact ⟨reported,getElem?_transmitted horigin _,hreport⟩
    · intro origin hopened
      obtain ⟨⟨assembled,horigin,hassembles⟩,hcopied,hunreported⟩ := h.opened origin hopened
      exact ⟨⟨assembled,getElem?_transmitted horigin _,hassembles⟩,hcopied,hunreported⟩

theorem sharedInv_assembled (h : SharedInv protocolVersion boundary signal)
    (hversion : protocolVersion < 2 ^ 8) {sample : WireSample}
    (horigin : signal.transmitted[flight.origin]? = some sample) (hvalid : sample.Valid boundary)
    (hindex : flight.index * boundary < sample.bytes.length)
    (hpacket : flight.packet = sample.packet protocolVersion boundary flight.index) (kept : List (Nat × Nat))
    (hkept : (if signal.reader.opens (sample.header protocolVersion boundary flight.index) then []
      else signal.copied) = kept)
    (hopened : (if signal.reader.opens (sample.header protocolVersion boundary flight.index) then
      some flight.origin else signal.opened) = some flight.origin)
    (hassembles : (signal.reader.openSample (sample.header protocolVersion boundary flight.index)).Assembles
      boundary sample (kept.map Prod.snd))
    (hentries : ∀ entry ∈ kept, entry.1 = flight.origin) (hnew : flight.index ∉ kept.map Prod.snd)
    (hunreported : flight.origin ∉ signal.reports.map Prod.fst) :
    SharedInv protocolVersion boundary (signal.arrive protocolVersion boundary flight) := by
  obtain ⟨next,hreceive,hnext⟩ := receive_next hvalid hversion hindex hassembles hnew
  have htakes := hassembles.takes protocolVersion hvalid hindex hnew
  have harrive : signal.arrive protocolVersion boundary flight = { signal with
        reader := next
        opened := some flight.origin
        copied := (flight.origin,flight.index)::kept
        reports := signal.reports ++
          if missing boundary sample.bytes.length (flight.index::kept.map Prod.snd) = 0 then
            [(flight.origin,Report.sample sample.bytes)] else [] } := by
    simp only [arrive,hpacket,hvalid.decode_packet hversion hindex,hreceive,hkept,hopened,htakes,if_true]
    split
    · rfl
    · rfl
  rw [harrive]
  refine ⟨h.writers,h.network,?_,?_,?_⟩
  · intro entry hentry
    rcases mem_append.mp hentry with hold | hreported
    · exact h.reports entry hold
    · split at hreported
      · rw [mem_singleton.mp hreported]
        exact ⟨sample,horigin,rfl⟩
      · cases hreported
  · split
    · rw [map_append]
      exact List.nodup_append.mpr ⟨h.once,nodup_singleton _,by
        rintro _ hreported _ hsame rfl
        rw [map_singleton,mem_singleton] at hsame
        subst hsame
        exact hunreported hreported⟩
    · simpa using h.once
  · intro origin horigin'
    cases horigin'
    refine ⟨⟨sample,horigin,hnext⟩,?_,?_⟩
    · intro entry hentry
      rcases mem_cons.mp hentry with rfl | hold
      · rfl
      · exact hentries entry hold
    · intro hremains
      rw [if_neg (hnext.remaining ▸ hremains),append_nil]
      exact hunreported

private theorem arrive_dropped (hversion : protocolVersion < 2 ^ 8) {sample : WireSample}
    (hvalid : sample.Valid boundary) (hindex : flight.index * boundary < sample.bytes.length)
    (hpacket : flight.packet = sample.packet protocolVersion boundary flight.index)
    (hopens : signal.reader.opens (sample.header protocolVersion boundary flight.index) = false)
    (hremains : signal.reader.remainingSampleSize ≠ 0)
    (hrefuses : signal.reader.takes boundary (sample.header protocolVersion boundary flight.index) = false) :
    signal.arrive protocolVersion boundary flight = signal := by
  have hcontinues := openSample_of_not_opens hopens
  simp [arrive,hpacket,hvalid.decode_packet hversion hindex,hvalid.receive_packet hversion hindex,
    DefragmentingReader.acceptFragment,hcontinues,DefragmentingReader.copyPayload,hrefuses,
    DefragmentingReader.report,hremains,hopens]

theorem sharedInv_arrive (h : SharedInv protocolVersion boundary signal) (hversion : protocolVersion < 2 ^ 8)
    {position : Nat} (hflight : signal.network[position]? = some flight)
    (hplace : signal.InPlace boundary (.arrive position)) :
    SharedInv protocolVersion boundary (signal.arrive protocolVersion boundary flight) := by
  obtain ⟨sample,horigin,hvalid,hindex,hpacket⟩ := h.network flight (mem_of_getElem? hflight)
  have hplace := hplace flight hflight
  rw [hpacket,hvalid.decode_packet hversion hindex] at hplace
  cases hopens : signal.reader.opens (sample.header protocolVersion boundary flight.index) with
  | true =>
    rw [if_pos hopens] at hplace
    exact sharedInv_assembled h hversion horigin hvalid hindex hpacket [] (if_pos hopens) (if_pos hopens)
      (assembles_openSample hopens) (by simp) (by simp) hplace
  | false =>
    have hcontinues := openSample_of_not_opens hopens
    simp only [hopens] at hplace
    rcases hplace with ⟨hopened,hnotcopied⟩ | ⟨hremains,hrefuses⟩
    · obtain ⟨⟨assembled,horigin',hassembles⟩,hcopied,hunreported⟩ := h.opened _ hopened
      cases horigin.symm.trans horigin'
      have hnew : flight.index ∉ signal.copied.map Prod.snd := by
        intro hmem
        obtain ⟨entry,hentry,hsnd⟩ := mem_map.mp hmem
        have hfst := hcopied entry hentry
        exact hnotcopied (hfst ▸ hsnd ▸ hentry)
      apply sharedInv_assembled h hversion horigin hvalid hindex hpacket signal.copied
      · simp [hopens]
      · simpa [hopens] using hopened
      · rwa [hcontinues]
      · exact hcopied
      · exact hnew
      · exact hunreported (hassembles.remaining_ne_zero hvalid hindex hnew)
    · rwa [arrive_dropped hversion hvalid hindex hpacket hopens hremains hrefuses]

/-- In every run in which each arriving fragment is in its place, the reader reports only transmitted samples, each
at most once. -/
theorem reports_genuine {padding : UInt64 → Nat} (hversion : protocolVersion < 2 ^ 8)
    (hfits : boundary * 65535 < 2 ^ 32) (hpadding : ∀ sender, padding sender < 2 ^ 24)
    (hreach : Reaches (step protocolVersion boundary) (InPlace boundary) (new boundary padding) signal) :
    signal.Genuine := by
  have hinv : SharedInv protocolVersion boundary signal := by
    apply hreach.invariant (sharedInv_new hpadding)
    intro before action after hinv hplace hstep
    cases action with
    | transmit sender transmits sample =>
      cases hstep
      exact sharedInv_transmit hinv hfits sender transmits sample
    | arrive position =>
      obtain ⟨flight,hflight,rfl⟩ := Option.map_eq_some_iff.mp hstep
      exact sharedInv_arrive hinv hversion hflight hplace
  exact hinv.genuine

instance (boundary : Nat) (signal : SharedSignal) (action : SignalAction) :
    Decidable (InPlace boundary signal action) :=
  match action with
  | .transmit .. => inferInstanceAs (Decidable True)
  | .arrive position => inferInstanceAs (Decidable (∀ flight ∈ signal.network[position]?, _))

/-- Sample 0 of sender 1 loses its second fragment, sample 1 arrives in reverse order and a late fragment of sender
2 is dropped. -/
theorem reports_genuine_after_loss : ∃ signal : SharedSignal, Reaches (step 1 4) (InPlace 4) (new 4 fun _ => 0) signal ∧
      signal.reports.map Prod.snd = [.sample [5,6,7,8,9]] ∧ signal.Genuine := by
  obtain ⟨signal,hreach,hone⟩ : ∃ signal, Reaches (step 1 4) (InPlace 4) (new 4 fun _ => 0) signal ∧
      signal.reports.map Prod.snd = [.sample [5,6,7,8,9]] :=
    exists_of_runAllowed [.transmit 1 (fun _ => true) [1,2,3,4,5,6],.arrive 0,
      .transmit 1 (fun _ => true) [5,6,7,8,9],.arrive 3,.arrive 2] (by decide +kernel)
  exact ⟨signal,hreach,hone,reports_genuine (by decide) (by decide) (fun _ => by decide) hreach⟩

private theorem Genuine.length_le (h : signal.Genuine) : signal.reports.length ≤ signal.transmitted.length := by
  obtain ⟨origins,hnodup,hall⟩ := h
  have hrange : origins ⊆ List.range signal.transmitted.length := by
    intro origin horigin
    obtain ⟨position,hposition,rfl⟩ := getElem_of_mem horigin
    obtain ⟨sample,hsample,-⟩ := hall.get hposition (hall.length_eq ▸ hposition)
    exact mem_range.mpr (List.getElem?_eq_some_iff.mp hsample).1
  have hle := (subperm_of_subset hnodup hrange).length_le
  rwa [hall.length_eq,length_map,length_range] at hle

/-- Two senders' interleaved fragments are mixed into a sample nobody transmitted; a fragment that arrives twice has
its sample reported twice. -/
theorem samples_mixed_and_repeated : (∃ signal : SharedSignal, Reaches (step 1 4) anyAction (new 4 fun _ => 0) signal ∧
      signal.reports.map Prod.snd = [.sample [2,2,2,2,1,1]] ∧ ¬signal.Genuine) ∧
    ∃ signal : SharedSignal, Reaches (step 1 4) anyAction (new 4 fun _ => 0) signal ∧
      signal.transmitted.length = 1 ∧ signal.reports.length = 2 ∧ ¬signal.Genuine := by
  constructor
  · obtain ⟨signal,hreach,htransmitted,hreports⟩ :
        ∃ signal, Reaches (step 1 4) anyAction (new 4 fun _ => 0) signal ∧
          signal.transmitted.map WireSample.bytes = [[1,1,1,1,1,1],[2,2,2,2,2,2]] ∧
          signal.reports.map Prod.snd = [.sample [2,2,2,2,1,1]] :=
      exists_of_runActions [.transmit 1 (fun _ => true) [1,1,1,1,1,1],
        .transmit 2 (fun _ => true) [2,2,2,2,2,2],.arrive 0,.arrive 2,.arrive 1] (by decide +kernel)
    refine ⟨signal,hreach,hreports,?_⟩
    rintro ⟨origins,-,hall⟩
    rw [hreports] at hall
    obtain ⟨origin,-,⟨sample,hsample,hbytes⟩,-,-⟩ := forall₂_cons_right_iff.mp hall
    have hmem := mem_map_of_mem (f := WireSample.bytes) (mem_of_getElem? hsample)
    rw [htransmitted,← Report.sample.inj hbytes] at hmem
    exact absurd hmem (by decide)
  · obtain ⟨signal,hreach,hone,htwo⟩ : ∃ signal, Reaches (step 1 4) anyAction (new 4 fun _ => 0) signal ∧
        signal.transmitted.length = 1 ∧ signal.reports.length = 2 :=
      exists_of_runActions [.transmit 1 (fun _ => true) [1,1],.arrive 0,.arrive 0] (by decide +kernel)
    refine ⟨signal,hreach,hone,htwo,?_⟩
    intro hgenuine
    have hle := hgenuine.length_le
    omega

end SharedSignal
end FepParticipant.Transmission
