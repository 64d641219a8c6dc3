import FepParticipant.DataAccess.ReceptionHistory

/-! The lookup below an upper bound. It takes the last slot in time, whether anything was received
into it or not, and calls it valid from the first sample on. -/
namespace FepParticipant.DataAccess
open Library Transmission List

namespace Reception

variable {reception : Reception} {t : Int} {slot : SampleSlot}
variable {last : SampleSlot}

/-- The slot that `LockDataAtUpperBound` locks successfully and as a valid one. -/
def validUpTo (reception : Reception) (t : Int) : Option SampleSlot :=
  match (reception.buffer.lockDataAtUpperBound t).2 with
  | (.errNoError,some (slot,true)) => some slot
  | _ => none

def ReceivedUpTo (reception : Reception) (t : Int) (slot : SampleSlot) : Prop :=
  slot ∈ reception.buffer.samples.elements ∧ reception.Holds slot ∧ slot.tmSample ≤ t

/-- A valid sample is found exactly if one was received, and it is the newest of these. -/
def FindsNewest (reception : Reception) (t : Int) : Prop :=
  ((∃ slot, reception.validUpTo t = some slot) ↔ ∃ slot, reception.ReceivedUpTo t slot) ∧
  ∀ slot, reception.validUpTo t = some slot → reception.ReceivedUpTo t slot ∧
    ∀ other, reception.ReceivedUpTo t other → other.tmSample ≤ slot.tmSample

def lastUpTo (reception : Reception) (t : Int) : Option SampleSlot :=
  (reception.buffer.samples.elements.filter (·.tmSample ≤ t)).getLast?

/-- No slot is that early; or the last of those holds a received sample, where one with a time was stored, and none
does, where none was. -/
def LastReceived (reception : Reception) (t : Int) : Prop :=
  ∀ last ∈ reception.lastUpTo t,
    if 0 ≤ reception.lastStored.getD (-1) then reception.Holds last
    else ∀ slot, ¬reception.ReceivedUpTo t slot

/-- A received sample is that early, or no slot is, or nothing was stored at all. -/
def AnyReceived (reception : Reception) (t : Int) : Prop :=
  (∃ slot, reception.ReceivedUpTo t slot) ∨
  (∀ slot ∈ reception.buffer.samples.elements, t < slot.tmSample) ∨ reception.lastStored = none

theorem mem_lastUpTo (h : reception.lastUpTo t = some last) :
    last ∈ reception.buffer.samples.elements ∧ last.tmSample ≤ t := by
  obtain ⟨hmem,htime⟩ := mem_filter.mp (mem_of_getLast? h)
  exact ⟨hmem,of_decide_eq_true htime⟩

theorem lastUpTo_eq_none : reception.lastUpTo t = none ↔
    ∀ slot ∈ reception.buffer.samples.elements, t < slot.tmSample := by
  rw [lastUpTo,getLast?_eq_none_iff,filter_eq_nil_iff]
  simp

theorem le_lastUpTo (h : reception.lastUpTo t = some last)
    (hslot : slot ∈ reception.buffer.samples.elements) (htime : slot.tmSample ≤ t) : slot.tmSample ≤ last.tmSample := by
  have hsorted := List.Pairwise.sublist (filter_sublist (p := fun slot => decide (slot.tmSample ≤ t)))
    (pairwise_map.mp reception.buffer.samples.sorted)
  have hmem : slot ∈ reception.buffer.samples.elements.filter (·.tmSample ≤ t) :=
    mem_filter.mpr ⟨hslot,decide_eq_true htime⟩
  obtain ⟨front,hfront⟩ := getLast?_eq_some_iff.mp h
  rw [hfront] at hmem hsorted
  rcases mem_append.mp hmem with hbefore | hlast
  · exact (pairwise_append.mp hsorted).2.2 slot hbefore last (mem_singleton_self _)
  · rw [mem_singleton.mp hlast]

private theorem lock_upperBound : reception.buffer.samples.get? (if reception.buffer.samples.upperBound t ≠ 0 then
      reception.buffer.samples.upperBound t - 1 else reception.buffer.samples.size) = reception.lastUpTo t := by
  by_cases hzero : reception.buffer.samples.upperBound t = 0
  · have hlater := OrderedMultiset.upperBound_eq_zero hzero
    rw [if_neg (not_not_intro hzero),lastUpTo_eq_none.mpr hlater]
    exact getElem?_eq_none (Nat.le_refl _)
  · rw [if_pos hzero]
    exact OrderedMultiset.get?_pred_upperBound _ t hzero

private theorem validUpTo_eq (h : reception.Latest) : reception.validUpTo t =
    if 0 ≤ reception.lastStored.getD (-1) then reception.lastUpTo t else none := by
  unfold validUpTo DataSampleBuffer.lockDataAtUpperBound DataSampleBuffer.lockMatched
  dsimp only
  rw [lock_upperBound,h]
  cases reception.lastUpTo t with
  | none => simp
  | some last =>
    by_cases hstored : 0 ≤ reception.lastStored.getD (-1)
    · simp [hstored]
    · simp [hstored]

private theorem not_receivedUpTo_of_none (h : reception.lastUpTo t = none) : ¬reception.ReceivedUpTo t slot := by
  intro hreceived
  have hlater := lastUpTo_eq_none.mp h slot hreceived.1
  have hle := hreceived.2.2
  omega

theorem findsNewest_iff (h : reception.Latest) : reception.FindsNewest t ↔ reception.LastReceived t := by
  unfold FindsNewest LastReceived
  rw [validUpTo_eq h]
  by_cases hstored : 0 ≤ reception.lastStored.getD (-1)
  · simp only [if_pos hstored]
    cases hlast : reception.lastUpTo t with
    | none =>
      have hnone : ¬∃ slot, reception.ReceivedUpTo t slot := fun ⟨_,hreceived⟩ =>
        not_receivedUpTo_of_none hlast hreceived
      simp [hnone]
    | some last =>
      constructor
      · intro hfinds other hother
        cases hother
        exact (hfinds.2 last rfl).1.2.1
      · intro hholds
        have hreceived : reception.ReceivedUpTo t last :=
          ⟨(mem_lastUpTo hlast).1,hholds last rfl,(mem_lastUpTo hlast).2⟩
        refine ⟨⟨fun _ => ⟨last,hreceived⟩,fun _ => ⟨last,rfl⟩⟩,?_⟩
        intro slot hslot
        cases hslot
        exact ⟨hreceived,fun other hother => le_lastUpTo hlast hother.1 hother.2.2⟩
  · simp only [if_neg hstored]
    cases hlast : reception.lastUpTo t with
    | none =>
      have hnone : ¬∃ slot, reception.ReceivedUpTo t slot := fun ⟨_,hreceived⟩ =>
        not_receivedUpTo_of_none hlast hreceived
      simp [hnone]
    | some last => simp

private theorem holds_last (h : Inv True reception) (hlast : reception.lastUpTo t = some last)
    (hslot : reception.ReceivedUpTo t slot) : reception.Holds last := by
  have hbehind := pairwise_map.mp h.inOrder.behind
  have hfilter := hbehind.sublist (filter_sublist (p := fun slot => decide (slot.tmSample ≤ t)))
  have hmem : slot ∈ reception.buffer.samples.elements.filter (·.tmSample ≤ t) :=
    mem_filter.mpr ⟨hslot.1,decide_eq_true hslot.2.2⟩
  obtain ⟨front,hfront⟩ := getLast?_eq_some_iff.mp hlast
  rw [hfront] at hmem hfilter
  rcases mem_append.mp hmem with hbefore | hsame
  · exact (pairwise_append.mp hfilter).2.2 slot hbefore last (mem_singleton_self _) hslot.2.1
  · rw [← mem_singleton.mp hsame]
    exact hslot.2.1

private theorem lastReceived_iff_anyReceived (h : Inv True reception) : reception.LastReceived t ↔
    reception.AnyReceived t := by
  unfold LastReceived AnyReceived
  rw [← lastUpTo_eq_none]
  cases hlast : reception.lastUpTo t with
  | none => simp
  | some last =>
    cases hstored : reception.lastStored with
    | none =>
      have hnone : ∀ slot, ¬reception.ReceivedUpTo t slot := by
        intro slot hreceived
        have hmem := hreceived.2.1
        rw [Holds,h.none hstored] at hmem
        cases hmem
      simp [hnone]
    | some time =>
      have htime : 0 ≤ time := h.stored time hstored
      simp only [Option.getD_some,if_pos htime,Option.mem_some_iff,forall_eq',reduceCtorEq,or_false]
      constructor
      · intro hholds
        exact ⟨last,(mem_lastUpTo hlast).1,hholds,(mem_lastUpTo hlast).2⟩
      · rintro ⟨slot,hreceived⟩
        exact holds_last h hlast hreceived

/-- In every state and for every bound the lookup is right exactly if the last slot up to the bound was received:
without negative times, if a received sample is that early, or no slot is, or nothing was stored since the
registration. -/
theorem upper_bound_lookup (reception : Reception) (t : Int) :
    (Reaches step anyAction new reception → (reception.FindsNewest t ↔ reception.LastReceived t)) ∧
    (Reaches step (NonNegative True) new reception → (reception.FindsNewest t ↔ reception.AnyReceived t)) := by
  constructor
  · intro hreach
    exact findsNewest_iff (latest_of_reaches hreach)
  · intro hreach
    have hinv := inv_of_reaches hreach
    exact (findsNewest_iff hinv.latest).trans (lastReceived_iff_anyReceived hinv)

instance (reception : Reception) (action : ReceptionAction) : Decidable (NonNegative True reception action) :=
  match action with
  | .update sample => inferInstanceAs (Decidable (0 ≤ sample.timeStamp))
  | .signalRegistered .. => inferInstanceAs (Decidable (True ∧ reception.buffer.allocated = 0))
  | .clearAll _ | .lockDataAt .. | .lockDataAtUpperBound _ | .unlockData .. | .signalBacklogChanged .. =>
    inferInstanceAs (Decidable True)

private def sampleAt (time : Int) : DataSample := ⟨false,0,0,time,0,[1]⟩

/-- A registered signal with three slots and two samples: the earlier one is found for a bound between them. -/
theorem upper_bound_lookup_finds : ∃ reception : Reception, Reaches step (NonNegative True) new reception ∧
    (reception.validUpTo 15).any (·.tmSample == 10) = true ∧ reception.FindsNewest 15 ∧
    (reception.FindsNewest 15 ↔ reception.LastReceived 15) := by
  obtain ⟨reception,hreach,hanswer,slot,hmem,hslot⟩ : ∃ reception,
      Reaches step (NonNegative True) new reception ∧ (reception.validUpTo 15).any (·.tmSample == 10) = true ∧
      ∃ slot ∈ reception.buffer.samples.elements, reception.Holds slot ∧ slot.tmSample ≤ 15 :=
    exists_of_runAllowed [.signalRegistered 0 3 [0] [7],.update (sampleAt 20),.update (sampleAt 10)] (by decide +kernel)
  have hany : Reaches step anyAction new reception := hreach.mono fun _ _ _ => trivial
  refine ⟨reception,hreach,hanswer,?_,(upper_bound_lookup reception 15).1 hany⟩
  exact ((upper_bound_lookup reception 15).2 hreach).mpr (.inl ⟨slot,hmem,hslot⟩)

/-- One sample at time 5 in two slots: for a bound before it the unused slot is handed out as valid, after
`ClearAll` the default one. -/
theorem upper_bound_lookup_finds_unreceived : (∃ reception : Reception, Reaches step anyAction new reception ∧
      (reception.validUpTo 3).any (·.tmSample == -1) = true ∧ ¬reception.FindsNewest 3) ∧
    ∃ reception : Reception, Reaches step anyAction new reception ∧ reception.received = [] ∧
      (reception.validUpTo 3).any (·.tmSample == 0) = true ∧ ¬reception.FindsNewest 3 := by
  have hwrong : ∀ reception : Reception,
      (reception.validUpTo 3).any (fun slot => ¬reception.Holds slot) = true → ¬reception.FindsNewest 3 := by
    intro reception hanswer hfinds
    obtain ⟨slot,hslot,hnot⟩ := (Option.any_eq_true _ _).mp hanswer
    exact of_decide_eq_true hnot (hfinds.2 slot hslot).1.2.1
  constructor
  · obtain ⟨reception,hreach,hanswer,hnot⟩ : ∃ reception, Reaches step anyAction new reception ∧
        (reception.validUpTo 3).any (·.tmSample == -1) = true ∧
        (reception.validUpTo 3).any (fun slot => ¬reception.Holds slot) = true :=
      exists_of_runActions [.signalBacklogChanged 0 2 [0],.update (sampleAt 5)] (by decide +kernel)
    exact ⟨reception,hreach,hanswer,hwrong reception hnot⟩
  · obtain ⟨reception,hreach,hcleared,hanswer,hnot⟩ : ∃ reception, Reaches step anyAction new reception ∧
        reception.received.isEmpty = true ∧ (reception.validUpTo 3).any (·.tmSample == 0) = true ∧
        (reception.validUpTo 3).any (fun slot => ¬reception.Holds slot) = true :=
      exists_of_runActions [.signalRegistered 0 2 [0] [7],.update (sampleAt 5),.clearAll [7]] (by decide +kernel)
    exact ⟨reception,hreach,List.isEmpty_iff.mp hcleared,hanswer,hwrong reception hnot⟩

end Reception
end FepParticipant.DataAccess
