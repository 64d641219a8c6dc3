import FepParticipant.DataAccess.ReceptionHistory

/-! The lookups of the nearest and of the latest sample. The search looks at the slot in front of
the one it found, and there is none in front of the first. -/
namespace FepParticipant.DataAccess
open Library Transmission Option List OrderedMultiset DataSampleBuffer

namespace DataSampleBuffer

/-- The search of `LockDataAt` move by move; it has no result where an iterator leaves the backlog. -/
def nearestSearch (buffer : DataSampleBuffer) (tmSimulation : Int) : Option Nat :=
  let it := buffer.samples.lowerBound tmSimulation
  if it = buffer.samples.size then buffer.latestSlot
  else
    -- skip empty slots
    let it := it + ((buffer.samples.elements.drop it).takeWhile SampleSlot.isUnused).length
    (buffer.samples.get? it).bind fun slot =>
      if slot.tmSample = tmSimulation then some it
      else
        -- std::advance(it_prev, -1)
        if it = 0 then none
        else (buffer.samples.get? (it - 1)).map fun previous =>
          if previous.isUnused then it
          else if slot.tmSample - tmSimulation ≤ tmSimulation - previous.tmSample then it
          else it - 1

variable {buffer : DataSampleBuffer} {tmSimulation : Int} {matched : Nat}

theorem nearestSlot_of_nearestSearch (h : buffer.nearestSearch tmSimulation = some matched) :
    buffer.nearestSlot tmSimulation = some matched := by
  unfold nearestSearch at h
  unfold nearestSlot
  dsimp only at h ⊢
  split at h
  · rename_i hend
    rw [if_pos hend]
    exact h
  · rename_i hend
    rw [if_neg hend]
    obtain ⟨slot,hslot,hfound⟩ := bind_eq_some_iff.mp h
    rw [hslot,map_some]
    split at hfound
    · rename_i hmatch
      rw [if_pos hmatch]
      exact hfound
    · rename_i hmatch
      rw [if_neg hmatch]
      split at hfound
      · cases hfound
      · rename_i hfirst
        obtain ⟨previous,hprevious,hmatched⟩ := map_eq_some_iff.mp hfound
        rw [if_neg hfirst,hprevious]
        exact congrArg some hmatched

end DataSampleBuffer

namespace Reception

variable {reception : Reception} {t : Int} {slot : SampleSlot} {matched : Nat}

def Received (reception : Reception) (slot : SampleSlot) : Prop :=
  slot ∈ reception.buffer.samples.elements ∧ reception.Holds slot

/-- No received sample is nearer, and none that is as near is newer. -/
def Nearest (reception : Reception) (time : Int) (slot : SampleSlot) : Prop :=
  reception.Received slot ∧ ∀ other, reception.Received other →
    (slot.tmSample - time).natAbs ≤ (other.tmSample - time).natAbs ∧
    ((other.tmSample - time).natAbs = (slot.tmSample - time).natAbs → other.tmSample ≤ slot.tmSample)

/-- The slot that `LockDataAt` locks successfully and as a valid one. -/
def validAt (reception : Reception) (t : Int) (selectionFlags : Nat) : Option SampleSlot :=
  match reception.buffer.lockDataAt t selectionFlags with
  | some (_,.errNoError,some (slot,true)) => some slot
  | _ => none

/-- The search stays inside the backlog and a nearest sample is handed out as valid. -/
def FindsNearest (reception : Reception) (t : Int) : Prop :=
  (reception.buffer.nearestSearch (max t 0)).isSome = true ∧
  ∃ slot, reception.validAt t ssNearestSample = some slot ∧ reception.Nearest (max t 0) slot

/-- A received sample with the greatest time is handed out as valid. -/
def FindsLatest (reception : Reception) (t : Int) : Prop :=
  ∃ slot, reception.validAt t ssLatestSample = some slot ∧ reception.Received slot ∧
    ∀ other, reception.Received other → other.tmSample ≤ slot.tmSample

/-- Some slot, used or not, is not later than the time asked for. -/
def SlotUpTo (reception : Reception) (t : Int) : Prop :=
  ∃ slot ∈ reception.buffer.samples.elements, slot.tmSample ≤ max t 0

section Slots

variable (h : Inv False reception)
include h

theorem holds_iff (hslot : slot ∈ reception.buffer.samples.elements) : reception.Holds slot ↔ 0 ≤ slot.tmSample := by
  have hentry := mem_entries hslot
  constructor
  · exact h.inOrder.timed _ hentry
  · intro htime
    by_contra hunreceived
    rcases h.inOrder.blank _ hentry hunreceived with hunused | ⟨hfalse,-⟩
    · have heq : slot.tmSample = -1 := hunused
      omega
    · exact hfalse

theorem isUnused_iff (hslot : slot ∈ reception.buffer.samples.elements) :
    slot.isUnused = true ↔ ¬0 ≤ slot.tmSample := by
  rw [← holds_iff h hslot,SampleSlot.isUnused,beq_iff_eq]
  constructor
  · intro hunused hholds
    have htime := (holds_iff h hslot).mp hholds
    omega
  · intro hunreceived
    rcases h.inOrder.blank _ (mem_entries hslot) hunreceived with hunused | ⟨hfalse,-⟩
    · exact hunused
    · exact hfalse.elim

theorem latest_nonneg (hreceived : reception.Received slot) : 0 ≤ reception.buffer.latestSampleTimestamp := by
  have hlatest := h.latest
  cases hstored : reception.lastStored with
  | none =>
    have hmem := hreceived.2
    rw [Holds,h.none hstored] at hmem
    cases hmem
  | some time =>
    rw [Latest,hstored] at hlatest
    rw [hlatest]
    exact h.stored time hstored

end Slots

theorem nearestSearch_eq (h : Inv False reception) {time : Int} (htime : 0 ≤ time)
    (hget : reception.buffer.samples.get? (reception.buffer.samples.lowerBound time) = some slot) :
    reception.buffer.nearestSearch time =
      if slot.tmSample = time then some (reception.buffer.samples.lowerBound time)
      else if reception.buffer.samples.lowerBound time = 0 then none
      else (reception.buffer.samples.get? (reception.buffer.samples.lowerBound time - 1)).map fun previous =>
        if previous.isUnused then reception.buffer.samples.lowerBound time
        else if slot.tmSample - time ≤ time - previous.tmSample then reception.buffer.samples.lowerBound time
        else reception.buffer.samples.lowerBound time - 1 := by
  obtain ⟨hlt,hslot⟩ := List.getElem?_eq_some_iff.mp hget
  have hlater : ¬slot.tmSample < time := mt (lt_lowerBound_iff hget).mpr (Nat.lt_irrefl _)
  have hused : ¬slot.isUnused = true := by
    rw [isUnused_iff h (mem_of_get? hget)]
    omega
  have hskip : ((reception.buffer.samples.elements.drop (reception.buffer.samples.lowerBound time)).takeWhile
      SampleSlot.isUnused).length = 0 := by
    rw [drop_eq_getElem_cons hlt,hslot,takeWhile_cons_of_neg hused,length_nil]
  have hend : ¬reception.buffer.samples.lowerBound time = reception.buffer.samples.size := Nat.ne_of_lt hlt
  unfold DataSampleBuffer.nearestSearch
  dsimp only
  rw [if_neg hend,hskip,Nat.add_zero,hget,bind_some]

variable {received : SampleSlot}

section
variable (h : Inv False reception)
include h

private theorem nearest_latest {time : Int} (hreceived : reception.Received received)
    (hend : reception.buffer.samples.lowerBound time = reception.buffer.samples.size) :
    ∃ matched slot, reception.buffer.nearestSearch time = some matched ∧
      reception.buffer.samples.get? matched = some slot ∧ slot.tmSample < time ∧ reception.Nearest time slot := by
  have hfilled : reception.buffer.samples.size ≠ 0 := length_pos_of_mem hreceived.1 |>.ne'
  obtain ⟨slot,hslot,hlast⟩ := exists_last hfilled
  have hsearch : reception.buffer.nearestSearch time = some (reception.buffer.samples.size - 1) := by
    unfold DataSampleBuffer.nearestSearch DataSampleBuffer.latestSlot
    rw [if_pos hend,if_neg hfilled]
  have hearlier := lowerBound_eq_size hend
  have hmem := mem_of_get? hslot
  have htime : 0 ≤ received.tmSample := (holds_iff h hreceived.1).mp hreceived.2
  have hlater := hlast received hreceived.1
  refine ⟨_,slot,hsearch,hslot,hearlier slot hmem,⟨hmem,(holds_iff h hmem).mpr (by omega)⟩,?_⟩
  intro other hother
  have hle := hlast other hother.1
  have hbefore := hearlier slot hmem
  omega

theorem nearestSearch_cases {time : Int} (htime : 0 ≤ time) (hreceived : reception.Received received) :
    (reception.buffer.nearestSearch time = none ∧ ∀ slot ∈ reception.buffer.samples.elements, time < slot.tmSample) ∨
    ∃ matched slot, reception.buffer.nearestSearch time = some matched ∧
      reception.buffer.samples.get? matched = some slot ∧ reception.Nearest time slot ∧
      ∃ early ∈ reception.buffer.samples.elements, early.tmSample ≤ time := by
  by_cases hend : reception.buffer.samples.lowerBound time = reception.buffer.samples.size
  · obtain ⟨matched,slot,hsearch,hget,hearlier,hnearest⟩ := nearest_latest h hreceived hend
    exact .inr ⟨matched,slot,hsearch,hget,hnearest,slot,mem_of_get? hget,by omega⟩
  · obtain ⟨slot,hget,hlater,hbehind⟩ := exists_at_lowerBound hend
    have hmem := mem_of_get? hget
    have hslot : reception.Received slot := ⟨hmem,(holds_iff h hmem).mpr (by omega)⟩
    rw [nearestSearch_eq h htime hget]
    by_cases hmatch : slot.tmSample = time
    · rw [if_pos hmatch]
      refine .inr ⟨_,slot,rfl,hget,⟨hslot,?_⟩,slot,hmem,by omega⟩
      intro other hother
      omega
    · rw [if_neg hmatch]
      by_cases hfirst : reception.buffer.samples.lowerBound time = 0
      · rw [if_pos hfirst]
        refine .inl ⟨rfl,?_⟩
        intro other hother
        have hle := lowerBound_eq_zero hfirst other hother
        have hnext := hbehind other hother hle
        omega
      · rw [if_neg hfirst]
        obtain ⟨previous,hprevious,hearlier,hfront⟩ := exists_before_lowerBound hfirst
        have hprevmem := mem_of_get? hprevious
        rw [hprevious,map_some]
        by_cases hunused : previous.isUnused = true
        · rw [if_pos hunused]
          rw [isUnused_iff h hprevmem] at hunused
          refine .inr ⟨_,slot,rfl,hget,⟨hslot,?_⟩,previous,hprevmem,by omega⟩
          intro other hother
          -- whatever is in front is unused like the slot there
          have hpos := (holds_iff h hother.1).mp hother.2
          have hfront' := hfront other hother.1
          have hbehind' := hbehind other hother.1
          omega
        · rw [if_neg hunused]
          rw [isUnused_iff h hprevmem,not_not] at hunused
          have hreceived' : reception.Received previous := ⟨hprevmem,(holds_iff h hprevmem).mpr hunused⟩
          by_cases hnewer : slot.tmSample - time ≤ time - previous.tmSample
          · rw [if_pos hnewer]
            refine .inr ⟨_,slot,rfl,hget,⟨hslot,?_⟩,previous,hprevmem,by omega⟩
            intro other hother
            have hfront' := hfront other hother.1
            have hbehind' := hbehind other hother.1
            omega
          · rw [if_neg hnewer]
            refine .inr ⟨_,previous,rfl,hprevious,⟨hreceived',?_⟩,previous,hprevmem,by omega⟩
            intro other hother
            have hfront' := hfront other hother.1
            have hbehind' := hbehind other hother.1
            omega

section
variable (hreceived : reception.Received received)
include hreceived

theorem lockMatched_valid (hget : reception.buffer.samples.get? matched = some slot) :
    (reception.buffer.lockMatched matched .errNoError).2 = (.errNoError,some (slot,true)) := by
  unfold DataSampleBuffer.lockMatched
  rw [hget]
  simp [latest_nonneg h hreceived]

theorem findsNearest_iff : reception.FindsNearest t ↔ reception.SlotUpTo t := by
  rcases nearestSearch_cases h (Int.le_max_right t 0) hreceived with
    ⟨hsearch,hlater⟩ | ⟨matched,slot,hsearch,hget,hnearest,hearly⟩
  · constructor
    · intro hfinds
      rw [FindsNearest,hsearch] at hfinds
      exact absurd hfinds.1 (by simp)
    · rintro ⟨slot,hslot,hearly⟩
      have hlate := hlater slot hslot
      omega
  · refine ⟨fun _ => hearly,fun _ => ⟨by rw [hsearch]; rfl,slot,?_,hnearest⟩⟩
    have hlock := lockMatched_valid h hreceived hget
    unfold validAt DataSampleBuffer.lockDataAt
    rw [if_neg (by decide),if_pos rfl,nearestSlot_of_nearestSearch hsearch,map_some]
    generalize reception.buffer.lockMatched matched .errNoError = locked at hlock
    obtain ⟨buffer,answer⟩ := locked
    cases hlock
    rfl

private theorem findsLatest : reception.FindsLatest t := by
  have hfilled : reception.buffer.samples.size ≠ 0 := length_pos_of_mem hreceived.1 |>.ne'
  obtain ⟨slot,hslot,hlast⟩ := exists_last hfilled
  have hmem := mem_of_get? hslot
  have htime := (holds_iff h hreceived.1).mp hreceived.2
  have hlater := hlast received hreceived.1
  have hlock := lockMatched_valid h hreceived hslot
  refine ⟨slot,?_,⟨hmem,(holds_iff h hmem).mpr (by omega)⟩,fun other hother => hlast other hother.1⟩
  unfold validAt DataSampleBuffer.lockDataAt DataSampleBuffer.latestSlot
  rw [if_pos rfl,if_neg hfilled,map_some]
  generalize reception.buffer.lockMatched (reception.buffer.samples.size - 1) .errNoError = locked at hlock
  obtain ⟨buffer,answer⟩ := locked
  cases hlock
  rfl

end

end

/-- In every backlog that samples with times and resizing lead to and that holds one: the latest mode is right, and the
nearest mode exactly if some slot is not later than the time asked for. -/
theorem nearest_lookup (reception : Reception) (h : Reaches step (NonNegative False) new reception)
    (received : SampleSlot) (hreceived : reception.Received received) (t : Int) :
    (reception.FindsNearest t ∧ reception.FindsLatest t) ↔ reception.SlotUpTo t := by
  have hinv := inv_of_reaches h
  rw [findsNearest_iff hinv hreceived,and_iff_left (findsLatest hinv hreceived)]

instance (reception : Reception) (action : ReceptionAction) : Decidable (NonNegative False reception action) :=
  match action with
  | .update sample => inferInstanceAs (Decidable (0 ≤ sample.timeStamp))
  | .signalRegistered .. => inferInstanceAs (Decidable (False ∧ reception.buffer.allocated = 0))
  | .clearAll _ => inferInstanceAs (Decidable False)
  | .lockDataAt .. | .lockDataAtUpperBound _ | .unlockData .. | .signalBacklogChanged .. =>
    inferInstanceAs (Decidable True)

instance (reception : Reception) (slot : SampleSlot) : Decidable (reception.Received slot) :=
  inferInstanceAs (Decidable (_ ∧ _))

private def timedSample (time : Int) : DataSample := ⟨false,0,0,time,0,[1]⟩

/-- Two samples that arrive in the wrong order in a backlog of three slots. -/
theorem nearest_lookup_between : ∃ reception : Reception, Reaches step (NonNegative False) new reception ∧
    (reception.validAt 15 ssNearestSample).any (·.tmSample == 20) = true ∧
    reception.FindsNearest 15 ∧ reception.FindsLatest 15 := by
  obtain ⟨reception,hreach,hanswer,slot,hmem,hslot,htime⟩ : ∃ reception,
      Reaches step (NonNegative False) new reception ∧
      (reception.validAt 15 ssNearestSample).any (·.tmSample == 20) = true ∧
      ∃ slot ∈ reception.buffer.samples.elements, reception.Received slot ∧ slot.tmSample ≤ 15 :=
    exists_of_runAllowed [.signalBacklogChanged 0 3 [0],.update (timedSample 20),.update (timedSample 10)]
      (by decide +kernel)
  exact ⟨reception,hreach,hanswer,
    (nearest_lookup reception hreach slot hslot 15).mpr ⟨slot,hmem,le_trans htime (Int.le_max_left ..)⟩⟩

/-- A backlog of one slot with a sample at time 5: asked for time 3, the search moves in front of it. -/
theorem nearest_lookup_leaves_backlog : ∃ reception : Reception, Reaches step (NonNegative False) new reception ∧
    (∃ slot, reception.Received slot) ∧ reception.buffer.nearestSearch 3 = none ∧ ¬reception.FindsNearest 3 := by
  obtain ⟨reception,hreach,hlost⟩ : ∃ reception, Reaches step (NonNegative False) new reception ∧
      reception.buffer.samples.elements.any (fun slot => decide (reception.Received slot)) = true ∧
      (reception.buffer.nearestSearch (max 3 0)).isNone = true :=
    exists_of_runAllowed [.signalBacklogChanged 0 1 [0],.update (timedSample 5)] (by decide +kernel)
  obtain ⟨hreceived,hnone⟩ := hlost
  obtain ⟨slot,-,hslot⟩ := any_eq_true.mp hreceived
  have hsearch := isNone_iff_eq_none.mp hnone
  refine ⟨reception,hreach,⟨slot,of_decide_eq_true hslot⟩,hsearch,?_⟩
  intro hfinds
  rw [FindsNearest,hsearch] at hfinds
  exact absurd hfinds.1 (by simp)

end Reception
end FepParticipant.DataAccess
