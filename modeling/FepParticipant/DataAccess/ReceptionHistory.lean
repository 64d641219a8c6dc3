import FepParticipant.DataAccess.DataSampleBuffer
import Mathlib.Data.List.TakeWhile

/-! Which samples of a backlog were received. The slots do not tell: an unused one, or one with the default content,
differs from a received one by its history only. The times and the order of the samples follow from it. -/
namespace FepParticipant.DataAccess
open Library Transmission List Nat OrderedMultiset DataSampleBuffer

namespace SampleSlot

/-- The slot as `ClearAll` copies it. -/
def reset (slot : SampleSlot) : SampleSlot :=
  { slot with
    tmSample := -1
    nLockCount := 0
    sample := {slot.sample with timeStamp := -1, memory := slot.sample.memory.map fun _ => 0} }

def setDefault (slot : SampleSlot) (content : List UInt8) : SampleSlot :=
  {slot with tmSample := 0, sample := {slot.sample with timeStamp := 0, memory := content}}

end SampleSlot

namespace DataSampleBuffer

/-- The slots after `ClearAll` went over them. -/
def resetSlots (buffer : DataSampleBuffer) : SampleSlots :=
  buffer.samples.elements.foldl (fun newSlots slot => newSlots.insert slot.reset) OrderedMultiset.empty

/-- `cDataAccess::ClearAll` on one backlog. The time of the latest sample stays as it is. -/
def clearAll (buffer : DataSampleBuffer) (content : List UInt8) : Option DataSampleBuffer :=
  (buffer.resetSlots.get? 0).map fun slot =>
    { buffer with
      samples := (buffer.resetSlots.erase 0).insert (slot.setDefault content)
      deletedSlots := OrderedMultiset.empty }

end DataSampleBuffer

/-- A backlog with the addresses of the samples that hold received content and the time of the
sample that was stored last. -/
structure Reception where
  buffer : DataSampleBuffer
  received : List Nat
  lastStored : Option Int

inductive ReceptionAction where
  | update (sample : DataSample)
  | lockDataAt (tmSimulation : Int) (selectionFlags : Nat)
  | lockDataAtUpperBound (tmSimulationUpperBound : Int)
  | unlockData (poSample : Nat) (time : Int)
  | signalBacklogChanged (hSignal szSampleBacklog : Nat) (memory : List UInt8)
  | signalRegistered (hSignal szBacklog : Nat) (memory content : List UInt8)
  | clearAll (content : List UInt8)

namespace Reception

def new : Reception := ⟨DataSampleBuffer.new,[],none⟩

def Holds (reception : Reception) (slot : SampleSlot) : Prop := slot.poSample ∈ reception.received

instance (reception : Reception) (slot : SampleSlot) : Decidable (reception.Holds slot) :=
  inferInstanceAs (Decidable (_ ∈ _))

def update (reception : Reception) (sample : DataSample) : Reception where
  buffer := (reception.buffer.update sample).1
  received := match reception.buffer.reusableSlot with
    | some (_,slot) => slot.poSample::reception.received
    | none => reception.received
  lastStored := match reception.buffer.reusableSlot with
    | some _ => some sample.timeStamp
    | none => reception.lastStored

def step (reception : Reception) : ReceptionAction → Option Reception
  | .update sample => some (reception.update sample)
  | .lockDataAt tmSimulation selectionFlags =>
    (reception.buffer.lockDataAt tmSimulation selectionFlags).map fun locked => {reception with buffer := locked.1}
  | .lockDataAtUpperBound tmSimulationUpperBound =>
    some {reception with buffer := (reception.buffer.lockDataAtUpperBound tmSimulationUpperBound).1}
  | .unlockData poSample time => some {reception with buffer := (reception.buffer.unlockData poSample time).1}
  | .signalBacklogChanged hSignal szSampleBacklog memory =>
    some {reception with buffer := reception.buffer.signalBacklogChanged hSignal szSampleBacklog memory}
  | .signalRegistered hSignal szBacklog memory content =>
    some {reception with buffer := reception.buffer.signalRegistered hSignal szBacklog memory content}
  | .clearAll content =>
    -- no sample from before is left
    (reception.buffer.clearAll content).map fun buffer => {reception with buffer := buffer, received := []}

end Reception

/-- The time and the address of the sample in a slot, which locks do not change. -/
def SampleSlot.entry (slot : SampleSlot) : Int × Nat := (slot.tmSample,slot.poSample)

/-- An entry behind all those that are not later. -/
def insertEntry (entries : List (Int × Nat)) (entry : Int × Nat) : List (Int × Nat) :=
  entries.takeWhile (·.1 ≤ entry.1) ++ entry::entries.dropWhile (·.1 ≤ entry.1)

theorem perm_insertEntry (entries : List (Int × Nat)) (entry : Int × Nat) :
    (insertEntry entries entry).Perm (entry::entries) := by
  refine perm_middle.trans (List.Perm.cons entry ?_)
  rw [takeWhile_append_dropWhile]

theorem insertEntry_of_le {entries : List (Int × Nat)} {entry : Int × Nat}
    (h : ∀ other ∈ entries, other.1 ≤ entry.1) : insertEntry entries entry = entries ++ [entry] := by
  have hall : ∀ other ∈ entries, decide (other.1 ≤ entry.1) = true := fun other hother =>
    decide_eq_true (h other hother)
  rw [insertEntry,takeWhile_eq_self_iff.mpr hall,dropWhile_eq_nil_iff.mpr hall]

theorem map_entry_insert (samples : SampleSlots) (slot : SampleSlot) :
    (samples.insert slot).elements.map SampleSlot.entry =
      insertEntry (samples.elements.map SampleSlot.entry) slot.entry := by
  rw [insertEntry,takeWhile_map,dropWhile_map,OrderedMultiset.insert,map_append,map_cons]
  rfl

theorem map_entry_modify {f : SampleSlot → SampleSlot} (hf : ∀ slot, (f slot).tmSample = slot.tmSample)
    (hentry : ∀ slot, (f slot).entry = slot.entry) (samples : SampleSlots) (position : Nat) :
    (samples.modify position f hf).elements.map SampleSlot.entry = samples.elements.map SampleSlot.entry := by
  apply ext_getElem?
  intro other
  show ((samples.elements.modify position f).map SampleSlot.entry)[other]? = _
  rw [getElem?_map,getElem?_map,getElem?_modify,Option.map_eq_map,Option.map_map]
  congr 1
  funext slot
  by_cases hother : position = other
  · simp [hother,hentry]
  · simp [hother]

namespace DataSampleBuffer

variable {buffer cleared : DataSampleBuffer} {slot : SampleSlot} {position : Nat}

def entries (buffer : DataSampleBuffer) : List (Int × Nat) := buffer.samples.elements.map SampleSlot.entry

theorem mem_entries (h : slot ∈ buffer.samples.elements) : slot.entry ∈ buffer.entries := mem_map_of_mem h

theorem entries_lockMatched (buffer : DataSampleBuffer) (matched : Nat) (result : Result) :
    (buffer.lockMatched matched result).1.entries = buffer.entries := by
  unfold lockMatched
  split
  · exact map_entry_modify (f := SampleSlot.lock) (fun _ => rfl) (fun _ => rfl) buffer.samples matched
  · rfl

theorem entries_unlockData (buffer : DataSampleBuffer) (poSample : Nat) (time : Int) :
    (buffer.unlockData poSample time).1.entries = buffer.entries := by
  unfold unlockData
  split
  · split
    · exact map_entry_modify (f := SampleSlot.unlock) (fun _ => rfl) (fun _ => rfl) buffer.samples _
    · rfl
  · split
    · rfl
    · rfl

theorem entries_removeSlot : buffer.removeSlot.entries = buffer.entries.tail := by
  unfold removeSlot
  split
  · show (buffer.samples.elements.eraseIdx 0).map SampleSlot.entry = _
    rw [eraseIdx_zero,map_tail]
    rfl
  · rename_i hempty
    have hnil : buffer.samples.elements = [] := head?_eq_none_iff.mp (head?_eq_getElem?.trans hempty)
    rw [entries,hnil]
    rfl

theorem entries_insertSlot (sample : DataSample) :
    (insertSlot sample buffer).entries = insertEntry buffer.entries (sample.timeStamp,buffer.allocated) :=
  map_entry_insert ..

private theorem map_entry_foldl_reset (slots : List SampleSlot) (newSlots : SampleSlots)
    (h : ∀ entry ∈ newSlots.elements.map SampleSlot.entry, entry.1 = -1) :
    (slots.foldl (fun newSlots slot => newSlots.insert slot.reset) newSlots).elements.map SampleSlot.entry =
      newSlots.elements.map SampleSlot.entry ++ slots.map fun slot => (-1,slot.poSample) := by
  induction slots generalizing newSlots with
  | nil => simp
  | cons slot slots ih =>
    have hinsert : (newSlots.insert slot.reset).elements.map SampleSlot.entry =
        newSlots.elements.map SampleSlot.entry ++ [(-1,slot.poSample)] := by
      rw [map_entry_insert]
      apply insertEntry_of_le
      intro other hother
      exact le_of_eq (h other hother)
    rw [foldl_cons,ih,hinsert,map_cons,append_assoc]
    · rfl
    · rw [hinsert]
      intro entry hentry
      rcases mem_append.mp hentry with hold | hnew
      · exact h entry hold
      · rw [mem_singleton.mp hnew]

private theorem entries_resetSlots (buffer : DataSampleBuffer) :
    buffer.resetSlots.elements.map SampleSlot.entry = buffer.entries.map fun entry => (-1,entry.2) := by
  rw [resetSlots,map_entry_foldl_reset _ _ (by simp [OrderedMultiset.empty]),entries,map_map]
  rfl

theorem entries_clearAll {content : List UInt8} (h : buffer.clearAll content = some cleared) :
    ∃ first rest, buffer.entries = first::rest ∧
      cleared.entries = rest.map (fun entry => (-1,entry.2)) ++ [(0,first.2)] := by
  obtain ⟨slot,hget,rfl⟩ := Option.map_eq_some_iff.mp h
  have hreset := entries_resetSlots buffer
  cases hslots : buffer.resetSlots.elements with
  | nil =>
    rw [OrderedMultiset.get?,hslots] at hget
    cases hget
  | cons head others =>
    rw [OrderedMultiset.get?,hslots] at hget
    cases hget
    rw [hslots] at hreset
    cases hentries : buffer.entries with
    | nil =>
      rw [hentries] at hreset
      cases hreset
    | cons first rest =>
      rw [hentries,map_cons,map_cons,List.cons.injEq] at hreset
      obtain ⟨hfirst,hrest⟩ := hreset
      have haddress : slot.poSample = first.2 := congrArg Prod.snd hfirst
      have herase : (buffer.resetSlots.erase 0).elements = others := by
        show buffer.resetSlots.elements.eraseIdx 0 = others
        rw [hslots,eraseIdx_cons_zero]
      refine ⟨first,rest,rfl,?_⟩
      show ((buffer.resetSlots.erase 0).insert (slot.setDefault content)).elements.map SampleSlot.entry = _
      rw [map_entry_insert,herase,hrest,insertEntry_of_le]
      · show _ ++ [(0,slot.poSample)] = _
        rw [haddress]
      · intro other hother
        obtain ⟨entry,-,rfl⟩ := mem_map.mp hother
        show (-1 : Int) ≤ 0
        omega

theorem entries_update (sample : DataSample) :
    (∃ position slot, buffer.reusableSlot = some (position,slot) ∧ buffer.samples.get? position = some slot ∧
      (buffer.update sample).1.entries =
        insertEntry (buffer.entries.eraseIdx position) (sample.timeStamp,slot.poSample) ∧
      (buffer.update sample).1.latestSampleTimestamp = sample.timeStamp) ∨
    (buffer.reusableSlot = none ∧ (buffer.update sample).1 = buffer) := by
  unfold update
  cases hfound : buffer.reusableSlot with
  | none => exact .inr ⟨rfl,rfl⟩
  | some found =>
    obtain ⟨position,slot⟩ := found
    refine .inl ⟨position,slot,rfl,(findFirst_eq_some hfound).1,?_,rfl⟩
    refine (map_entry_insert ..).trans ?_
    rw [entries,eraseIdx_map]
    rfl

end DataSampleBuffer

/-- The order of the entries: those not received are unused or have the default content, and stand in front of the
received ones. -/
structure Orderly (registered : Prop) (entries : List (Int × Nat)) (received : List Nat) (allocated : Nat) :
    Prop where
  distinct : (entries.map Prod.snd).Nodup
  fresh : ∀ entry ∈ entries, entry.2 < allocated
  known : ∀ address ∈ received, address < allocated
  timed : ∀ entry ∈ entries, entry.2 ∈ received → 0 ≤ entry.1
  blank : ∀ entry ∈ entries, entry.2 ∉ received → entry.1 = -1 ∨ registered ∧ entry.1 = 0
  behind : entries.Pairwise fun a b => a.2 ∈ received → b.2 ∈ received

namespace Orderly

variable {registered : Prop} {entries entries' : List (Int × Nat)} {received : List Nat} {allocated address : Nat}
  {time : Int}

section
variable (h : Orderly registered entries received allocated)
include h

theorem sublist (hsub : entries'.Sublist entries) : Orderly registered entries' received allocated where
  distinct := h.distinct.sublist (hsub.map _)
  fresh entry hentry := h.fresh entry (hsub.subset hentry)
  known := h.known
  timed entry hentry := h.timed entry (hsub.subset hentry)
  blank entry hentry := h.blank entry (hsub.subset hentry)
  behind := h.behind.sublist hsub

theorem insert (hsorted : (entries.map Prod.fst).Pairwise (· ≤ ·)) (haddress : address < allocated)
    (hnew : address ∉ entries.map Prod.snd) (htimed : address ∈ received → 0 ≤ time)
    (hblank : address ∉ received → time = -1 ∨ registered ∧ time = 0)
    (hfront : ∀ entry ∈ entries, entry.1 ≤ time → entry.2 ∈ received → address ∈ received)
    (hback : ∀ entry ∈ entries, time < entry.1 → address ∈ received → entry.2 ∈ received) :
    Orderly registered (insertEntry entries (time,address)) received allocated where
  distinct := by
    rw [((perm_insertEntry _ _).map _).nodup_iff,map_cons,nodup_cons]
    exact ⟨hnew,h.distinct⟩
  fresh entry hentry := by
    rcases mem_cons.mp ((perm_insertEntry _ _).mem_iff.mp hentry) with rfl | hold
    · exact haddress
    · exact h.fresh entry hold
  known := h.known
  timed entry hentry := by
    rcases mem_cons.mp ((perm_insertEntry _ _).mem_iff.mp hentry) with rfl | hold
    · exact htimed
    · exact h.timed entry hold
  blank entry hentry := by
    rcases mem_cons.mp ((perm_insertEntry _ _).mem_iff.mp hentry) with rfl | hold
    · exact hblank
    · exact h.blank entry hold
  behind := by
    have hfront' : ∀ entry ∈ entries.takeWhile (·.1 ≤ time), entry.2 ∈ received → address ∈ received := by
      intro entry hentry
      have hall := all_takeWhile (p := fun entry => decide (entry.1 ≤ time)) (l := entries)
      exact hfront entry ((takeWhile_sublist _).subset hentry) (of_decide_eq_true (all_eq_true.mp hall entry hentry))
    have hback' : ∀ entry ∈ entries.dropWhile (·.1 ≤ time), address ∈ received → entry.2 ∈ received := by
      intro entry hentry
      have hlater : time < entry.1 := lt_of_mem_dropWhile hsorted hentry
      exact hback entry ((dropWhile_sublist _).subset hentry) hlater
    rw [insertEntry,pairwise_append,pairwise_cons]
    refine ⟨h.behind.sublist (takeWhile_sublist _),⟨?_,h.behind.sublist (dropWhile_sublist _)⟩,?_⟩
    · exact hback'
    · intro before hbefore entry hentry hreceived
      rcases mem_cons.mp hentry with rfl | hmem
      · exact hfront' before hbefore hreceived
      · exact hback' entry hmem (hfront' before hbefore hreceived)

theorem grow : Orderly registered entries received (allocated + 1) where
  distinct := h.distinct
  fresh entry hentry := lt_succ_of_lt (h.fresh entry hentry)
  known address haddress := lt_succ_of_lt (h.known address haddress)
  timed := h.timed
  blank := h.blank
  behind := h.behind

private theorem receive (haddress : address < allocated)
    (hnew : address ∉ entries.map Prod.snd) : Orderly registered entries (address::received) allocated := by
  have hsame : ∀ entry ∈ entries, (entry.2 ∈ address::received ↔ entry.2 ∈ received) := by
    intro entry hentry
    rw [mem_cons,or_iff_right]
    intro heq
    exact hnew (heq ▸ mem_map_of_mem hentry)
  refine ⟨h.distinct,h.fresh,?_,?_,?_,?_⟩
  · intro other hother
    rcases mem_cons.mp hother with rfl | hold
    · exact haddress
    · exact h.known other hold
  · intro entry hentry hreceived
    exact h.timed entry hentry ((hsame entry hentry).mp hreceived)
  · intro entry hentry hreceived
    exact h.blank entry hentry fun hold => hreceived ((hsame entry hentry).mpr hold)
  · refine List.Pairwise.imp_of_mem ?_ h.behind
    intro a b ha hb himp hreceived
    exact (hsame b hb).mpr (himp ((hsame a ha).mp hreceived))

theorem insertReceived (hsorted : (entries.map Prod.fst).Pairwise (· ≤ ·)) (haddress : address < allocated)
    (hnew : address ∉ entries.map Prod.snd) (htime : 0 ≤ time) :
    Orderly registered (insertEntry entries (time,address)) (address::received) allocated := by
  have hreceived := h.receive haddress hnew
  have hmem : address ∈ address::received := mem_cons_self ..
  refine hreceived.insert hsorted haddress hnew (fun _ => htime) (absurd hmem) (fun _ _ _ _ => hmem) ?_
  intro entry hentry hlater _
  by_contra hunreceived
  rcases hreceived.blank entry hentry hunreceived with hunused | ⟨-,hdefault⟩ <;> omega

theorem insertUnused (hsorted : (entries.map Prod.fst).Pairwise (· ≤ ·)) :
    Orderly registered (insertEntry entries (-1,allocated)) received (allocated + 1) := by
  have hunreceived : allocated ∉ received := fun hmem => lt_irrefl _ (h.known _ hmem)
  refine h.grow.insert hsorted (lt_succ_self _) ?_ (absurd · hunreceived) (fun _ => .inl rfl) ?_
    fun _ _ _ hreceived => absurd hreceived hunreceived
  · intro hmem
    obtain ⟨entry,hentry,rfl⟩ := mem_map.mp hmem
    exact lt_irrefl _ (h.fresh entry hentry)
  · intro entry hentry hunused hreceived
    have hpos := h.timed entry hentry hreceived
    omega

end

end Orderly

namespace Reception

variable {registered : Prop} {reception reception' : Reception} {action : ReceptionAction}
  {received : List Nat} {buffer : DataSampleBuffer}
variable {sample : DataSample}

/-- Sample times are not negative. Where the signal is registered at all, a new backlog is filled. -/
def NonNegative (registered : Prop) (reception : Reception) : ReceptionAction → Prop
  | .update sample => 0 ≤ sample.timeStamp
  | .signalRegistered .. => registered ∧ reception.buffer.allocated = 0
  | .clearAll _ => registered
  | _ => True

/-- The order of the slots of a backlog. -/
def InOrder (registered : Prop) (received : List Nat) (buffer : DataSampleBuffer) : Prop :=
  Orderly registered buffer.entries received buffer.allocated

theorem sorted_entries : (buffer.entries.map Prod.fst).Pairwise (· ≤ ·) := by
  rw [DataSampleBuffer.entries,map_map]
  exact buffer.samples.sorted

theorem inOrder_update (h : InOrder registered reception.received reception.buffer) (htime : 0 ≤ sample.timeStamp) :
    InOrder registered (reception.update sample).received (reception.update sample).buffer := by
  unfold InOrder update
  rcases entries_update sample with
    ⟨position,slot,hfound,hget,hentries,-⟩ | ⟨hfound,hupdate⟩
  · have hallocated : (reception.buffer.update sample).1.allocated = reception.buffer.allocated := by
      rw [DataSampleBuffer.update,hfound]
    have hentry : reception.buffer.entries[position]? = some slot.entry := by
      rw [DataSampleBuffer.entries,getElem?_map]
      exact congrArg (Option.map SampleSlot.entry) hget
    have hnew : slot.poSample ∉ (reception.buffer.entries.eraseIdx position).map Prod.snd := by
      obtain ⟨hlt,heq⟩ := List.getElem?_eq_some_iff.mp hentry
      have hperm := (getElem_cons_eraseIdx_perm hlt).map Prod.snd
      have hdistinct := hperm.symm.nodup_iff.mp h.distinct
      rw [map_cons,heq] at hdistinct
      exact (nodup_cons.mp hdistinct).1
    have hsub := eraseIdx_sublist reception.buffer.entries position
    rw [hfound,hentries,hallocated]
    exact (h.sublist hsub).insertReceived ((sorted_entries).sublist (hsub.map _))
      (h.fresh _ (mem_of_getElem? hentry)) hnew htime
  · rw [hfound,hupdate]
    exact h

private theorem inOrder_removeSlot (h : InOrder registered received buffer) :
    InOrder registered received buffer.removeSlot := by
  have hallocated : buffer.removeSlot.allocated = buffer.allocated := by
    unfold DataSampleBuffer.removeSlot
    split
    · rfl
    · rfl
  rw [InOrder,entries_removeSlot,hallocated]
  exact h.sublist (tail_sublist _)

theorem inOrder_insertSlot (h : InOrder registered received buffer)
    (hunused : sample.timeStamp = -1) : InOrder registered received (DataSampleBuffer.insertSlot sample buffer) := by
  rw [InOrder,entries_insertSlot,hunused]
  exact h.insertUnused (sorted_entries)

theorem inOrder_iterate {f : DataSampleBuffer → DataSampleBuffer}
    (hf : ∀ buffer, InOrder registered received buffer → InOrder registered received (f buffer)) (count : Nat)
    (h : InOrder registered received buffer) : InOrder registered received (f^[count] buffer) := by
  induction count generalizing buffer with
  | zero => exact h
  | succ count ih => exact ih (hf buffer h)

theorem inOrder_signalBacklogChanged (h : InOrder registered received buffer) (hSignal szSampleBacklog : Nat)
    (memory : List UInt8) : InOrder registered received (buffer.signalBacklogChanged hSignal szSampleBacklog memory) :=
  inOrder_iterate (fun _ hinv => inOrder_insertSlot hinv rfl) _ (inOrder_iterate (fun _ => inOrder_removeSlot) _ h)

private theorem inOrder_insertDefault (hregistered : registered) (h : InOrder registered [] buffer)
    (hdefault : sample.timeStamp = 0) : InOrder registered [] (DataSampleBuffer.insertSlot sample buffer) := by
  rw [InOrder,entries_insertSlot,hdefault]
  refine Orderly.insert (Orderly.grow h) (sorted_entries) (lt_succ_self _) ?_ nofun
    (fun _ => .inr ⟨hregistered,rfl⟩) nofun nofun
  intro hmem
  obtain ⟨entry,hentry,haddress⟩ := mem_map.mp hmem
  have hfresh := h.fresh entry hentry
  omega

theorem inOrder_signalRegistered (hregistered : registered) (h : InOrder registered [] buffer)
    (hSignal szBacklog : Nat) (memory content : List UInt8) :
    InOrder registered [] (buffer.signalRegistered hSignal szBacklog memory content) := by
  have hinsert : ∀ buffer, InOrder registered [] buffer → InOrder registered []
      (DataSampleBuffer.insertSlot ((DataSample.create hSignal memory).setTime (-1)) buffer) :=
    fun _ hinv => inOrder_insertSlot hinv rfl
  exact inOrder_insertDefault hregistered (inOrder_iterate hinsert ((szBacklog + 2 ^ 64 - 1) % 2 ^ 64) h) rfl

theorem inOrder_clearAll (hregistered : registered) (h : InOrder registered received buffer) {content : List UInt8}
    {cleared : DataSampleBuffer} (hclear : buffer.clearAll content = some cleared) : InOrder registered [] cleared := by
  obtain ⟨first,rest,hentries,hcleared⟩ := entries_clearAll hclear
  have hallocated : cleared.allocated = buffer.allocated := by
    obtain ⟨slot,-,rfl⟩ := Option.map_eq_some_iff.mp hclear
    rfl
  have hdistinct := h.distinct
  have hfresh := h.fresh
  rw [hentries] at hdistinct hfresh
  rw [InOrder,hcleared,hallocated]
  refine ⟨?_,?_,nofun,nofun,?_,pairwise_of_forall nofun⟩
  · rw [map_append,map_map,perm_append_comm.nodup_iff]
    exact hdistinct
  · intro entry hentry
    rcases mem_append.mp hentry with hmem | hmem
    · obtain ⟨old,hold,rfl⟩ := mem_map.mp hmem
      exact hfresh old (mem_cons_of_mem _ hold)
    · rw [mem_singleton.mp hmem]
      exact hfresh first (mem_cons_self ..)
  · intro entry hentry _
    rcases mem_append.mp hentry with hmem | hmem
    · obtain ⟨old,-,rfl⟩ := mem_map.mp hmem
      exact .inl rfl
    · rw [mem_singleton.mp hmem]
      exact .inr ⟨hregistered,rfl⟩

theorem inOrder_of_entries (h : InOrder registered received buffer) {buffer' : DataSampleBuffer}
    (hentries : buffer'.entries = buffer.entries) (hallocated : buffer'.allocated = buffer.allocated) :
    InOrder registered received buffer' := by
  rw [InOrder,hentries,hallocated]
  exact h

/-- The time of the latest sample is the one of the sample stored last. -/
def Latest (reception : Reception) : Prop := reception.buffer.latestSampleTimestamp = reception.lastStored.getD (-1)

theorem latest_iterate {f : DataSampleBuffer → DataSampleBuffer}
    (hf : ∀ buffer, (f buffer).latestSampleTimestamp = buffer.latestSampleTimestamp) (count : Nat)
    (buffer : DataSampleBuffer) : (f^[count] buffer).latestSampleTimestamp = buffer.latestSampleTimestamp := by
  induction count generalizing buffer with
  | zero => rfl
  | succ count ih => rw [Function.iterate_succ_apply,ih,hf]

theorem latest_insertSlot (sample : DataSample) (buffer : DataSampleBuffer) :
    (DataSampleBuffer.insertSlot sample buffer).latestSampleTimestamp = buffer.latestSampleTimestamp := rfl

/-- Calls that neither store nor clear: what they leave as it is. -/
structure Unstored (reception reception' : Reception) : Prop where
  received : reception'.received = reception.received
  lastStored : reception'.lastStored = reception.lastStored
  latest : reception'.buffer.latestSampleTimestamp = reception.buffer.latestSampleTimestamp

/-- The calls that lock and unlock. -/
structure Untouched (reception reception' : Reception) : Prop extends Unstored reception reception' where
  entries : reception'.buffer.entries = reception.buffer.entries
  allocated : reception'.buffer.allocated = reception.buffer.allocated

private theorem lockMatched_untouched (buffer : DataSampleBuffer) (matched : Nat) (result : Result) :
    (buffer.lockMatched matched result).1.latestSampleTimestamp = buffer.latestSampleTimestamp ∧
    (buffer.lockMatched matched result).1.allocated = buffer.allocated := by
  unfold DataSampleBuffer.lockMatched
  split
  · exact ⟨rfl,rfl⟩
  · exact ⟨rfl,rfl⟩

theorem untouched_lockMatched (reception : Reception) (matched : Nat) (result : Result) :
    Untouched reception {reception with buffer := (reception.buffer.lockMatched matched result).1} where
  received := rfl
  lastStored := rfl
  latest := (lockMatched_untouched ..).1
  entries := entries_lockMatched ..
  allocated := (lockMatched_untouched ..).2

theorem untouched_unlockData (reception : Reception) (poSample : Nat) (time : Int) :
    Untouched reception {reception with buffer := (reception.buffer.unlockData poSample time).1} := by
  refine ⟨⟨rfl,rfl,?_⟩,entries_unlockData ..,?_⟩
  all_goals
    unfold DataSampleBuffer.unlockData
    repeat' split
    all_goals rfl

theorem latest_signalBacklogChanged (hSignal szSampleBacklog : Nat) (memory : List UInt8) :
    (buffer.signalBacklogChanged hSignal szSampleBacklog memory).latestSampleTimestamp =
      buffer.latestSampleTimestamp := by
  have hremove : ∀ buffer : DataSampleBuffer,
      buffer.removeSlot.latestSampleTimestamp = buffer.latestSampleTimestamp := by
    intro buffer
    unfold DataSampleBuffer.removeSlot
    split
    · rfl
    · rfl
  exact (latest_iterate (latest_insertSlot _) _ _).trans (latest_iterate hremove _ _)

theorem latest_signalRegistered (hSignal szBacklog : Nat) (memory content : List UInt8) :
    (buffer.signalRegistered hSignal szBacklog memory content).latestSampleTimestamp =
      buffer.latestSampleTimestamp := by
  rw [DataSampleBuffer.signalRegistered,latest_insertSlot,latest_iterate (latest_insertSlot _)]

/-- What each call does to the record of the history. -/
inductive StepCase (reception : Reception) : ReceptionAction → Reception → Prop
  | stored (sample : DataSample) : StepCase reception (.update sample) (reception.update sample)
  | locked {action : ReceptionAction} {reception' : Reception} (untouched : Untouched reception reception') :
    StepCase reception action reception'
  | resized (hSignal szSampleBacklog : Nat) (memory : List UInt8) :
    StepCase reception (.signalBacklogChanged hSignal szSampleBacklog memory)
      {reception with buffer := reception.buffer.signalBacklogChanged hSignal szSampleBacklog memory}
  | registered (hSignal szBacklog : Nat) (memory content : List UInt8) :
    StepCase reception (.signalRegistered hSignal szBacklog memory content)
      {reception with buffer := reception.buffer.signalRegistered hSignal szBacklog memory content}
  | cleared {content : List UInt8} {buffer : DataSampleBuffer}
    (cleared : reception.buffer.clearAll content = some buffer) :
    StepCase reception (.clearAll content) {reception with buffer := buffer, received := []}

theorem step_cases (h : reception.step action = some reception') : StepCase reception action reception' := by
  cases action with
  | update sample =>
    cases h
    exact .stored sample
  | lockDataAt tmSimulation selectionFlags =>
    obtain ⟨locked,hlocked,rfl⟩ := Option.map_eq_some_iff.mp h
    obtain ⟨matched,result,rfl⟩ := lockDataAt_eq_lockMatched hlocked
    exact .locked (untouched_lockMatched ..)
  | lockDataAtUpperBound tmSimulationUpperBound =>
    cases h
    exact .locked (untouched_lockMatched ..)
  | unlockData poSample time =>
    cases h
    exact .locked (untouched_unlockData ..)
  | signalBacklogChanged hSignal szSampleBacklog memory =>
    cases h
    exact .resized ..
  | signalRegistered hSignal szBacklog memory content =>
    obtain rfl := Option.some.inj h
    exact .registered ..
  | clearAll content =>
    obtain ⟨buffer,hclear,rfl⟩ := Option.map_eq_some_iff.mp h
    exact .cleared hclear

theorem latest_step (h : reception.Latest) (hstep : reception.step action = some reception') : reception'.Latest := by
  cases step_cases hstep with
  | stored sample =>
    rcases entries_update sample with
      ⟨position,slot,hfound,-,-,hlatest⟩ | ⟨hfound,hupdate⟩
    · rw [Latest,update,hfound,hlatest]
      rfl
    · rw [Latest,update,hfound,hupdate]
      exact h
  | locked untouched => rw [Latest,untouched.latest,untouched.lastStored,h]
  | resized => rw [Latest,latest_signalBacklogChanged,h]
  | registered => rw [Latest,latest_signalRegistered,h]
  | cleared hclear =>
    obtain ⟨slot,-,rfl⟩ := Option.map_eq_some_iff.mp hclear
    exact h

theorem latest_of_reaches (h : Reaches step anyAction new reception) : reception.Latest :=
  h.invariant rfl fun _ _ _ hlatest _ hstep => latest_step hlatest hstep

/-- What holds of a backlog whose samples have times that are not negative. -/
structure Inv (registered : Prop) (reception : Reception) : Prop where
  inOrder : InOrder registered reception.received reception.buffer
  latest : reception.Latest
  stored : ∀ time ∈ reception.lastStored, 0 ≤ time
  none : reception.lastStored = none → reception.received = []

theorem inv_new : Inv registered new where
  inOrder := ⟨nodup_nil,nofun,nofun,nofun,nofun,List.Pairwise.nil⟩
  latest := rfl
  stored := nofun
  none _ := rfl

theorem inv_step (h : Inv registered reception) (hallowed : NonNegative registered reception action)
    (hstep : reception.step action = some reception') : Inv registered reception' := by
  have hlatest := latest_step h.latest hstep
  cases step_cases hstep with
  | stored sample =>
    refine ⟨inOrder_update h.inOrder hallowed,hlatest,?_,?_⟩
    · intro time htime
      cases hfound : reception.buffer.reusableSlot with
      | none =>
        rw [update,hfound] at htime
        exact h.stored time htime
      | some found =>
        rw [update,hfound] at htime
        cases htime
        exact hallowed
    · intro hnone
      cases hfound : reception.buffer.reusableSlot with
      | none =>
        rw [update,hfound] at hnone ⊢
        exact h.none hnone
      | some found =>
        rw [update,hfound] at hnone
        cases hnone
  | locked untouched =>
    refine ⟨?_,hlatest,untouched.lastStored ▸ h.stored,?_⟩
    · rw [untouched.received]
      exact inOrder_of_entries h.inOrder untouched.entries untouched.allocated
    · rw [untouched.lastStored,untouched.received]
      exact h.none
  | resized => exact ⟨inOrder_signalBacklogChanged h.inOrder ..,hlatest,h.stored,h.none⟩
  | registered hSignal szBacklog memory content =>
    obtain ⟨hregistered,hfresh⟩ := hallowed
    have hreceived : reception.received = [] := by
      apply eq_nil_iff_forall_not_mem.mpr
      intro address haddress
      exact absurd (h.inOrder.known address haddress) (by omega)
    refine ⟨?_,hlatest,h.stored,h.none⟩
    have hinv := h.inOrder
    rw [hreceived] at hinv
    simp only [hreceived]
    exact inOrder_signalRegistered hregistered hinv ..
  | cleared hclear => exact ⟨inOrder_clearAll hallowed h.inOrder hclear,hlatest,h.stored,fun _ => rfl⟩

theorem inv_of_reaches (h : Reaches step (NonNegative registered) new reception) : Inv registered reception :=
  h.invariant inv_new fun _ _ _ hinv hallowed hstep => inv_step hinv hallowed hstep

end Reception
end FepParticipant.DataAccess
