import FepParticipant.Transmission.Transmitter

/-! The counter that numbers the samples sent on one signal, and the number and frame that each sample
has without the bounds of the counter. -/
namespace FepParticipant.DataAccess
open Transmission Nat

structure SignalCounter where
  signalHandle : Nat
  prevSync : Bool
  frameId : UInt64
  sampleNumber : UInt16

/-- What `SendNow` passes to the transmission adapter, what it leaves of the sample, and its result. -/
structure SendNow where
  counter : SignalCounter
  transmitted : PreparationDataSample
  sample : PreparationDataSample
  result : Result

/-- A sample of the user and the answer of the transmission adapter to it. -/
structure SendCall where
  sample : PreparationDataSample
  transmits : Result

namespace SignalCounter

/-- `ConfigureSampleCounter`: the frames are counted from one, their samples from zero. -/
def create (signalHandle : Nat) : SignalCounter := ⟨signalHandle,true,1,0⟩

def sendNow (counter : SignalCounter) (sample : PreparationDataSample) (transmits : Result) : SendNow :=
  let counter := {counter with prevSync := sample.syncFlag}
  let numbered := {sample with frameId := counter.frameId, sampleNumberInFrame := counter.sampleNumber}
  let counted :=
    if isOk transmits then
      if counter.prevSync then {counter with sampleNumber := 0, frameId := counter.frameId + 1}
      else {counter with sampleNumber := counter.sampleNumber + 1}
    else counter
  ⟨counted,{numbered with signalHandle := counter.signalHandle},numbered,transmits⟩

def sendAll (counter : SignalCounter) : List SendCall → List PreparationDataSample
  | [] => []
  | call::calls =>
    let sent := counter.sendNow call.sample call.transmits
    if isOk sent.result then sent.transmitted::sent.counter.sendAll calls else sent.counter.sendAll calls

end SignalCounter

/-- The frame of the next sample, when the samples before had these sync flags. -/
def frameNumber (preceding : List Bool) : Nat := preceding.count true + 1

def numberInFrame (preceding : List Bool) : Nat := (preceding.reverse.takeWhile (!·)).length

section
variable {preceding : List Bool} {sync : Bool}

theorem frameNumber_append : frameNumber (preceding ++ [sync]) = frameNumber preceding + if sync then 1 else 0 := by
  cases sync <;> simp [frameNumber]

theorem numberInFrame_append :
    numberInFrame (preceding ++ [sync]) = if sync then 0 else numberInFrame preceding + 1 := by
  cases sync <;> simp [numberInFrame]

end

namespace SignalCounter
variable {counter : SignalCounter} {preceding : List Bool}

/-- The counter holds the numbers of the next sample as far as they fit. -/
structure Counts (preceding : List Bool) (counter : SignalCounter) : Prop where
  frameId : counter.frameId = .ofNat (frameNumber preceding)
  sampleNumber : counter.sampleNumber = .ofNat (numberInFrame preceding)

theorem counts_create (signalHandle : Nat) : (create signalHandle).Counts [] := ⟨rfl,rfl⟩

theorem counts_sendNow (h : counter.Counts preceding) (sample : PreparationDataSample) {transmits : Result}
    (hok : isOk transmits = true) :
    (counter.sendNow sample transmits).counter.Counts (preceding ++ [sample.syncFlag]) := by
  unfold sendNow
  dsimp only
  rw [if_pos hok]
  cases hsync : sample.syncFlag with
  | true =>
    refine ⟨?_,?_⟩
    · have hframe : frameNumber (preceding ++ [true]) = frameNumber preceding + 1 := frameNumber_append
      rw [hframe,UInt64.ofNat_add,← h.frameId]
      rfl
    · rw [numberInFrame_append]
      rfl
  | false =>
    refine ⟨?_,?_⟩
    · rw [frameNumber_append]
      exact h.frameId
    · have hnumber : numberInFrame (preceding ++ [false]) = numberInFrame preceding + 1 := numberInFrame_append
      rw [hnumber,UInt16.ofNat_add,← h.sampleNumber]
      rfl

private theorem sendNow_counter_of_failed (sample : PreparationDataSample) {transmits : Result}
    (hfailed : ¬isOk transmits = true) (h : counter.Counts preceding) :
    (counter.sendNow sample transmits).counter.Counts preceding := by
  unfold sendNow
  dsimp only
  rw [if_neg hfailed]
  exact ⟨h.frameId,h.sampleNumber⟩

theorem sendAll_numbers {calls : List SendCall} (h : counter.Counts preceding) {index : Nat}
    {sample : PreparationDataSample} (hsample : (counter.sendAll calls)[index]? = some sample) :
    sample.frameId = .ofNat (frameNumber
        (preceding ++ ((counter.sendAll calls).take index).map PreparationDataSample.syncFlag)) ∧
      sample.sampleNumberInFrame = .ofNat (numberInFrame
        (preceding ++ ((counter.sendAll calls).take index).map PreparationDataSample.syncFlag)) := by
  induction calls generalizing counter preceding index with
  | nil => cases hsample
  | cons call calls ih =>
    have hsent : (counter.sendNow call.sample call.transmits).result = call.transmits := rfl
    by_cases hok : isOk call.transmits = true
    · rw [sendAll,hsent,if_pos hok] at hsample ⊢
      cases index with
      | zero =>
        cases hsample
        simp only [List.take_zero,List.map_nil,List.append_nil]
        exact ⟨h.frameId,h.sampleNumber⟩
      | succ index =>
        have hrest := ih (counts_sendNow h call.sample hok) hsample
        simp only [List.append_assoc] at hrest
        exact hrest
    · rw [sendAll,hsent,if_neg hok] at hsample ⊢
      exact ih (sendNow_counter_of_failed call.sample hok h) hsample

end SignalCounter

end FepParticipant.DataAccess

namespace FepParticipant.Transmission
open List

structure DataListenerAdapter where
  missedDataSamples : UInt64
  prevSyncFlag : Bool
  prevFrameId : UInt64
  prevSampleNumber : UInt64

namespace DataListenerAdapter

def create : DataListenerAdapter := ⟨0,true,0,0⟩

/-- A skipped frame, a skipped sample within a frame, or a missed sample with sync flag. -/
def misses (adapter : DataListenerAdapter) (sample : PreparationDataSample) : Bool :=
  decide (sample.frameId > adapter.prevFrameId + 1) ||
    decide (sample.sampleNumberInFrame.toUInt64 > adapter.prevSampleNumber + 1) ||
    (decide (sample.frameId > adapter.prevFrameId) && !adapter.prevSyncFlag)

/-- The numbers that the next sample is compared with. -/
def remember (adapter : DataListenerAdapter) (sample : PreparationDataSample) : DataListenerAdapter :=
  { adapter with
    prevSyncFlag := sample.syncFlag
    prevFrameId := sample.frameId
    prevSampleNumber := sample.sampleNumberInFrame.toUInt64 }

def update (adapter : DataListenerAdapter) (sample : PreparationDataSample) :
    DataListenerAdapter × List IncidentCode :=
  if adapter.misses sample then
    ({adapter with missedDataSamples := adapter.missedDataSamples + 1}.remember sample,
      [.fsiTransmRxMissingDatasample])
  else (adapter.remember sample,[])

def updateAll (adapter : DataListenerAdapter) : List PreparationDataSample → List (List IncidentCode)
  | [] => []
  | sample::samples => (adapter.update sample).2::(adapter.update sample).1.updateAll samples

variable {adapter : DataListenerAdapter} {sample next : PreparationDataSample}

theorem update_snd : (adapter.update sample).2 =
    if adapter.misses sample then [.fsiTransmRxMissingDatasample] else [] := by
  unfold update
  split <;> rfl

private theorem update_update :
    ((adapter.update sample).1.update next).2 = ((create.remember sample).update next).2 := by
  have hmisses : (adapter.update sample).1.misses next = (create.remember sample).misses next := by
    unfold update
    split <;> rfl
  rw [update_snd,hmisses,update_snd]

theorem updateAll_succ {samples : List PreparationDataSample} {index : Nat} (hsample : samples[index]? = some sample)
    (hnext : samples[index + 1]? = some next) :
    (adapter.updateAll samples)[index + 1]? = some ((create.remember sample).update next).2 := by
  induction samples generalizing adapter index with
  | nil => cases hsample
  | cons first samples ih =>
    cases index with
    | zero =>
      cases hsample
      cases samples with
      | nil => cases hnext
      | cons second samples =>
        cases hnext
        exact congrArg some update_update
    | succ index => exact ih hsample hnext

theorem update_incidents_iff : (adapter.update sample).2 ≠ [] ↔ adapter.misses sample = true := by
  rw [update_snd]
  split <;> simp [*]

end DataListenerAdapter

end FepParticipant.Transmission

namespace FepParticipant.DataAccess
open Transmission List

def frameIds : Nat := 2 ^ 64

def sampleNumbers : Nat := 2 ^ 16

/-- A sample was lost between the positions `i` and `j`, but the numbers at `j` are as if none was. -/
inductive Hidden (syncFlags : List Bool) (i j : Nat) : Prop
  /-- The number of the sample has wrapped within its frame. -/
  | sameFrame : frameNumber (syncFlags.take j) = frameNumber (syncFlags.take i) →
      frameNumber (syncFlags.take i) % frameIds ≠ frameIds - 1 →
      numberInFrame (syncFlags.take j) % sampleNumbers ≤ numberInFrame (syncFlags.take i) % sampleNumbers + 1 →
      Hidden syncFlags i j
  /-- The first samples of the next frame were lost, but not more than were in the frame before. -/
  | nextFrame : frameNumber (syncFlags.take j) = frameNumber (syncFlags.take i) + 1 →
      (syncFlags[i]? = some true ∨ frameNumber (syncFlags.take i) % frameIds = frameIds - 1) →
      numberInFrame (syncFlags.take j) % sampleNumbers ≤ numberInFrame (syncFlags.take i) % sampleNumbers + 1 →
      Hidden syncFlags i j
  /-- The frame id has wrapped. -/
  | laterFrame : frameNumber (syncFlags.take i) + 1 < frameNumber (syncFlags.take j) →
      frameNumber (syncFlags.take j) % frameIds ≤ (frameNumber (syncFlags.take i) + 1) % frameIds →
      (syncFlags[i]? = some true ∨
        frameNumber (syncFlags.take j) % frameIds ≤ frameNumber (syncFlags.take i) % frameIds) →
      numberInFrame (syncFlags.take j) % sampleNumbers ≤ numberInFrame (syncFlags.take i) % sampleNumbers + 1 →
      Hidden syncFlags i j

/-- No lost sample is hidden, and no frame has the last frame id and further samples. -/
structure Distinguishable (syncFlags : List Bool) (i j : Nat) : Prop where
  lost : i + 1 < j → ¬Hidden syncFlags i j
  notLost : j = i + 1 → syncFlags[i]? = some true ∨ frameNumber (syncFlags.take i) % frameIds ≠ frameIds - 1

section
variable {syncFlags : List Bool} {i j : Nat} {sync : Bool}

theorem frameNumber_succ (h : syncFlags[i]? = some sync) :
    frameNumber (syncFlags.take (i + 1)) = frameNumber (syncFlags.take i) + if sync then 1 else 0 := by
  rw [take_add_one,h]
  exact frameNumber_append

theorem numberInFrame_succ (h : syncFlags[i]? = some sync) :
    numberInFrame (syncFlags.take (i + 1)) = if sync then 0 else numberInFrame (syncFlags.take i) + 1 := by
  rw [take_add_one,h]
  exact numberInFrame_append

theorem frameNumber_mono (h : i ≤ j) : frameNumber (syncFlags.take i) ≤ frameNumber (syncFlags.take j) := by
  apply Nat.succ_le_succ
  apply List.Sublist.count_le
  exact take_sublist_take_left h

end

section
variable {previous next : PreparationDataSample} {frame frame' number number' : Nat}

theorem misses_iff (hframe : previous.frameId = .ofNat frame) (hnumber : previous.sampleNumberInFrame = .ofNat number)
    (hframe' : next.frameId = .ofNat frame') (hnumber' : next.sampleNumberInFrame = .ofNat number') :
    (DataListenerAdapter.create.remember previous).misses next = true ↔ (frame + 1) % frameIds < frame' % frameIds ∨
        number % sampleNumbers + 1 < number' % sampleNumbers ∨
        frame % frameIds < frame' % frameIds ∧ previous.syncFlag = false := by
  have hnext : (UInt64.ofNat frame + 1).toNat = (frame + 1) % frameIds := by
    rw [← UInt64.ofNat_one,← UInt64.ofNat_add,UInt64.toNat_ofNat']
    rfl
  have hplace : ((UInt16.ofNat number).toUInt64 + 1).toNat = number % sampleNumbers + 1 := by
    have hlt : number % sampleNumbers < sampleNumbers := Nat.mod_lt _ (by decide)
    simp only [sampleNumbers] at hlt ⊢
    rw [UInt64.toNat_add,UInt16.toNat_toUInt64,UInt16.toNat_ofNat']
    simp only [UInt64.toNat_one]
    omega
  have hplace' : (UInt16.ofNat number').toUInt64.toNat = number' % sampleNumbers := by
    rfl
  have hid (n : Nat) : (UInt64.ofNat n).toNat = n % frameIds := UInt64.toNat_ofNat'
  simp only [DataListenerAdapter.misses,DataListenerAdapter.remember,hframe,hnumber,hframe',hnumber',
    Bool.or_eq_true,Bool.and_eq_true,decide_eq_true_eq,gt_iff_lt,UInt64.lt_iff_toNat_lt,hnext,hplace,
    hplace',hid,Bool.not_eq_true',or_assoc]

end

section
variable {syncFlags : List Bool} {i j : Nat} {sync : Bool} {misses : Prop}

section
variable (hsync : syncFlags[i]? = some sync)
include hsync

theorem misses_next_iff
    (hmisses : misses ↔
      (frameNumber (syncFlags.take i) + 1) % frameIds < frameNumber (syncFlags.take (i + 1)) % frameIds ∨
      numberInFrame (syncFlags.take i) % sampleNumbers + 1 < numberInFrame (syncFlags.take (i + 1)) % sampleNumbers ∨
      frameNumber (syncFlags.take i) % frameIds < frameNumber (syncFlags.take (i + 1)) % frameIds ∧ sync = false) :
    ¬misses ↔ syncFlags[i]? = some true ∨ frameNumber (syncFlags.take i) % frameIds ≠ frameIds - 1 := by
  rw [hmisses,frameNumber_succ hsync,numberInFrame_succ hsync,hsync,Option.some.injEq]
  cases sync with
  | true => simp
  | false =>
    simp only [frameIds,sampleNumbers,Bool.false_eq_true,if_false,and_true,false_or]
    omega

theorem not_compared_of_hidden (hhidden : Hidden syncFlags i j) :
    ¬((frameNumber (syncFlags.take i) + 1) % frameIds < frameNumber (syncFlags.take j) % frameIds ∨
      numberInFrame (syncFlags.take i) % sampleNumbers + 1 < numberInFrame (syncFlags.take j) % sampleNumbers ∨
      frameNumber (syncFlags.take i) % frameIds < frameNumber (syncFlags.take j) % frameIds ∧ sync = false) := by
  intro hcompared
  cases hhidden with
  | sameFrame hframe hid hnumber =>
    simp only [frameIds,hframe] at hcompared hid
    omega
  | nextFrame hframe hid hnumber =>
    rw [hsync,Option.some.injEq] at hid
    rw [hframe] at hcompared
    rcases hcompared with hcompared | hcompared | ⟨hcompared,rfl⟩
    · exact lt_irrefl _ hcompared
    · omega
    · have hlast := hid.resolve_left Bool.false_ne_true
      simp only [frameIds] at hcompared hlast
      omega
  | laterFrame hframe hid hid' hnumber =>
    rw [hsync,Option.some.injEq] at hid'
    rcases hcompared with hcompared | hcompared | ⟨hcompared,rfl⟩
    · omega
    · omega
    · have hle := hid'.resolve_left Bool.false_ne_true
      omega

theorem hidden_of_not_compared (hlt : i + 1 < j)
    (hid : ¬(frameNumber (syncFlags.take i) + 1) % frameIds < frameNumber (syncFlags.take j) % frameIds)
    (hnumber : ¬numberInFrame (syncFlags.take i) % sampleNumbers + 1 < numberInFrame (syncFlags.take j) % sampleNumbers)
    (hid' : ¬(frameNumber (syncFlags.take i) % frameIds < frameNumber (syncFlags.take j) % frameIds ∧
      sync = false)) : Hidden syncFlags i j := by
  have hmono := @frameNumber_mono syncFlags (i + 1) j (le_of_lt hlt)
  rw [frameNumber_succ hsync] at hmono
  have hflag : syncFlags[i]? = some true ↔ sync = true := by rw [hsync,Option.some.injEq]
  rcases lt_trichotomy (frameNumber (syncFlags.take j)) (frameNumber (syncFlags.take i) + 1) with
    hframe | hframe | hframe
  · have hsame : frameNumber (syncFlags.take j) = frameNumber (syncFlags.take i) := by split at hmono <;> omega
    refine .sameFrame hsame ?_ (Nat.le_of_not_lt hnumber)
    simp only [hsame,frameIds] at hid ⊢
    omega
  · refine .nextFrame hframe ?_ (Nat.le_of_not_lt hnumber)
    rw [hflag]
    cases sync with
    | true => exact .inl rfl
    | false =>
      simp only [hframe,frameIds,and_true,Bool.false_eq_true,false_or] at hid' ⊢
      omega
  · refine .laterFrame hframe (Nat.le_of_not_lt hid) ?_ (Nat.le_of_not_lt hnumber)
    rw [hflag]
    cases sync with
    | true => exact .inl rfl
    | false => exact .inr (Nat.le_of_not_lt fun hlt => hid' ⟨hlt,rfl⟩)

theorem misses_lost_iff (hlt : i + 1 < j)
    (hmisses : misses ↔ (frameNumber (syncFlags.take i) + 1) % frameIds < frameNumber (syncFlags.take j) % frameIds ∨
      numberInFrame (syncFlags.take i) % sampleNumbers + 1 < numberInFrame (syncFlags.take j) % sampleNumbers ∨
      frameNumber (syncFlags.take i) % frameIds < frameNumber (syncFlags.take j) % frameIds ∧ sync = false) :
    misses ↔ ¬Hidden syncFlags i j := by
  rw [hmisses]
  constructor
  · intro hcompared hhidden
    exact not_compared_of_hidden hsync hhidden hcompared
  · intro hhidden
    apply Classical.byContradiction
    intro hnot
    obtain ⟨hid,hrest⟩ := not_or.mp hnot
    obtain ⟨hnumber,hid'⟩ := not_or.mp hrest
    exact hhidden (hidden_of_not_compared hsync hlt hid hnumber hid')

end

end

/-- The samples that a new counter numbers for these calls. -/
def sent (signalHandle : Nat) (calls : List SendCall) : List PreparationDataSample :=
  (SignalCounter.create signalHandle).sendAll calls

private theorem sent_numbers (signalHandle : Nat) (calls : List SendCall) (i : Fin (sent signalHandle calls).length) :
    ((sent signalHandle calls).get i).frameId = .ofNat (frameNumber
        (((sent signalHandle calls).map PreparationDataSample.syncFlag).take i)) ∧
      ((sent signalHandle calls).get i).sampleNumberInFrame = .ofNat (numberInFrame
        (((sent signalHandle calls).map PreparationDataSample.syncFlag).take i)) := by
  have hsample := getElem?_eq_getElem i.isLt
  rw [← map_take]
  exact SignalCounter.sendAll_numbers (SignalCounter.counts_create signalHandle) hsample

/-- An incident is raised for the second of two consecutive received samples if and only if one sent between them
was lost. -/
def DetectsLoss (signalHandle : Nat) (calls : List SendCall)
    (received : List (Fin (sent signalHandle calls).length)) (index : Nat)
    (i j : Fin (sent signalHandle calls).length) : Prop :=
  (∃ incidents, (DataListenerAdapter.create.updateAll (received.map (sent signalHandle calls).get))[index + 1]? =
    some incidents ∧ incidents ≠ []) ↔ i.val + 1 < j.val

/-- For every sequence of calls and every subsequence of the samples that arrives, losses are detected exactly where
the numbers tell. -/
theorem missing_sample_detected_iff (signalHandle : Nat) (calls : List SendCall)
    (received : List (Fin (sent signalHandle calls).length)) (hincreasing : received.Pairwise (· < ·))
    (index : Nat) (i j : Fin (sent signalHandle calls).length) (hi : received[index]? = some i)
    (hj : received[index + 1]? = some j) : DetectsLoss signalHandle calls received index i j ↔
      Distinguishable ((sent signalHandle calls).map PreparationDataSample.syncFlag) i j := by
  have hlt : i.val < j.val := by
    obtain ⟨hi',rfl⟩ := List.getElem?_eq_some_iff.mp hi
    obtain ⟨hj',rfl⟩ := List.getElem?_eq_some_iff.mp hj
    exact pairwise_iff_getElem.mp hincreasing index (index + 1) hi' hj' (Nat.lt_succ_self index)
  obtain ⟨hframe,hnumber⟩ := sent_numbers signalHandle calls i
  obtain ⟨hframe',hnumber'⟩ := sent_numbers signalHandle calls j
  have hmisses := misses_iff hframe hnumber hframe' hnumber'
  have hsync : ((sent signalHandle calls).map PreparationDataSample.syncFlag)[i.val]? =
      some ((sent signalHandle calls).get i).syncFlag := by
    simp
  have hupdate : (DataListenerAdapter.create.updateAll (received.map (sent signalHandle calls).get))[index + 1]? =
      some ((DataListenerAdapter.create.remember ((sent signalHandle calls).get i)).update
        ((sent signalHandle calls).get j)).2 := by
    apply DataListenerAdapter.updateAll_succ
    · rw [getElem?_map,hi,Option.map_some]
    · rw [getElem?_map,hj,Option.map_some]
  have hraised : (∃ incidents, (DataListenerAdapter.create.updateAll
        (received.map (sent signalHandle calls).get))[index + 1]? = some incidents ∧ incidents ≠ []) ↔
      (DataListenerAdapter.create.remember ((sent signalHandle calls).get i)).misses
        ((sent signalHandle calls).get j) = true := by
    rw [hupdate,← DataListenerAdapter.update_incidents_iff]
    simp only [Option.some.injEq,exists_eq_left']
  rw [DetectsLoss,hraised]
  by_cases hnext : j.val = i.val + 1
  · rw [hnext] at hmisses ⊢
    have hcompared := misses_next_iff hsync hmisses
    rw [iff_false_right (lt_irrefl _),hcompared]
    exact ⟨fun h => ⟨fun hlt => absurd hlt (lt_irrefl _),fun _ => h⟩,fun h => h.notLost rfl⟩
  · have hlost : i.val + 1 < j.val := by omega
    have hcompared := misses_lost_iff hsync hlost hmisses
    rw [iff_true_right hlost,hcompared]
    exact ⟨fun h => ⟨fun _ => h,fun heq => absurd heq hnext⟩,fun h => h.lost hlost⟩

private def calls (syncFlags : List Bool) : List SendCall :=
  syncFlags.map fun sync => ⟨⟨sync,0,0,0,0,[],0,by decide⟩,.errNoError⟩

theorem missing_sample_detected_sync : Distinguishable [false,true,false] 0 2 := by
  apply (missing_sample_detected_iff 1 (calls [false,true,false]) [⟨0,by decide⟩,⟨2,by decide⟩] (by decide) 0
    ⟨0,by decide⟩ ⟨2,by decide⟩ rfl rfl).mp
  exact iff_of_true ⟨_,rfl,by decide⟩ (by decide)

/-- The first sample of a frame is lost, and the second has the number after that of the last received. -/
theorem missing_sample_overlooked :
    ∃ received : List (Fin (sent 1 (calls [true,false,false])).length), received.Pairwise (· < ·) ∧
      ∃ i j, received[0]? = some i ∧ received[1]? = some j ∧
        ¬DetectsLoss 1 (calls [true,false,false]) received 0 i j := by
  refine ⟨[⟨0,by decide⟩,⟨2,by decide⟩],by decide,⟨0,by decide⟩,⟨2,by decide⟩,rfl,rfl,fun hdetects => ?_⟩
  obtain ⟨incidents,hincidents,hne⟩ := hdetects.mpr (by decide)
  exact hne (Option.some.inj hincidents).symm

end FepParticipant.DataAccess
