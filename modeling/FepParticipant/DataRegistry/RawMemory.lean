import FepParticipant.DataRegistry.DataSample
import FepParticipant.DataRegistry.WriterFlush

/-! Strings as the content of samples: they are written with their size and read up to the first zero. -/
namespace FepParticipant.DataRegistry
open Library FepParticipant.Transmission List Option Nat

/-- The characters from a pointer on to the first zero, and the number of bytes that are read for it. -/
def readCString : List UInt8 → Option (List UInt8 × Nat)
  | [] => none
  | byte::memory =>
    if byte = 0 then some ([],1)
    else (readCString memory).map fun (value,read) => (byte::value,read + 1)

/-- `RawMemoryClassType<std::string>` and `RawMemoryStandardType<std::string>` with the string they wrap up. -/
structure RawMemoryString where
  value : List UInt8

namespace RawMemoryString

def cdata (memory : RawMemoryString) : List UInt8 := memory.value ++ [0]

def size (memory : RawMemoryString) : Nat := memory.value.length + 1

/-- `set` with data that lie in front of other bytes; the size of the data is not used. -/
def set (_ : RawMemoryString) (data behind : List UInt8) : Option (RawMemoryString × Nat) :=
  (readCString (data ++ behind)).map fun (value,_) => (⟨value⟩,(⟨value⟩ : RawMemoryString).size)

end RawMemoryString

def DataSample.writeString (copier : Copier) (sample : DataSample) (value : List UInt8) : DataSample :=
  sample.write copier (RawMemoryString.cdata ⟨value⟩)

def DataSample.readString (sample : DataSample) (memory : RawMemoryString) (behind : List UInt8) :
    Option (RawMemoryString × Nat) :=
  memory.set (sample.buffer.take sample.currentSize) (sample.buffer.drop sample.currentSize ++ behind)

/-- `writeByType` of a string, which has no time. -/
def DataWriterFEP2.writeString (copier : Copier) (writer : DataWriterFEP2) (value : List UInt8) (time : Int64)
    (timeOfReceiving : Int) : Option (DataWriterFEP2 × Result) :=
  writer.write copier ⟨invalidTimestamp,some (RawMemoryString.cdata ⟨value⟩)⟩ time timeOfReceiving

variable {memory behind value data : List UInt8} {read : Nat} {copier : Copier}

theorem readCString_eq_some_iff :
    readCString memory = some (value,read) ↔ 0 ∉ value ∧ value ++ [0] <+: memory ∧ read = value.length + 1 := by
  induction memory generalizing value read with
  | nil => simp [readCString]
  | cons byte memory ih =>
    rw [readCString]
    by_cases hzero : byte = 0
    · rw [if_pos hzero,hzero]
      cases value with
      | nil => simp [eq_comm]
      | cons head value =>
        -- a value that is read before the zero has no characters
        refine iff_of_false (by simp) ?_
        rintro ⟨hmem,hbegins,-⟩
        rw [cons_append,cons_prefix_cons] at hbegins
        exact hmem (hbegins.1 ▸ mem_cons_self)
    · rw [if_neg hzero,map_eq_some_iff]
      cases value with
      | nil =>
        refine iff_of_false (by simp) ?_
        rintro ⟨-,hbegins,-⟩
        exact hzero (cons_prefix_cons.mp hbegins).1.symm
      | cons head value =>
        simp only [Prod.exists,Prod.mk.injEq,List.cons.injEq,cons_append,cons_prefix_cons,
          mem_cons,length_cons,not_or]
        constructor
        · rintro ⟨_,read',hread,⟨rfl,rfl⟩,rfl⟩
          obtain ⟨hmem,hbegins,rfl⟩ := ih.mp hread
          exact ⟨⟨Ne.symm hzero,hmem⟩,⟨rfl,hbegins⟩,rfl⟩
        · rintro ⟨⟨-,hmem⟩,⟨rfl,hbegins⟩,rfl⟩
          exact ⟨value,value.length + 1,ih.mpr ⟨hmem,hbegins,rfl⟩,⟨rfl,rfl⟩,rfl⟩

theorem length_lt_of_readCString (hdata : 0 ∉ data) (h : readCString (data ++ behind) = some (value,read)) :
    data.length < read := by
  obtain ⟨-,hbegins,rfl⟩ := readCString_eq_some_iff.mp h
  by_contra hshort
  have hle : (value ++ [0]).length ≤ data.length := by
    rw [length_append,length_singleton]
    exact not_lt.mp hshort
  have hwithin := prefix_of_prefix_length_le hbegins (prefix_append data behind) hle
  exact hdata (hwithin.subset (mem_append_right _ mem_cons_self))

theorem readCString_of_mem (hdata : 0 ∈ data) :
    ∃ value, readCString (data ++ behind) = some (value,value.length + 1) ∧ value.length + 1 ≤ data.length := by
  obtain ⟨value,rest,hsplit,hvalue⟩ := eq_append_cons_of_mem hdata
  have hbegins : value ++ [0] <+: data := ⟨rest,by rw [hsplit,append_assoc,singleton_append]⟩
  refine ⟨value,readCString_eq_some_iff.mpr ⟨hvalue,hbegins.trans (prefix_append ..),rfl⟩,?_⟩
  have hlength := hbegins.length_le
  rwa [length_append,length_singleton] at hlength

/-- A string gets the value whatever lies behind the data. -/
def Arrives (data value : List UInt8) : Prop :=
  ∀ target behind, ∃ returned, RawMemoryString.set target data behind = some (⟨value⟩,returned)

theorem arrives_iff : Arrives data value ↔ 0 ∉ value ∧ RawMemoryString.cdata ⟨value⟩ <+: data := by
  constructor
  · intro h
    obtain ⟨returned,hset⟩ := h ⟨[]⟩ []
    obtain ⟨⟨_,read⟩,hread,hvalue⟩ := Option.map_eq_some_iff.mp hset
    cases hvalue
    rw [append_nil] at hread
    obtain ⟨hmem,hbegins,-⟩ := readCString_eq_some_iff.mp hread
    exact ⟨hmem,hbegins⟩
  · rintro ⟨hmem,hbegins⟩ target behind
    have hread : readCString (data ++ behind) = some (value,value.length + 1) :=
      readCString_eq_some_iff.mpr ⟨hmem,hbegins.trans (prefix_append ..),rfl⟩
    exact ⟨value.length + 1,by rw [RawMemoryString.set,hread]; rfl⟩

/-- Only the data are read, and what is returned is the number of bytes that were. -/
def ReadsWithin (data behind : List UInt8) : Prop :=
  ∀ target, ∃ value read, readCString (data ++ behind) = some (value,read) ∧ read ≤ data.length ∧
    RawMemoryString.set target data behind = some (⟨value⟩,read)

theorem readsWithin_iff : ReadsWithin data behind ↔ 0 ∈ data := by
  constructor
  · intro h
    obtain ⟨value,read,hread,hle,-⟩ := h ⟨[]⟩
    by_contra hzero
    exact absurd (length_lt_of_readCString hzero hread) (not_lt.mpr hle)
  · intro h target
    obtain ⟨value,hread,hle⟩ := readCString_of_mem h
    exact ⟨value,value.length + 1,hread,hle,by rw [RawMemoryString.set,hread]; rfl⟩

def DataSample.CarriesString (copier : Copier) (sample : DataSample) (value : List UInt8) : Prop :=
  ∀ target behind, ∃ returned,
    (sample.writeString copier value).readString target behind = some (⟨value⟩,returned)

/-- A sample has room for a string and its terminating zero, if the bytes can be copied at all. -/
def DataSample.HasRoom (copier : Copier) (sample : DataSample) (value : List UInt8) : Prop :=
  if (copier sample.buffer (sample.taken (RawMemoryString.cdata ⟨value⟩))).isSome then
    sample.fixedSize = false ∨ RawMemoryString.size ⟨value⟩ ≤ sample.capacity
  else RawMemoryString.cdata ⟨value⟩ <+: sample.buffer

/-- The string comes back from the last sample that is transmitted when a writer took it. -/
def DataWriterFEP2.CarriesString (copier : Copier) (writer : DataWriterFEP2) (value : List UInt8) : Prop :=
  ∀ time timeOfReceiving writer',
    writer.writeString copier value time timeOfReceiving = some (writer',.errNoError) →
      ∃ writer'' transmitted last, writer'.flush = some (writer'',transmitted ++ [last]) ∧ Arrives last.data value

/-- The same for a sample of the writer's pool. -/
def DataSampleFEP2.HasRoom (copier : Copier) (sample : DataSampleFEP2) (value : List UInt8) : Prop :=
  let limit := sample.limit (RawMemoryString.size ⟨value⟩)
  if (copier sample.userDataSample.memory ((RawMemoryString.cdata ⟨value⟩).take limit)).isSome then
    limit = RawMemoryString.size ⟨value⟩
  else RawMemoryString.cdata ⟨value⟩ <+: sample.userDataSample.data

/-- A buffer with room for the bytes is not enlarged. -/
def KeepsRoom (copier : Copier) : Prop := ∀ memory source copied,
  copier memory source = some copied → source.length ≤ memory.length → copied.val.length = memory.length

theorem length_cdata : (RawMemoryString.cdata ⟨value⟩).length = RawMemoryString.size ⟨value⟩ := length_append

private theorem DataSample.hasRoom_iff (hroom : KeepsRoom copier) (sample : DataSample) :
    RawMemoryString.cdata ⟨value⟩ <+:
        copyInto copier sample.buffer (sample.taken (RawMemoryString.cdata ⟨value⟩)) ↔
      sample.HasRoom copier value := by
  rw [HasRoom,copyInto]
  rcases hcopied : copier sample.buffer (sample.taken (RawMemoryString.cdata ⟨value⟩)) with _ | copied
  · exact Iff.rfl
  · rw [isSome_some,if_pos rfl,elim_some]
    by_cases hcut : sample.fixedSize ∧ sample.capacity < (RawMemoryString.cdata ⟨value⟩).length
    · -- the buffer is not enlarged, and the terminating zero is lost
      have hshort : (sample.taken (RawMemoryString.cdata ⟨value⟩)).length ≤ sample.buffer.length := by
        rw [taken,if_pos hcut,length_take]
        exact min_le_left ..
      have hlength : copied.val.length = sample.capacity := hroom _ _ _ hcopied hshort
      refine iff_of_false (fun hbegins => ?_) ?_
      · exact absurd (hlength ▸ hbegins.length_le) (not_le.mpr hcut.2)
      · rintro (hfixed | hle)
        · exact Bool.false_ne_true (hfixed.symm.trans hcut.1)
        · exact absurd (length_cdata ▸ hcut.2) (not_lt.mpr hle)
    · have hwhole : sample.taken (RawMemoryString.cdata ⟨value⟩) = RawMemoryString.cdata ⟨value⟩ := if_neg hcut
      refine iff_of_true ((congrArg (fun taken => taken <+: copied.val) hwhole).mp copied.property) ?_
      cases hfixed : sample.fixedSize with
      | false => exact .inl rfl
      | true => exact .inr (not_lt.mp fun hlt => hcut ⟨hfixed,length_cdata ▸ hlt⟩)

theorem DataSample.carriesString_iff (hroom : KeepsRoom copier) (sample : DataSample) :
    sample.CarriesString copier value ↔ 0 ∉ value ∧ sample.HasRoom copier value := by
  have hread : sample.CarriesString copier value ↔ Arrives (sample.writeString copier value).buffer value := by
    refine forall_congr' fun target => forall_congr' fun behind => exists_congr fun returned => ?_
    rw [DataSample.readString,RawMemoryString.set,← append_assoc,take_append_drop]
    rfl
  rw [hread,arrives_iff]
  exact and_congr_right fun _ => hasRoom_iff hroom sample

theorem DataSampleFEP2.hasRoom_iff (sample : DataSampleFEP2) : RawMemoryString.cdata ⟨value⟩ <+:
        (sample.assign copier ⟨invalidTimestamp,some (RawMemoryString.cdata ⟨value⟩)⟩).userDataSample.data ↔
      sample.HasRoom copier value := by
  let content := (RawMemoryString.cdata ⟨value⟩).take (sample.limit (RawMemoryString.size ⟨value⟩))
  have hassigned : (sample.assign copier ⟨invalidTimestamp,some (RawMemoryString.cdata ⟨value⟩)⟩).userDataSample.data =
      ((sample.userDataSample.setTime invalidTimestamp).copyFrom copier (some content)).1.data := by
    show (PreparationDataSample.copyFrom copier _ (some (List.take (sample.limit _) _))).1.data = _
    rw [length_cdata]
    rfl
  rw [hassigned,HasRoom]
  split
  · rename_i hcopied
    have hdata : ((sample.userDataSample.setTime invalidTimestamp).copyFrom copier (some content)).1.data = content :=
      PreparationDataSample.data_copyFrom hcopied
    rw [hdata,prefix_take_iff,length_cdata]
    -- no more than the size is ever taken
    have hlimit : sample.limit (RawMemoryString.size ⟨value⟩) ≤ RawMemoryString.size ⟨value⟩ := by
      rw [limit]
      split <;> omega
    exact ⟨fun h => le_antisymm hlimit h.2,fun h => ⟨prefix_refl _,le_of_eq h.symm⟩⟩
  · rename_i hnone
    have hfailed : copier sample.userDataSample.memory content = none := Option.not_isSome_iff_eq_none.mp hnone
    have hkept : ((sample.userDataSample.setTime invalidTimestamp).copyFrom copier (some content)).1.data =
        sample.userDataSample.data := by
      rw [PreparationDataSample.copyFrom]
      have hfailed' : copier (sample.userDataSample.setTime invalidTimestamp).memory content = none := hfailed
      simp only [hfailed']
      rfl
    rw [hkept]

private theorem kept_append_singleton {ε : Type} {capacity : Option Nat} (hcapacity : capacity ≠ some 0)
    (items : List ε)
    (item : ε) : ∃ earlier, kept capacity (items ++ [item]) = earlier ++ [item] := by
  cases capacity with
  | none => exact ⟨items,rfl⟩
  | some count =>
    refine ⟨items.drop (items.length + 1 - count),?_⟩
    rw [kept,elim_some,keepLast,length_append,length_singleton,drop_append_of_le_length]
    have hcount : count ≠ 0 := fun hzero => hcapacity (congrArg some hzero)
    omega

namespace DataWriterFEP2
variable {writer : DataWriterFEP2} {capacity : Option Nat} {samples : List DataSampleFEP2}

private theorem writeString_of_sample (h : writer.queue.Holds capacity samples) (hcapacity : capacity ≠ some 0)
    {sample : DataSampleFEP2} (hsample : (writer.reusedSamplePool.getFEP2Sample writer.signalHandle).2 = some sample)
    (time : Int64) (timeOfReceiving : Int) : ∃ writer' writer'' transmitted last,
      writer.writeString copier value time timeOfReceiving = some (writer',.errNoError) ∧
      writer'.flush = some (writer'',transmitted ++ [last]) ∧
      (Arrives last.data value ↔ 0 ∉ value ∧ sample.HasRoom copier value) := by
  let written : WrittenSample := ⟨invalidTimestamp,some (RawMemoryString.cdata ⟨value⟩)⟩
  rcases @write_of_holds writer capacity samples copier written h time timeOfReceiving with
    ⟨hnone,-⟩ | ⟨pool,sample',queue,hpool,hwrite,hholds,-⟩
  · cases hnone.symm.trans hsample
  · cases (congrArg Prod.snd hpool).symm.trans hsample
    obtain ⟨earlier,hkept⟩ := kept_append_singleton hcapacity samples (queuedSample copier written time sample)
    rw [hkept] at hholds
    let writer' : DataWriterFEP2 := { writer with
      reusedSamplePool := writer.queue.overwritten.elim pool pool.release
      queue := queue }
    obtain ⟨writer'',hflush,-⟩ := @flushLoop_of_holds writer' capacity _ id (fun _ => True)
      (fun _ _ _ _ _ _ => trivial) trivial hholds _ (lt_succ_of_le (le_of_eq hholds.size.symm))
    rw [map_append] at hflush
    refine ⟨writer',writer'',_,_,hwrite,hflush,?_⟩
    rw [arrives_iff]
    exact and_congr_right fun _ => DataSampleFEP2.hasRoom_iff sample

theorem carriesString_iff (h : writer.queue.Holds capacity samples) (hcapacity : capacity ≠ some 0) :
    writer.CarriesString copier value ↔ ∀ sample ∈ (writer.reusedSamplePool.getFEP2Sample writer.signalHandle).2,
        0 ∉ value ∧ sample.HasRoom copier value := by
  constructor
  · intro hcarries sample hsample
    obtain ⟨writer',writer'',transmitted,last,hwrite,hflush,harrives⟩ :=
      writeString_of_sample h hcapacity hsample 0 0
    obtain ⟨_,_,last',hflush',harrived⟩ := hcarries 0 0 writer' hwrite
    rw [hflush,Option.some.injEq,Prod.mk.injEq] at hflush'
    have hlast : last = last' := singleton_inj.mp (append_inj' hflush'.2 rfl).2
    exact harrives.mp (hlast ▸ harrived)
  · intro hroom time timeOfReceiving writer' hwrite
    rcases hsample : (writer.reusedSamplePool.getFEP2Sample writer.signalHandle).2 with _ | sample
    · -- without a sample nothing is written
      rcases write_of_holds h time timeOfReceiving with ⟨-,hrefused⟩ | ⟨_,_,_,hpool,-⟩
      · cases hrefused.symm.trans hwrite
      · cases (congrArg Prod.snd hpool).symm.trans hsample
    · obtain ⟨written,writer'',transmitted,last,hwrite',hflush,harrives⟩ :=
        writeString_of_sample h hcapacity hsample time timeOfReceiving
      cases hwrite'.symm.trans hwrite
      exact ⟨writer'',transmitted,last,hflush,harrives.mpr (hroom sample hsample)⟩

end DataWriterFEP2

namespace WriterHistory
variable {history : WriterHistory} {queueType : WriterQueueType} {samplePoolInitSize preAllocatedSize : Nat}

def Waits (capacity : Option Nat) (history : WriterHistory) : Prop :=
  ∃ samples, history.writer.queue.Holds capacity samples

theorem waits_of_reaches (h : Reaches (step (queueType.capacity samplePoolInitSize)) anyAction
    (new queueType samplePoolInitSize preAllocatedSize) history) :
    history.Waits (queueType.capacity samplePoolInitSize) := by
  refine h.invariant ⟨[],WriterQueue.holds_create ..⟩ ?_
  rintro history action history' ⟨samples,hholds⟩ - hstep
  have hflushed (onReceive : DataSampleFEP2 → DataSampleFEP2) {due : List Transmission}
      (hflush : (DataWriterFEP2.flushLoop onReceive (history.writer.queue.size + 1) history.writer).map
        (history.flushed due) = some history') :
      history'.Waits (queueType.capacity samplePoolInitSize) := by
    obtain ⟨writer',hloop,-,hempty⟩ := DataWriterFEP2.flushLoop_of_holds onReceive (fun _ => True)
      (fun _ _ _ _ _ _ => trivial) trivial hholds (lt_succ_of_le (le_of_eq hholds.size.symm))
    rw [hloop] at hflush
    cases hflush
    exact ⟨[],hempty⟩
  cases action with
  | init allocate signalHandle =>
    cases hstep
    exact ⟨samples,hholds⟩
  | deinit =>
    cases hstep
    exact ⟨[],hholds.clear.1⟩
  | write copier sampleToWrite time timeOfReceiving =>
    rw [step] at hstep
    rcases DataWriterFEP2.write_of_holds hholds time timeOfReceiving with
      ⟨-,hwrite⟩ | ⟨pool,sample,queue,-,hwrite,hholds',-⟩
    · rw [hwrite] at hstep
      cases hstep
      exact ⟨samples,hholds⟩
    · rw [hwrite] at hstep
      cases hstep
      exact ⟨_,hholds'⟩
  | flush => exact hflushed id hstep
  | flushFEP22Compatible cycleTime => exact hflushed _ hstep

private theorem capacity_ne_zero : queueType.capacity samplePoolInitSize ≠ some 0 := by
  cases queueType with
  | fixed =>
    rw [WriterQueueType.capacity,ne_eq,Option.some.injEq]
    omega
  | dynamic => exact (Option.some_ne_none 0).symm

/-- A string comes back exactly if it has no zero in it and there is room for it; a received content is read within
its size exactly if it has a zero. -/
theorem strings_round_trip (hroom : KeepsRoom copier)
    (h : Reaches (step (queueType.capacity samplePoolInitSize)) anyAction
      (new queueType samplePoolInitSize preAllocatedSize) history) (sample : DataSample) (value : List UInt8) :
    (sample.CarriesString copier value ↔ 0 ∉ value ∧ sample.HasRoom copier value) ∧
    (history.writer.CarriesString copier value ↔
      ∀ sample ∈ (history.writer.reusedSamplePool.getFEP2Sample history.writer.signalHandle).2,
        0 ∉ value ∧ sample.HasRoom copier value) ∧ ∀ data behind, ReadsWithin data behind ↔ 0 ∈ data := by
  obtain ⟨samples,hholds⟩ := waits_of_reaches h
  exact ⟨sample.carriesString_iff hroom,DataWriterFEP2.carriesString_iff hholds capacity_ne_zero,
    fun _ _ => readsWithin_iff⟩

theorem keepsRoom_copyAll : KeepsRoom copyAll := by
  intro memory source copied hcopied hle
  cases hcopied
  rw [length_append,length_drop]
  omega

/-- A string of two characters comes back from a sample that has three bytes, and from a writer. -/
theorem short_string_round_trips : ∃ history : WriterHistory,
    Reaches (step (WriterQueueType.dynamic.capacity 1)) anyAction (new .dynamic 1 0) history ∧
      (DataSample.preAllocated [7,8,9] true).CarriesString copyAll [102,101] ∧
      history.writer.CarriesString copyAll [102,101] := by
  obtain ⟨history,hreach,hsamples⟩ : ∃ history, Reaches (step (WriterQueueType.dynamic.capacity 1)) anyAction
      (new .dynamic 1 0) history ∧ ∀ sample ∈ (history.writer.reusedSamplePool.getFEP2Sample
      history.writer.signalHandle).2, (0 : UInt8) ∉ [102,101] ∧ sample.limit 3 = 3 :=
    exists_of_runActions [.init zeros 7] (by decide +kernel)
  have hboth := strings_round_trip keepsRoom_copyAll hreach (.preAllocated [7,8,9] true) [102,101]
  have hroom : (DataSample.preAllocated [7,8,9] true).HasRoom copyAll [102,101] := by
    rw [DataSample.HasRoom]
    decide
  refine ⟨history,hreach,hboth.1.mpr ⟨by decide,hroom⟩,hboth.2.1.mpr fun sample hsample => ?_⟩
  obtain ⟨hzero,hlimit⟩ := hsamples sample hsample
  exact ⟨hzero,hlimit⟩

/-- A string that has a zero in it does not come back, and a content without a zero is read beyond its end. -/
theorem zeros_end_strings : ¬DataSample.new.CarriesString copyAll [102,0,101] ∧ ¬ReadsWithin [102] [101,0] := by
  rw [DataSample.carriesString_iff keepsRoom_copyAll,readsWithin_iff]
  exact ⟨fun h => h.1 (by decide),by decide⟩

end WriterHistory
end FepParticipant.DataRegistry
