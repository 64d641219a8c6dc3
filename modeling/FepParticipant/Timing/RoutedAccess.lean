import FepParticipant.Timing.StepRouting

/-! What the data accesses of a step do with the readers and writers that its registration has made. -/
namespace FepParticipant.Timing
open DataRegistry Library Signals List Option HandledWriter JobToStepTrigger

variable {β : Type}

/-- What happens to a job: a reader receives a sample, or a step is executed. -/
inductive JobAction where
  | receive (name : String) (sample : StepSample)
  | step (timeOfExecution clockTime : Int) (samples : List StepSample)

namespace JobToStepTrigger

def apply (job : JobToStepTrigger β) : JobAction → JobToStepTrigger β
  | .receive name sample => job.receive name sample
  | .step timeOfExecution clockTime samples => (job.process timeOfExecution clockTime samples).1.executeDataOut.1

/-- The job at any time later. -/
def run (job : JobToStepTrigger β) (actions : List JobAction) : JobToStepTrigger β := actions.foldl apply job

section properties
variable (job : JobToStepTrigger β) (handle : Nat)

def ReadsFrom (name : String) (size : Int) : Prop := ∀ actions, ∃ reader ∈ (job.run actions).readers,
  reader.name = name ∧ reader.backlog.capacity = size ∧ ∀ sample upperBound,
    (job.run actions).copyRecentData handle sample = reader.recent sample ∧
    (job.run actions).copyDataBefore handle upperBound sample = reader.before upperBound sample

def NotFound : Prop := ∀ actions sample upperBound,
  (job.run actions).copyRecentData handle sample = (sample,.errNotFound) ∧
  (job.run actions).copyDataBefore handle upperBound sample = some (sample,.errNotFound)

/-- The samples of a step with the handle are not transmitted at once, but published under the name at its end, in
their order and with the time of the job. -/
def PublishedAtEnd (name : String) : Prop := ∀ actions timeOfExecution clockTime samples,
  let step := (job.run actions).process timeOfExecution clockTime samples
  (∀ sample ∈ step.2, sample.signalHandle ≠ handle) ∧
  step.1.executeDataOut.2.filter (fun published => published.1 == name) =
    (samples.filter fun sample => sample.signalHandle == handle).map fun sample =>
      (name,job.flushed (sample.setTime (jobTime timeOfExecution clockTime)))

def TransmittedAtOnce : Prop := ∀ actions timeOfExecution clockTime samples,
  ((job.run actions).process timeOfExecution clockTime samples).2.filter (fun sample => sample.signalHandle == handle) =
    (samples.filter fun sample => sample.signalHandle == handle).map fun sample =>
      sample.setTime (jobTime timeOfExecution clockTime)

end properties

/-- The names, handles and capacities of the readers, and the names and handles of the writers. -/
def routing (job : JobToStepTrigger β) : List (Nat × String × Nat) × List (Nat × String) :=
  (job.readers.map fun reader => (reader.signalHandle,reader.name,reader.backlog.capacity),
    job.writers.map fun writer => (writer.signalHandle,writer.name))

/-- The job still has the readers and writers of another one, and nothing waits. -/
structure Later (job job' : JobToStepTrigger β) : Prop where
  routing : job'.routing = job.routing
  idle : ∀ writer ∈ job'.writers, writer.queue = []
  compatibility : job'.fep22Compatibility = job.fep22Compatibility
  cycle : job'.cycleSimTimeUs = job.cycleSimTimeUs

variable {job job' : JobToStepTrigger β} {handle : Nat}

theorem transmitEach_eq (samples : List StepSample) : job.transmitEach samples =
      ({job with writers := job.writers.map (·.took (samples.map (·.setTime job.currentJobTime)))},
        (samples.map (·.setTime job.currentJobTime)).filter fun sample =>
          (job.findWriter sample.signalHandle).isNone) := by
  induction samples generalizing job with
  | nil =>
    have hwriters : job.writers.map (·.took []) = job.writers := by
      simp [HandledWriter.took]
    rw [transmitEach,map_nil,hwriters]
    rfl
  | cons sample samples ih =>
    rw [transmitEach,transmitData]
    by_cases hfound : (job.findWriter (sample.setTime job.currentJobTime).signalHandle).isSome
    · rw [if_pos hfound]
      have hsame (handle : Nat) : (findWriter { job with
          writers := job.writers.map fun writer => writer.write (sample.setTime job.currentJobTime) } handle).isNone =
            (job.findWriter handle).isNone := by
        rw [findWriter,findWriter,find?_map,isNone_map]
        simp only [Function.comp_def,signalHandle_write]
      simp only [ih,hsame,List.map_map,map_cons,nil_append]
      rw [filter_cons_of_neg fun hnone => by simp [isNone_iff_eq_none.mp hnone] at hfound]
      simp only [Function.comp_def,took_write]
    · rw [if_neg hfound]
      simp only [ih,map_cons,singleton_append]
      rw [filter_cons_of_pos (by simpa using hfound)]
      congr 2
      refine map_congr_left fun writer hwriter => ?_
      rw [← took_write,HandledWriter.write,if_neg]
      rintro hhandle
      exact hfound (find?_isSome.mpr ⟨writer,hwriter,beq_iff_eq.mpr hhandle⟩)

theorem Later.refl (hidle : ∀ writer ∈ job.writers, writer.queue = []) : Later job job := ⟨rfl,hidle,rfl,rfl⟩

section
variable (h : Later job job')
include h

private theorem Later.apply (action : JobAction) : Later job (job'.apply action) := by
  cases action with
  | receive name sample =>
    refine ⟨?_,h.idle,h.compatibility,h.cycle⟩
    rw [← h.routing,JobToStepTrigger.apply,receive,JobToStepTrigger.routing,JobToStepTrigger.routing,List.map_map]
    congr 1
    refine map_congr_left fun reader _ => ?_
    rw [Function.comp_apply]
    split
    · rw [DataReaderBacklog.capacity_onReceive]
    · rfl
  | step timeOfExecution clockTime samples =>
    rw [JobToStepTrigger.apply,process,transmitEach_eq,executeDataOut]
    refine ⟨?_,?_,h.compatibility,h.cycle⟩
    · rw [← h.routing,JobToStepTrigger.routing,JobToStepTrigger.routing,List.map_map,List.map_map]
      rfl
    · intro writer hwriter
      obtain ⟨_,-,rfl⟩ := mem_map.mp hwriter
      rfl

theorem Later.run (actions : List JobAction) : Later job (job'.run actions) := by
  induction actions generalizing job' with
  | nil => exact h
  | cons action actions ih => exact ih (h.apply action)

theorem Later.findReader (handle : Nat) :
    ((job'.findReader handle).map fun reader => (reader.name,reader.backlog.capacity)) =
      (job.findReader handle).map fun reader => (reader.name,reader.backlog.capacity) := by
  have hfind (job : JobToStepTrigger β) :
      ((job.findReader handle).map fun reader => (reader.name,reader.backlog.capacity)) =
        (job.routing.1.find? fun entry => entry.1 == handle).map Prod.snd := by
    rw [JobToStepTrigger.routing,find?_map,Option.map_map]
    rfl
  rw [hfind,hfind,h.routing]

theorem Later.findWriter (handle : Nat) : (job'.findWriter handle).isNone = (job.findWriter handle).isNone := by
  have hfind (job : JobToStepTrigger β) :
      (job.findWriter handle).isNone = (job.routing.2.find? fun entry => entry.1 == handle).isNone := by
    rw [JobToStepTrigger.routing,find?_map,isNone_map]
    rfl
  rw [hfind,hfind,h.routing]

end

section
variable (hidle : ∀ writer ∈ job.writers, writer.queue = [])
include hidle

theorem notFound_iff : job.NotFound handle ↔ job.findReader handle = none := by
  constructor
  · intro h
    obtain ⟨hrecent,-⟩ := h [] ⟨0,0,[]⟩ 0
    rcases hfind : job.findReader handle with _ | reader
    · rfl
    · have hres := congrArg Prod.snd hrecent
      rw [run,foldl_nil,copyRecentData,hfind] at hres
      dsimp only at hres
      rw [HandledReader.recent] at hres
      split at hres <;> cases hres
  · intro h actions sample upperBound
    have hlater := ((Later.refl hidle).run actions).findReader handle
    rw [h,map_none,map_eq_none_iff] at hlater
    rw [copyRecentData,copyDataBefore,hlater]
    exact ⟨rfl,rfl⟩

theorem readsFrom_of_findReader {reader : HandledReader β}
    (h : job.findReader handle = some reader) : job.ReadsFrom handle reader.name reader.backlog.capacity := by
  intro actions
  have hlater := ((Later.refl hidle).run actions).findReader handle
  rw [h,map_some,map_eq_some_iff] at hlater
  obtain ⟨reader',hreader',hsame⟩ := hlater
  rw [Prod.mk.injEq] at hsame
  refine ⟨reader',mem_of_find?_eq_some hreader',hsame.1,congrArg Nat.cast hsame.2,fun sample upperBound => ?_⟩
  rw [copyRecentData,copyDataBefore,hreader']
  exact ⟨rfl,rfl⟩

theorem process_snd (actions : List JobAction) (timeOfExecution clockTime : Int) (samples : List StepSample) :
    ((job.run actions).process timeOfExecution clockTime samples).2 =
      (samples.map (·.setTime (jobTime timeOfExecution clockTime))).filter fun sample =>
        (job.findWriter sample.signalHandle).isNone := by
  rw [process,transmitEach_eq]
  refine filter_congr fun sample _ => ?_
  exact ((Later.refl hidle).run actions).findWriter sample.signalHandle

end

theorem filter_map_setTime (samples : List StepSample) (time : Int) :
    (samples.map (·.setTime time)).filter (fun sample => sample.signalHandle == handle) =
      (samples.filter fun sample => sample.signalHandle == handle).map (·.setTime time) := by
  rw [List.filter_map]
  rfl

theorem transmittedAtOnce_iff (hidle : ∀ writer ∈ job.writers, writer.queue = []) :
    job.TransmittedAtOnce handle ↔ job.findWriter handle = none := by
  constructor
  · intro h
    have hsent := h [] 0 0 [⟨handle,0,[]⟩]
    rw [process_snd hidle] at hsent
    rcases hfind : job.findWriter handle with _ | writer
    · rfl
    · -- the sample of the handle would be sent
      exfalso
      have hnone :
          (job.findWriter ((⟨handle,0,[]⟩ : StepSample).setTime (jobTime 0 0)).signalHandle).isNone = false := by
        rw [StepSample.setTime,hfind]
        rfl
      rw [map_singleton,filter_singleton,hnone] at hsent
      simp at hsent
  · intro h actions timeOfExecution clockTime samples
    rw [process_snd hidle,List.filter_filter,← filter_map_setTime]
    refine filter_congr fun sample _ => ?_
    cases hhandle : sample.signalHandle == handle with
    | false => rfl
    | true => rw [eq_of_beq hhandle,h]; rfl

theorem flatMap_of_unique {ε δ : Type} {items : List ε} {item : ε} {f : ε → List δ} (hnodup : items.Nodup)
    (hmem : item ∈ items) (hrest : ∀ other ∈ items, other ≠ item → f other = []) : items.flatMap f = f item := by
  induction items with
  | nil => exact absurd hmem not_mem_nil
  | cons first items ih =>
    obtain ⟨hfirst,hnodup⟩ := nodup_cons.mp hnodup
    obtain ⟨hrestFirst,hothers⟩ := forall_mem_cons.mp hrest
    rw [flatMap_cons]
    rcases mem_cons.mp hmem with rfl | hlater
    · have hnothing : items.flatMap f = [] :=
        flatMap_eq_nil_iff.mpr fun other hother => hothers other hother fun heq => hfirst (heq ▸ hother)
      rw [hnothing,append_nil]
    · rw [hrestFirst fun heq => hfirst (heq ▸ hlater),ih hnodup hlater hothers,nil_append]

theorem published_eq (hidle : ∀ writer ∈ job.writers, writer.queue = []) (actions : List JobAction)
    (timeOfExecution clockTime : Int) (samples : List StepSample) (name : String) :
    ((job.run actions).process timeOfExecution clockTime samples).1.executeDataOut.2.filter
        (fun published => published.1 == name) =
      job.routing.2.flatMap fun entry => if entry.2 = name then
        (samples.filter fun sample => sample.signalHandle == entry.1).map fun sample =>
          (name,job.flushed (sample.setTime (jobTime timeOfExecution clockTime))) else [] := by
  have hlater := (Later.refl hidle).run actions
  rw [process,transmitEach_eq,executeDataOut,filter_flatMap,flatMap_map,← hlater.routing]
  rw [JobToStepTrigger.routing,flatMap_map]
  have hflushed (writers : List HandledWriter) (time : Int) (sample : StepSample) :
      flushed {job.run actions with writers := writers, currentJobTime := time} sample = job.flushed sample := by
    rw [flushed,flushed,← hlater.compatibility,← hlater.cycle]
  refine flatMap_congr fun writer hwriter => ?_
  simp only [hflushed,HandledWriter.took,hlater.idle writer hwriter,nil_append,filter_map_setTime,List.map_map]
  by_cases hname : writer.name = name
  · rw [if_pos hname,hname]
    exact filter_eq_self.mpr fun published hpublished => by
      obtain ⟨_,-,rfl⟩ := mem_map.mp hpublished
      exact beq_self_eq_true name
  · rw [if_neg hname,filter_eq_nil_iff]
    rintro published hpublished heq
    obtain ⟨_,-,rfl⟩ := mem_map.mp hpublished
    exact hname (eq_of_beq heq)

theorem publishedAtEnd_of_mem (hidle : ∀ writer ∈ job.writers, writer.queue = [])
    (honce : (job.writers.map (·.signalHandle)).Nodup) {name : String}
    (hname : ∀ writer ∈ job.writers, writer.name = name ↔ writer.signalHandle = handle)
    (hwriter : ∃ writer ∈ job.writers, writer.signalHandle = handle) : job.PublishedAtEnd handle name := by
  obtain ⟨writer,hmem,hhandle⟩ := hwriter
  intro actions timeOfExecution clockTime samples
  refine ⟨fun sample hsample heq => ?_,?_⟩
  · rw [process_snd hidle,mem_filter,isNone_iff_eq_none,JobToStepTrigger.findWriter,find?_eq_none] at hsample
    exact hsample.2 writer hmem (beq_iff_eq.mpr (hhandle.trans heq.symm))
  · rw [published_eq hidle]
    have hentry : (handle,name) ∈ job.routing.2 :=
      mem_map.mpr ⟨writer,hmem,Prod.ext hhandle ((hname writer hmem).mpr hhandle)⟩
    have hnodup : job.routing.2.Nodup := List.Nodup.of_map Prod.fst (by
      rw [JobToStepTrigger.routing,List.map_map]
      exact honce)
    rw [flatMap_of_unique hnodup hentry,if_pos rfl]
    rintro ⟨handle',name'⟩ hother hne
    obtain ⟨writer',hmem',heq⟩ := mem_map.mp hother
    cases heq
    rw [if_neg]
    rintro rfl
    exact hne (Prod.ext ((hname writer' hmem').mp rfl) rfl)

end JobToStepTrigger

namespace TimingInterfaceLegacy
variable {registry : SignalRegistry} {getTypeForSignal : Nat → β} {interface interface' : TimingInterfaceLegacy β}
  {name : String} {config : StepConfig} {maxSize : Nat} {addToComponents : Result}

section routes
variable (registry interface name config) (job : JobToStepTrigger β)

/-- The data accesses of a job do what its step configurations tell. -/
structure Routes : Prop where
  inputs : ∀ input ∈ interface.stepInputs name config, ∀ handle ∈ registry.getSignalHandleFromName input .sdInput,
    job.ReadsFrom handle input (interface.backlogSize input)
  outputs : ∀ output ∈ interface.stepOutputs name config,
    ∀ handle ∈ registry.getSignalHandleFromName output .sdOutput, job.PublishedAtEnd handle output
  otherReads : ∀ handle, (∀ input ∈ interface.stepInputs name config,
    registry.getSignalHandleFromName input .sdInput ≠ some handle) → job.NotFound handle
  otherWrites : ∀ handle, (∀ output ∈ interface.stepOutputs name config,
    registry.getSignalHandleFromName output .sdOutput ≠ some handle) → job.TransmittedAtOnce handle

/-- The inputs of a step are registered as inputs, its outputs not, and backlog sizes are positive and of its inputs
only. -/
structure Routable : Prop where
  inputs : ∀ input ∈ interface.stepInputs name config,
    (registry.getSignalHandleFromName input .sdInput).isSome = true
  outputs : ∀ output ∈ interface.stepOutputs name config, registry.getSignalHandleFromName output .sdInput = none
  configured : ∀ input ∈ interface.inputConfigs, input.1 ∈ interface.stepInputs name config ∧ 0 < input.2.backLogSize

end routes

namespace Named
variable {job : JobToStepTrigger β} {input : String} {handle : Nat}

section
variable (h : Named registry interface name config job)
include h

theorem findReader {capacity : Nat}
    (hcapacity : job.capacityOf input = some capacity) (hhandle : getHandleForSignal registry input = some handle) :
    ∃ reader, job.findReader handle = some reader ∧ reader.name = input ∧ reader.backlog.capacity = capacity := by
  rw [h.built.findReader hhandle]
  obtain ⟨reader,hreader,hsame⟩ := map_eq_some_iff.mp hcapacity
  have hname : (reader.name == input) = true :=
    find?_some (p := fun reader : HandledReader β => reader.name == input) hreader
  exact ⟨reader,hreader,eq_of_beq hname,hsame⟩

theorem mem_of_findReader {reader : HandledReader β} (hreader : job.findReader handle = some reader) :
    getHandleForSignal registry reader.name = some handle ∧
      (reader.name ∈ interface.stepInputs name config ∨ reader.name ∈ interface.inputConfigs.map Prod.fst) := by
  obtain ⟨hmem,hfound⟩ := of_findReader hreader
  refine ⟨(h.built.readers reader hmem).trans (congrArg some hfound),?_⟩
  have hsome : (job.capacityOf reader.name).isSome = true := by
    rw [JobToStepTrigger.capacityOf,isSome_map]
    exact find?_isSome.mpr ⟨reader,hmem,beq_self_eq_true reader.name⟩
  rw [h.capacity] at hsome
  rcases hlookup : interface.inputConfigs.lookup reader.name with _ | input
  · rw [hlookup] at hsome
    by_cases hstep : reader.name ∈ interface.stepInputs name config
    · exact .inl hstep
    · simp [hstep] at hsome
  · right
    obtain ⟨entry,hentry,heq⟩ := lookup_isSome_iff.mp (isSome_iff_exists.mpr ⟨input,hlookup⟩)
    exact mem_map.mpr ⟨entry,hentry,(eq_of_beq heq).symm⟩

section
variable (hinput : input ∈ interface.stepInputs name config ∨ input ∈ interface.inputConfigs.map Prod.fst)
include hinput

theorem capacity_of_mem : ∃ capacity, job.capacityOf input = some capacity ∧ 0 < capacity := by
  rw [h.capacity]
  rcases hlookup : interface.inputConfigs.lookup input with _ | globalConfig
  · have hstep : input ∈ interface.stepInputs name config := by
      refine hinput.resolve_right fun hmem => ?_
      obtain ⟨entry,hentry,rfl⟩ := mem_map.mp hmem
      have hdiffer := lookup_eq_none_iff.mp hlookup entry hentry
      rw [bne_self_eq_false] at hdiffer
      cases hdiffer
    exact ⟨1,if_pos hstep,Nat.one_pos⟩
  · refine ⟨_,rfl,?_⟩
    rw [roomFor]
    split <;> omega

private theorem getHandleForSignal_of_mem : ∃ handle, getHandleForSignal registry input = some handle := by
  rcases hinput with hstep | hconfigured
  · exact isSome_iff_exists.mp (h.inputs input hstep)
  · obtain ⟨entry,hentry,rfl⟩ := mem_map.mp hconfigured
    exact isSome_iff_exists.mp (h.configured entry hentry)

end

/-- If no other handle has a reader, each reader is that of an input of the step, which is registered as an input. -/
theorem input_of_otherReads (hother : ∀ handle, (∀ input ∈ interface.stepInputs name config,
      registry.getSignalHandleFromName input .sdInput ≠ some handle) → job.NotFound handle)
    (hinput : input ∈ interface.stepInputs name config ∨ input ∈ interface.inputConfigs.map Prod.fst) :
    input ∈ interface.stepInputs name config ∧ ∃ handle,
      registry.getSignalHandleFromName input .sdInput = some handle := by
  obtain ⟨handle,hhandle⟩ := h.getHandleForSignal_of_mem hinput
  obtain ⟨capacity,hcapacity,-⟩ := h.capacity_of_mem hinput
  obtain ⟨reader,hreader,-⟩ := h.findReader hcapacity hhandle
  by_contra hnot
  have hnone : job.NotFound handle := by
    refine hother handle fun other hstep hsame => hnot ?_
    have heq : input = other := eq_of_getHandleForSignal hhandle (getHandleForSignal_eq_some_iff.mpr (.inl hsame))
    exact heq ▸ ⟨hstep,handle,hsame⟩
  rw [notFound_iff h.built.idle,hreader] at hnone
  cases hnone

private theorem reader_of_handle {capacity : Nat}
    (hcapacity : job.capacityOf input = some capacity) (hhandle : getHandleForSignal registry input = some handle)
    {reader : HandledReader β} (hreader : reader ∈ job.readers) (hname : reader.name = input) :
    reader.backlog.capacity = capacity := by
  obtain ⟨found,hfound,-,hsize⟩ := h.findReader hcapacity hhandle
  obtain ⟨hmem,hfoundHandle⟩ := of_findReader hfound
  have hown := h.built.readers reader hreader
  rw [hname,hhandle] at hown
  have hsame : reader = found := inj_on_of_nodup_map h.built.readersOnce hreader hmem
    ((some.inj hown).symm.trans hfoundHandle.symm)
  rw [hsame,hsize]

theorem routable_of_routes
    (hnodup : (interface.inputConfigs.map Prod.fst).Nodup) (hroutes : Routes registry interface name config job) :
    Routable registry interface name config := by
  refine ⟨fun input hinput => ?_,fun output houtput => ?_,fun input hinput => ?_⟩
  · exact isSome_iff_exists.mpr (h.input_of_otherReads hroutes.otherReads (.inl hinput)).2
  · rcases hsome : registry.getSignalHandleFromName output .sdInput with _ | handle
    · rfl
    · -- the writer has the handle of the input
      exfalso
      have hhandle := getHandleForSignal_eq_some_iff.mpr (.inl hsome)
      have hwriter := (h.built.findWriter hhandle).mpr ((h.writes output).mpr houtput)
      have honce : job.TransmittedAtOnce handle := by
        refine hroutes.otherWrites handle fun other _ hsame => ?_
        cases (eq_of_getSignalHandleFromName hsome hsame).2
      rw [transmittedAtOnce_iff h.built.idle] at honce
      rw [honce] at hwriter
      cases hwriter
  · obtain ⟨hstep,handle,hhandle⟩ := h.input_of_otherReads hroutes.otherReads (.inr (mem_map_of_mem hinput))
    refine ⟨hstep,?_⟩
    -- the capacity of the reader is the configured size, and never zero
    obtain ⟨reader,hreader,hname,hcapacity,-⟩ := hroutes.inputs _ hstep handle hhandle []
    obtain ⟨capacity,hcapacityOf,hpositive⟩ := h.capacity_of_mem (.inl hstep)
    have hsize := h.reader_of_handle hcapacityOf (getHandleForSignal_eq_some_iff.mpr (.inl hhandle)) hreader hname
    have hconfigured : interface.backlogSize input.1 = input.2.backLogSize := by
      rw [backlogSize,(OrderedMap.lookup_eq_some_iff_mem hnodup).mpr hinput]
      rfl
    rw [← hconfigured,← hcapacity,hsize]
    exact_mod_cast hpositive

private theorem capacity_of_routable
    (hroutable : Routable registry interface name config) (hinput : input ∈ interface.stepInputs name config) :
    ∃ capacity : Nat, job.capacityOf input = some capacity ∧ (capacity : Int) = interface.backlogSize input := by
  rw [h.capacity,backlogSize]
  rcases hlookup : interface.inputConfigs.lookup input with _ | globalConfig
  · exact ⟨1,if_pos hinput,rfl⟩
  · obtain ⟨before,after,hsplit,-⟩ := lookup_eq_some_iff.mp hlookup
    have hmem : (input,globalConfig) ∈ interface.inputConfigs := hsplit ▸ mem_append_right _ mem_cons_self
    have hpositive := (hroutable.configured _ hmem).2
    refine ⟨_,rfl,?_⟩
    rw [roomFor,toSize,map_some,getD_some]
    dsimp only at hpositive
    split <;> split <;> omega

theorem routes_of_routable
    (hroutable : Routable registry interface name config) : Routes registry interface name config job where
  inputs input hinput handle hsome := by
    have hhandle := getHandleForSignal_eq_some_iff.mpr (.inl hsome)
    obtain ⟨capacity,hcapacity,heq⟩ := h.capacity_of_routable hroutable hinput
    obtain ⟨reader,hreader,rfl,rfl⟩ := h.findReader hcapacity hhandle
    rw [← heq]
    exact readsFrom_of_findReader h.built.idle hreader
  outputs output houtput handle hsome := by
    have hhandle := getHandleForSignal_eq_some_iff.mpr (.inr ⟨hroutable.outputs output houtput,hsome⟩)
    have hown {writer : HandledWriter} (hwriter : writer ∈ job.writers) :
        writer.name = output ↔ writer.signalHandle = handle := by
      have hresolved := h.built.writers writer hwriter
      constructor
      · intro hname
        rw [hname] at hresolved
        exact some.inj (hresolved.symm.trans hhandle)
      · intro hsame
        rw [hsame] at hresolved
        exact eq_of_getHandleForSignal hresolved hhandle
    obtain ⟨writer,hwriter,hname⟩ := (h.writes output).mpr houtput
    exact publishedAtEnd_of_mem h.built.idle h.built.once (fun _ => hown)
      ⟨writer,hwriter,(hown hwriter).mp hname⟩
  otherReads handle hother := by
    rw [notFound_iff h.built.idle]
    rcases hfound : job.findReader handle with _ | reader
    · rfl
    · exfalso
      obtain ⟨hhandle,hnamed⟩ := h.mem_of_findReader hfound
      have hstep : reader.name ∈ interface.stepInputs name config := by
        refine hnamed.elim id fun hconfigured => ?_
        obtain ⟨entry,hentry,heq⟩ := mem_map.mp hconfigured
        exact heq ▸ (hroutable.configured entry hentry).1
      obtain ⟨input,hinput⟩ := isSome_iff_exists.mp (hroutable.inputs reader.name hstep)
      have hsame := (getHandleForSignal_eq_some_iff.mpr (.inl hinput)).symm.trans hhandle
      exact hother reader.name hstep (hinput.trans hsame)
  otherWrites handle hother := by
    rw [transmittedAtOnce_iff h.built.idle]
    rcases hfound : job.findWriter handle with _ | writer
    · rfl
    · exfalso
      obtain ⟨hmem,hfoundHandle⟩ := of_findWriter hfound
      have houtput := (h.writes writer.name).mp ⟨writer,hmem,rfl⟩
      have hresolved := (h.built.writers writer hmem).trans (congrArg some hfoundHandle)
      rcases getHandleForSignal_eq_some_iff.mp hresolved with hinput | ⟨-,hsome⟩
      · rw [hroutable.outputs _ houtput] at hinput
        cases hinput
      · exact hother writer.name houtput hsome

end

end Named

/-- The data accesses of a step that was registered do what its configurations tell exactly if it is routable. -/
theorem registered_step_routes_iff (hnodup : (interface.inputConfigs.map Prod.fst).Nodup)
    (h : registerStepListener maxSize registry getTypeForSignal interface name config addToComponents =
      some (interface',.errNoError)) :
    ∃ job, interface'.stepTrigger = OrderedMap.assign (name,job) interface.stepTrigger ∧
      (Routes registry interface name config job ↔ Routable registry interface name config) := by
  obtain ⟨job,hjob,hnamed⟩ := named_of_registerStepListener hnodup h
  exact ⟨job,hjob,hnamed.routable_of_routes hnodup,hnamed.routes_of_routable⟩

/-- A registry with two signals, and a step that has the one as input and the other as output. -/
def cameraRegistry : SignalRegistry where
  bAllowRegistration := true
  signals := [⟨1,"image",.sdInput,.other⟩,⟨2,"objects",.sdOutput,.other⟩]
  listeners := []
  nodup := by decide

def cameraStep : StepConfig :=
  ⟨10,0,0,.ignoreRuntimeViolation,[("image",⟨1,0,0,.ignoreInputValidityViolation⟩)],[("objects",⟨2⟩)]⟩

def cameraInterface : TimingInterfaceLegacy Unit :=
  ⟨"camera",⟨⟨"","","",""⟩,[("camera",⟨10,[],[("image",⟨5⟩)]⟩)]⟩,true,[]⟩

/-- A step with an input that has a backlog of five samples, and with an output. -/
theorem camera_step_routes : ∃ interface' job,
    registerStepListener 100 cameraRegistry (fun _ => ()) cameraInterface "detect" cameraStep .errNoError =
      some (interface',.errNoError) ∧
    interface'.stepTrigger = [("detect",job)] ∧ Routes cameraRegistry cameraInterface "detect" cameraStep job := by
  have hnodup : (cameraInterface.inputConfigs.map Prod.fst).Nodup := by decide
  obtain ⟨job,hjob,hroutes⟩ := registered_step_routes_iff hnodup
    (rfl : registerStepListener 100 cameraRegistry (fun _ => ()) cameraInterface "detect" cameraStep .errNoError = _)
  exact ⟨_,job,rfl,hjob,hroutes.mpr ⟨by decide,by decide,by decide⟩⟩

def echoRegistry : SignalRegistry where
  bAllowRegistration := true
  signals := [⟨1,"echo",.sdInput,.other⟩,⟨2,"echo",.sdOutput,.other⟩]
  listeners := []
  nodup := by decide

def echoStep : StepConfig := ⟨10,0,0,.ignoreRuntimeViolation,[],[("echo",⟨2⟩)]⟩

/-- The samples of an output are transmitted at once if there is an input of its name. -/
theorem echo_transmitted_at_once : ∃ interface' job,
    registerStepListener 100 echoRegistry (fun _ => ()) ⟨"echo",⟨⟨"","","",""⟩,[]⟩,false,[]⟩ "reply" echoStep
      .errNoError = some (interface',.errNoError) ∧ interface'.stepTrigger = [("reply",job)] ∧
    ¬Routes echoRegistry ⟨"echo",⟨⟨"","","",""⟩,[]⟩,false,[]⟩ "reply" echoStep job := by
  refine ⟨_,_,rfl,rfl,fun hroutes => ?_⟩
  have hpublished := hroutes.outputs "echo" (by decide) 2 (by decide)
  exact (hpublished [] 5 5 [⟨2,0,[]⟩]).1 ⟨2,5,[]⟩ (by decide) rfl

end TimingInterfaceLegacy

end FepParticipant.Timing
