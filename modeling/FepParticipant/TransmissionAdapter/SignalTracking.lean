import FepParticipant.TransmissionAdapter.TransitionStages

/-! What holds of the signals, the jobs and the workers while a transition is on its way: a loop that is still ahead
reaches every signal that it has to. -/
namespace FepParticipant.TransmissionAdapter
open StateMachine List

def EnablesReceiver (program : List Instruction) (handle : Nat) : Prop :=
  .enableReceivers ∈ program ∨ .enableReceiver handle ∈ program

def DisablesReceiver (program : List Instruction) (handle : Nat) : Prop :=
  .disableReceivers ∈ program ∨ .disableReceiver handle ∈ program

def EnablesTransmitter (program : List Instruction) (handle : Nat) : Prop :=
  .enableTransmitters ∈ program ∨ .enableTransmitter handle ∈ program

def DisablesTransmitter (program : List Instruction) (handle : Nat) : Prop :=
  .disableTransmitters ∈ program ∨ .disableTransmitter handle ∈ program

/-- A receiver that is disabled, has no callback running, and is empty or about to be emptied. -/
def Quiet (program : List Instruction) (deliveries : List (Nat × Bool)) (receiver : DataReceiver) : Prop :=
  receiver.bEnabled = false ∧ receiver.handle ∉ deliveries.map Prod.fst ∧
    (.flushQueue receiver.handle ∈ program ∨ receiver.nQueued = 0)

/-- Receivers are enabled while the adapter is, and quiet while it is not, unless a loop will see to it. -/
structure ReceiversTracked (bGlobalDisabled : Bool) (program : List Instruction) (receivers : List DataReceiver)
    (deliveries : List (Nat × Bool)) : Prop where
  enabled : bGlobalDisabled = false → .disable ∉ program →
    ∀ receiver ∈ receivers, receiver.bEnabled = true ∨ EnablesReceiver program receiver.handle
  disabled : bGlobalDisabled = true →
    ∀ receiver ∈ receivers, Quiet program deliveries receiver ∨ DisablesReceiver program receiver.handle

structure TransmittersTracked (bGlobalDisabled : Bool) (program : List Instruction)
    (transmitters : List DataTransmitter) : Prop where
  enabled : bGlobalDisabled = false → .disable ∉ program →
    ∀ transmitter ∈ transmitters, transmitter.bEnabled = true ∨ EnablesTransmitter program transmitter.handle
  disabled : bGlobalDisabled = true →
    ∀ transmitter ∈ transmitters, transmitter.bEnabled = false ∨ DisablesTransmitter program transmitter.handle

structure JobsTracked (bGlobalDisabled : Bool) (program : List Instruction) (bJobQueueActive : Bool)
    (jobs : List Nat) : Prop where
  active : bJobQueueActive = true → bGlobalDisabled = false ∨ .stopJobQueue ∈ program
  inactive : bJobQueueActive = false → jobs = [] ∨ .clearJobQueue ∈ program

def Worker.job : Worker → Option Nat
  | .taken handle | .working handle => some handle
  | .looping | .dequeuing => none

namespace AdapterSystem
variable (system : AdapterSystem)

def Registered (handle : Nat) : Prop := handle ∈ system.vecDataReceiver.map DataReceiver.handle

/-- A job or a callback is of a receiver. -/
def Referenced (handle : Nat) : Prop :=
  handle ∈ system.qJobQueue ∨ some handle ∈ system.vecWorkerThreads.map Worker.job ∨
    handle ∈ system.deliveries.map Prod.fst

/-- Jobs and callbacks are those of receivers that are registered, and new handles are new. -/
structure ReferencesRegistered : Prop where
  registered : ∀ handle, system.Referenced handle → system.Registered handle
  bound : ∀ handle, system.Registered handle → handle < system.nextHandle

structure Tracked : Prop where
  stage : Stage system.state system.bGlobalDisabled system.bAllowRegistration system.program
  receivers : ReceiversTracked system.bGlobalDisabled system.program system.vecDataReceiver system.deliveries
  transmitters : TransmittersTracked system.bGlobalDisabled system.program system.vecDataTransmitter
  jobs : JobsTracked system.bGlobalDisabled system.program system.bJobQueueActive system.qJobQueue
  references : system.ReferencesRegistered

end AdapterSystem

section programs
variable {bGlobalDisabled bJobQueueActive : Bool} {program more : List Instruction} {instruction : Instruction}
  {receivers : List DataReceiver} {transmitters : List DataTransmitter} {deliveries : List (Nat × Bool)}
  {jobs : List Nat}

theorem ReceiversTracked.append (h : ReceiversTracked bGlobalDisabled program receivers deliveries) :
    ReceiversTracked bGlobalDisabled (more ++ program) receivers deliveries where
  enabled hflag hdisable receiver hmem :=
    (h.enabled hflag (fun hahead => hdisable (mem_append_right _ hahead)) receiver hmem).imp_right
      (.imp (mem_append_right _) (mem_append_right _))
  disabled hflag receiver hmem :=
    (h.disabled hflag receiver hmem).imp (fun hquiet => ⟨hquiet.1,hquiet.2.1,hquiet.2.2.imp_left (mem_append_right _)⟩)
      (.imp (mem_append_right _) (mem_append_right _))

theorem TransmittersTracked.append (h : TransmittersTracked bGlobalDisabled program transmitters) :
    TransmittersTracked bGlobalDisabled (more ++ program) transmitters where
  enabled hflag hdisable transmitter hmem :=
    (h.enabled hflag (fun hahead => hdisable (mem_append_right _ hahead)) transmitter hmem).imp_right
      (.imp (mem_append_right _) (mem_append_right _))
  disabled hflag transmitter hmem :=
    (h.disabled hflag transmitter hmem).imp_right (.imp (mem_append_right _) (mem_append_right _))

theorem JobsTracked.append (h : JobsTracked bGlobalDisabled program bJobQueueActive jobs) :
    JobsTracked bGlobalDisabled (more ++ program) bJobQueueActive jobs :=
  ⟨fun hactive => (h.active hactive).imp_right (mem_append_right _),
    fun hactive => (h.inactive hactive).imp_right (mem_append_right _)⟩

def Instruction.concernsReceivers : Instruction → Bool
  | .disable | .enableReceivers | .enableReceiver _ | .disableReceivers | .disableReceiver _ | .flushQueue _ => true
  | _ => false

def Instruction.concernsTransmitters : Instruction → Bool
  | .disable | .enableTransmitters | .enableTransmitter _ | .disableTransmitters | .disableTransmitter _ => true
  | _ => false

def Instruction.concernsJobs : Instruction → Bool
  | .stopJobQueue | .clearJobQueue => true
  | _ => false

theorem mem_behind {other : Instruction} (hmem : other ∈ instruction::program) (hne : other ≠ instruction) :
    other ∈ program := mem_of_ne_of_mem hne hmem

theorem mem_behind_other {concerns : Instruction → Bool} {other : Instruction}
    (hmem : other ∈ instruction::program) (hother : concerns instruction = false) (hconcerns : concerns other = true) :
    other ∈ program := by
  refine mem_behind hmem ?_
  rintro rfl
  rw [hconcerns] at hother
  cases hother

theorem ReceiversTracked.pop (h : ReceiversTracked bGlobalDisabled (instruction::program) receivers deliveries)
    (hother : instruction.concernsReceivers = false) :
    ReceiversTracked bGlobalDisabled program receivers deliveries := by
  constructor
  · intro hflag hdisable receiver hmem
    have hdisable' : .disable ∉ instruction::program := fun hahead => hdisable (mem_behind_other hahead hother rfl)
    exact (h.enabled hflag hdisable' receiver hmem).imp_right
      (.imp (fun hahead => mem_behind_other hahead hother rfl) fun hahead => mem_behind_other hahead hother rfl)
  · intro hflag receiver hmem
    refine (h.disabled hflag receiver hmem).imp (fun hquiet => ⟨hquiet.1,hquiet.2.1,?_⟩)
      (.imp (fun hahead => mem_behind_other hahead hother rfl) fun hahead => mem_behind_other hahead hother rfl)
    exact hquiet.2.2.imp_left fun hahead => mem_behind_other hahead hother rfl

theorem TransmittersTracked.pop (h : TransmittersTracked bGlobalDisabled (instruction::program) transmitters)
    (hother : instruction.concernsTransmitters = false) : TransmittersTracked bGlobalDisabled program transmitters := by
  constructor
  · intro hflag hdisable transmitter hmem
    have hdisable' : .disable ∉ instruction::program := fun hahead => hdisable (mem_behind_other hahead hother rfl)
    exact (h.enabled hflag hdisable' transmitter hmem).imp_right
      (.imp (fun hahead => mem_behind_other hahead hother rfl) fun hahead => mem_behind_other hahead hother rfl)
  · intro hflag transmitter hmem
    exact (h.disabled hflag transmitter hmem).imp_right
      (.imp (fun hahead => mem_behind_other hahead hother rfl) fun hahead => mem_behind_other hahead hother rfl)

theorem JobsTracked.pop (h : JobsTracked bGlobalDisabled (instruction::program) bJobQueueActive jobs)
    (hother : instruction.concernsJobs = false) : JobsTracked bGlobalDisabled program bJobQueueActive jobs := by
  exact ⟨fun hactive => (h.active hactive).imp_right fun hahead => mem_behind_other hahead hother rfl,
    fun hactive => (h.inactive hactive).imp_right fun hahead => mem_behind_other hahead hother rfl⟩

theorem ReceiversTracked.of_resting (h : ReceiversTracked bGlobalDisabled [] receivers deliveries) :
    ReceiversTracked bGlobalDisabled program receivers deliveries := by
  have happend : ReceiversTracked bGlobalDisabled (program ++ []) receivers deliveries := h.append
  rwa [append_nil] at happend

theorem TransmittersTracked.of_resting (h : TransmittersTracked bGlobalDisabled [] transmitters) :
    TransmittersTracked bGlobalDisabled program transmitters := by
  have happend : TransmittersTracked bGlobalDisabled (program ++ []) transmitters := h.append
  rwa [append_nil] at happend

theorem JobsTracked.of_resting (h : JobsTracked bGlobalDisabled [] bJobQueueActive jobs) :
    JobsTracked bGlobalDisabled program bJobQueueActive jobs := by
  have happend : JobsTracked bGlobalDisabled (program ++ []) bJobQueueActive jobs := h.append
  rwa [append_nil] at happend

/-! ### What the steps of the loops do -/

variable {handle : Nat}

theorem eq_of_mem_cons {change : Nat → Instruction} {other : Nat}
    (hinjective : ∀ x y, change x = change y → x = y) (hmem : change other ∈ change handle::program)
    (hne : other ≠ handle) : change other ∈ program :=
  mem_behind hmem fun heq => hne (hinjective _ _ heq)

theorem ReceiversTracked.of_enabled :
    ReceiversTracked false (AdapterSystem.enableSteps ++ program) receivers deliveries where
  enabled _ _ _ _ := .inr (.inl (mem_append_left _ (by decide)))
  disabled hflag := nomatch hflag

theorem ReceiversTracked.of_disabled :
    ReceiversTracked true (AdapterSystem.disableSteps ++ program) receivers deliveries where
  enabled hflag := nomatch hflag
  disabled _ _ _ := .inr (.inl (mem_append_left _ (by decide)))

theorem ReceiversTracked.enableEach : ReceiversTracked false
    (receivers.map (fun receiver => .enableReceiver receiver.handle) ++ program) receivers deliveries where
  enabled _ _ receiver hmem := .inr (.inr (mem_append_left _ (mem_map.mpr ⟨receiver,hmem,rfl⟩)))
  disabled hflag := nomatch hflag

theorem ReceiversTracked.disableEach : ReceiversTracked true
    (receivers.flatMap (fun receiver => [.disableReceiver receiver.handle,.flushQueue receiver.handle]) ++ program)
    receivers deliveries where
  enabled hflag := nomatch hflag
  disabled _ receiver hmem := .inr (.inr (mem_append_left _ (mem_flatMap.mpr ⟨receiver,hmem,mem_cons_self⟩)))

theorem ReceiversTracked.enableReceiver
    (h : ReceiversTracked false (.enableReceiver handle::program) receivers deliveries) :
    ReceiversTracked false program
      (receivers.map fun receiver => if receiver.handle = handle then {receiver with bEnabled := true} else receiver)
      deliveries where
  enabled _ hdisable changed hmem := by
    obtain ⟨receiver,hbefore,rfl⟩ := mem_map.mp hmem
    split
    · exact .inl rfl
    · rename_i hne
      have hdisable' : .disable ∉ .enableReceiver handle::program :=
        fun hahead => hdisable (mem_behind hahead (by simp))
      refine (h.enabled rfl hdisable' receiver hbefore).imp_right (.imp ?_ ?_)
      · exact fun hahead => mem_behind hahead (by simp)
      · exact fun hahead => eq_of_mem_cons (fun _ _ heq => Instruction.enableReceiver.inj heq) hahead hne
  disabled hflag := nomatch hflag

theorem ReceiversTracked.disableReceiver
    (h : ReceiversTracked true (.disableReceiver handle::program) receivers deliveries)
    (hdeliveries : handle ∉ deliveries.map Prod.fst) (hflush : .flushQueue handle ∈ program) :
    ReceiversTracked true program
      (receivers.map fun receiver => if receiver.handle = handle then {receiver with bEnabled := false} else receiver)
      deliveries where
  enabled hflag := nomatch hflag
  disabled _ changed hmem := by
    obtain ⟨receiver,hbefore,rfl⟩ := mem_map.mp hmem
    split
    · rename_i heq
      rw [← heq] at hdeliveries hflush
      exact .inl ⟨rfl,hdeliveries,.inl hflush⟩
    · rename_i hne
      refine (h.disabled rfl receiver hbefore).imp (fun hquiet => ⟨hquiet.1,hquiet.2.1,?_⟩) (.imp ?_ ?_)
      · exact hquiet.2.2.imp_left fun hahead => mem_behind hahead (by simp)
      · exact fun hahead => mem_behind hahead (by simp)
      · exact fun hahead => eq_of_mem_cons (fun _ _ heq => Instruction.disableReceiver.inj heq) hahead hne

theorem ReceiversTracked.flushQueue (h : ReceiversTracked true (.flushQueue handle::program) receivers deliveries) :
    ReceiversTracked true program
      (receivers.map fun receiver => if receiver.handle = handle then {receiver with nQueued := 0} else receiver)
      deliveries where
  enabled hflag := nomatch hflag
  disabled _ changed hmem := by
    obtain ⟨receiver,hbefore,rfl⟩ := mem_map.mp hmem
    have hdisables (hahead : DisablesReceiver (.flushQueue handle::program) receiver.handle) :
        DisablesReceiver program receiver.handle :=
      hahead.imp (fun hahead => mem_behind hahead (by simp))
        fun hahead => mem_behind hahead (by simp)
    split
    · exact (h.disabled rfl receiver hbefore).imp (fun hquiet => ⟨hquiet.1,hquiet.2.1,.inr rfl⟩) hdisables
    · rename_i hne
      refine (h.disabled rfl receiver hbefore).imp (fun hquiet => ⟨hquiet.1,hquiet.2.1,?_⟩) hdisables
      exact hquiet.2.2.imp_left fun hahead =>
        eq_of_mem_cons (fun _ _ heq => Instruction.flushQueue.inj heq) hahead hne

theorem TransmittersTracked.of_enabled :
    TransmittersTracked false (AdapterSystem.enableSteps ++ program) transmitters where
  enabled _ _ _ _ := .inr (.inl (mem_append_left _ (by decide)))
  disabled hflag := nomatch hflag

theorem TransmittersTracked.of_disabled :
    TransmittersTracked true (AdapterSystem.disableSteps ++ program) transmitters where
  enabled hflag := nomatch hflag
  disabled _ _ _ := .inr (.inl (mem_append_left _ (by decide)))

theorem TransmittersTracked.enableEach : TransmittersTracked false
    (transmitters.map (fun transmitter => .enableTransmitter transmitter.handle) ++ program) transmitters where
  enabled _ _ transmitter hmem := .inr (.inr (mem_append_left _ (mem_map.mpr ⟨transmitter,hmem,rfl⟩)))
  disabled hflag := nomatch hflag

theorem TransmittersTracked.disableEach : TransmittersTracked true
    (transmitters.map (fun transmitter => .disableTransmitter transmitter.handle) ++ program) transmitters where
  enabled hflag := nomatch hflag
  disabled _ transmitter hmem := .inr (.inr (mem_append_left _ (mem_map.mpr ⟨transmitter,hmem,rfl⟩)))

theorem TransmittersTracked.enableTransmitter
    (h : TransmittersTracked false (.enableTransmitter handle::program) transmitters) :
    TransmittersTracked false program (transmitters.map fun transmitter =>
      if transmitter.handle = handle then {transmitter with bEnabled := true} else transmitter) where
  enabled _ hdisable changed hmem := by
    obtain ⟨transmitter,hbefore,rfl⟩ := mem_map.mp hmem
    split
    · exact .inl rfl
    · rename_i hne
      have hdisable' : .disable ∉ .enableTransmitter handle::program :=
        fun hahead => hdisable (mem_behind hahead (by simp))
      refine (h.enabled rfl hdisable' transmitter hbefore).imp_right (.imp ?_ ?_)
      · exact fun hahead => mem_behind hahead (by simp)
      · exact fun hahead => eq_of_mem_cons (fun _ _ heq => Instruction.enableTransmitter.inj heq) hahead hne
  disabled hflag := nomatch hflag

theorem TransmittersTracked.disableTransmitter
    (h : TransmittersTracked true (.disableTransmitter handle::program) transmitters) :
    TransmittersTracked true program (transmitters.map fun transmitter =>
      if transmitter.handle = handle then {transmitter with bEnabled := false} else transmitter) where
  enabled hflag := nomatch hflag
  disabled _ changed hmem := by
    obtain ⟨transmitter,hbefore,rfl⟩ := mem_map.mp hmem
    split
    · exact .inl rfl
    · rename_i hne
      refine (h.disabled rfl transmitter hbefore).imp_right (.imp ?_ ?_)
      · exact fun hahead => mem_behind hahead (by simp)
      · exact fun hahead => eq_of_mem_cons (fun _ _ heq => Instruction.disableTransmitter.inj heq) hahead hne

theorem JobsTracked.stop (hclear : .clearJobQueue ∈ program) : JobsTracked bGlobalDisabled program false jobs :=
  ⟨nofun,fun _ => .inr hclear⟩

theorem JobsTracked.clear (h : JobsTracked bGlobalDisabled (.clearJobQueue::program) bJobQueueActive jobs) :
    JobsTracked bGlobalDisabled program bJobQueueActive [] :=
  ⟨fun hactive => (h.active hactive).imp_right fun hahead => mem_behind hahead (by simp),
    fun _ => .inl rfl⟩

theorem JobsTracked.of_disabled : JobsTracked true (AdapterSystem.disableSteps ++ program) bJobQueueActive jobs where
  active _ := .inr (mem_append_left _ (by decide))
  inactive _ := .inr (mem_append_left _ (by decide))

theorem JobsTracked.of_enabled (h : JobsTracked true (.enable::program) bJobQueueActive jobs) :
    JobsTracked false (AdapterSystem.enableSteps ++ program) bJobQueueActive jobs where
  active _ := .inl rfl
  inactive := (h.pop rfl).append.inactive

theorem JobsTracked.create : JobsTracked false program true jobs := ⟨fun _ => .inl rfl,nofun⟩

/-! ### What the other threads do -/

section
variable (h : ReceiversTracked bGlobalDisabled program receivers deliveries)
include h

theorem ReceiversTracked.endDelivery
    {others : List (Nat × Bool)} (hothers : ∀ handle ∈ others.map Prod.fst, handle ∈ deliveries.map Prod.fst) :
    ReceiversTracked bGlobalDisabled program receivers others where
  enabled := h.enabled
  disabled hflag receiver hmem :=
    (h.disabled hflag receiver hmem).imp_left fun hquiet =>
      ⟨hquiet.1,fun hdelivery => hquiet.2.1 (hothers _ hdelivery),hquiet.2.2⟩

theorem ReceiversTracked.receive
    (henabled : ∃ receiver ∈ receivers, receiver.handle = handle ∧ receiver.bEnabled = true) :
    ReceiversTracked bGlobalDisabled program (receivers.map fun receiver =>
        if receiver.handle = handle then {receiver with nQueued := receiver.nQueued + 1} else receiver)
      (deliveries ++ [(handle,false)]) where
  enabled hflag hdisable changed hmem := by
    obtain ⟨receiver,hbefore,rfl⟩ := mem_map.mp hmem
    have htracked := h.enabled hflag hdisable receiver hbefore
    split
    · exact htracked
    · exact htracked
  disabled hflag changed hmem := by
    obtain ⟨receiver,hbefore,rfl⟩ := mem_map.mp hmem
    split
    · rename_i heq
      obtain ⟨enabled,henabledMem,rfl,henabled⟩ := henabled
      refine .inr ?_
      rw [heq]
      refine (h.disabled hflag enabled henabledMem).resolve_left fun hquiet => ?_
      rw [hquiet.1] at henabled
      cases henabled
    · rename_i hne
      refine (h.disabled hflag receiver hbefore).imp_left fun hquiet => ⟨hquiet.1,?_,hquiet.2.2⟩
      rw [map_append,mem_append]
      rintro (hdelivery | hdelivery)
      · exact hquiet.2.1 hdelivery
      · exact hne (mem_singleton.mp hdelivery)

theorem ReceiversTracked.process (handle : Nat) :
    ReceiversTracked bGlobalDisabled program (receivers.map fun receiver =>
        if receiver.handle = handle then {receiver with nQueued := receiver.nQueued - 1} else receiver)
      deliveries where
  enabled hflag hdisable changed hmem := by
    obtain ⟨receiver,hbefore,rfl⟩ := mem_map.mp hmem
    have htracked := h.enabled hflag hdisable receiver hbefore
    split
    · exact htracked
    · exact htracked
  disabled hflag changed hmem := by
    obtain ⟨receiver,hbefore,rfl⟩ := mem_map.mp hmem
    have htracked := h.disabled hflag receiver hbefore
    split
    · refine htracked.imp_left fun hquiet => ⟨hquiet.1,hquiet.2.1,hquiet.2.2.imp_right fun hempty => ?_⟩
      rw [hempty]
    · exact htracked

/-- A receiver that is created while the adapter is enabled has the loop, or the step that disables all, ahead. -/
theorem ReceiversTracked.register (hahead : bGlobalDisabled = true ∨ .disable ∈ program ∨ .enableReceivers ∈ program)
    (hdeliveries : handle ∉ deliveries.map Prod.fst) :
    ReceiversTracked bGlobalDisabled program (receivers ++ [⟨handle,false,0⟩]) deliveries where
  enabled hflag hdisable receiver hmem := by
    obtain hmem | hmem := mem_append.mp hmem
    · exact h.enabled hflag hdisable receiver hmem
    · rw [hflag] at hahead
      obtain hdisabled | hahead | hahead := hahead
      · cases hdisabled
      · exact absurd hahead hdisable
      · exact .inr (.inl hahead)
  disabled hflag receiver hmem := by
    obtain hmem | hmem := mem_append.mp hmem
    · exact h.disabled hflag receiver hmem
    · obtain rfl := mem_singleton.mp hmem
      exact .inl ⟨rfl,hdeliveries,.inr rfl⟩

end

theorem TransmittersTracked.register (h : TransmittersTracked bGlobalDisabled program transmitters)
    (hahead : bGlobalDisabled = true ∨ .disable ∈ program ∨ .enableTransmitters ∈ program) :
    TransmittersTracked bGlobalDisabled program (transmitters ++ [⟨handle,false⟩]) where
  enabled hflag hdisable transmitter hmem := by
    obtain hmem | hmem := mem_append.mp hmem
    · exact h.enabled hflag hdisable transmitter hmem
    · rw [hflag] at hahead
      obtain hdisabled | hahead | hahead := hahead
      · cases hdisabled
      · exact absurd hahead hdisable
      · exact .inr (.inl hahead)
  disabled hflag transmitter hmem := by
    obtain hmem | hmem := mem_append.mp hmem
    · exact h.disabled hflag transmitter hmem
    · obtain rfl := mem_singleton.mp hmem
      exact .inl rfl

theorem ReceiversTracked.unregister (h : ReceiversTracked bGlobalDisabled program receivers deliveries)
    (keeps : DataReceiver → Bool) : ReceiversTracked bGlobalDisabled program (receivers.filter keeps) deliveries where
  enabled hflag hdisable receiver hmem := h.enabled hflag hdisable receiver (mem_filter.mp hmem).1
  disabled hflag receiver hmem := h.disabled hflag receiver (mem_filter.mp hmem).1

theorem TransmittersTracked.unregister (h : TransmittersTracked bGlobalDisabled program transmitters)
    (keeps : DataTransmitter → Bool) : TransmittersTracked bGlobalDisabled program (transmitters.filter keeps) where
  enabled hflag hdisable transmitter hmem := h.enabled hflag hdisable transmitter (mem_filter.mp hmem).1
  disabled hflag transmitter hmem := h.disabled hflag transmitter (mem_filter.mp hmem).1

theorem JobsTracked.enqueue (h : JobsTracked bGlobalDisabled program bJobQueueActive jobs)
    (hactive : bJobQueueActive = true ∨ .clearJobQueue ∈ program) :
    JobsTracked bGlobalDisabled program bJobQueueActive (jobs ++ [handle]) where
  active := h.active
  inactive hinactive := by
    rw [hinactive] at hactive
    exact .inr (hactive.resolve_left fun heq => nomatch heq)

theorem JobsTracked.dequeue (h : JobsTracked bGlobalDisabled program bJobQueueActive (handle::jobs)) :
    JobsTracked bGlobalDisabled program bJobQueueActive jobs where
  active := h.active
  inactive hinactive := .inr ((h.inactive hinactive).resolve_left fun heq => nomatch heq)

end programs
end FepParticipant.TransmissionAdapter
