import FepParticipant.Incident
import FepParticipant.Result
import FepParticipant.Library.Interleaving

/-! The channel for commands and notifications: the sender's check of the size, the receiver's pool of containers, and
the thread that dispatches. -/
namespace FepParticipant.Transmission
open Library List Threads

/-- `s_nMessageStringLength`. -/
def messageStringLength : Nat := 2097152

/-- A message with its text as a C string without the terminating zero. -/
structure Message where
  text : List UInt8
  majorVersion : UInt8
  minorVersion : UInt8
  text_ne_zero : ∀ c ∈ text, c ≠ 0

/-- What the sender hands to the driver, and what it reports. -/
structure MessageTransmission where
  result : Result
  sent : Option (List UInt8)
  incidents : List IncidentCode

/-- `TransmitMessage`; `transmits` is the answer of the driver. -/
def transmitMessage (initialized : Bool) (majorVersion minorVersion : UInt8) (transmits : Result)
    (message : Message) : MessageTransmission :=
  if initialized then
    if messageStringLength < message.text.length then ⟨.errInvalidArg,none,[.fsiTransmMsgTxFailed]⟩
    else if isOk transmits then
      ⟨transmits,some (message.text ++ [0]),
        if message.majorVersion ≠ majorVersion ∨ message.minorVersion ≠ minorVersion then
          [.fsiTransmMessageVersionMismatchWarning]
        else []⟩
    else ⟨transmits,some (message.text ++ [0]),[.fsiTransmMsgTxFailed]⟩
  else ⟨.errNotInitialised,none,[]⟩

/-- A container with the memory of `strMessage`. -/
structure MessageContainer where
  szSize : Nat
  strMessage : List UInt8

namespace MessageContainer

/-- The C string at the start of the memory. -/
def text (container : MessageContainer) : List UInt8 := container.strMessage.takeWhile (· ≠ 0)

/-- Nothing is copied when the buffer is larger than the memory. -/
def fill (container : MessageContainer) (buffer : List UInt8) : Option MessageContainer :=
  if buffer.length ≤ messageStringLength then some ⟨buffer.length,buffer ++ container.strMessage.drop buffer.length⟩
  else none

end MessageContainer

inductive DispatchPosition where
  | waiting
  | updating (container : MessageContainer)
  | freeing (container : MessageContainer)

/-- The receiving side's queues and the position of its thread. Of its history, the texts enqueued and given to
`Update`, and the number of containers that could not be filled. -/
structure MessageQueues where
  preAllocQueue : List MessageContainer
  receiveQueue : List MessageContainer
  dispatch : DispatchPosition
  enqueued : List (List UInt8)
  updated : List (List UInt8)
  notCopied : Nat

/-- The position of a call of `ReceiveMessage`. -/
inductive MessagePosition where
  | allocating
  | filling (container : MessageContainer)
  | enqueueing (container : MessageContainer)
  | returned

inductive MessageThread where
  | threadFunc
  | receiveMessage (buffer : List UInt8) (position : MessagePosition)

namespace MessageThread

def next (queues : MessageQueues) (_ : Nat) (_ : Unit) : MessageThread → Option (MessageQueues × MessageThread)
  | .threadFunc =>
    match queues.dispatch with
    | .waiting =>
      match queues.receiveQueue with
      | [] => none
      | container::queue => some ({queues with receiveQueue := queue, dispatch := .updating container},.threadFunc)
    | .updating container =>
      some ({queues with updated := queues.updated ++ [container.text], dispatch := .freeing container},.threadFunc)
    | .freeing container =>
      some ({queues with preAllocQueue := queues.preAllocQueue ++ [container], dispatch := .waiting},.threadFunc)
  | .receiveMessage buffer .allocating =>
    match queues.preAllocQueue with
    | [] => some (queues,.receiveMessage buffer .returned)
    | container::pool => some ({queues with preAllocQueue := pool},.receiveMessage buffer (.filling container))
  | .receiveMessage buffer (.filling container) =>
    match container.fill buffer with
    | some filled => some (queues,.receiveMessage buffer (.enqueueing filled))
    | none => some ({queues with notCopied := queues.notCopied + 1},.receiveMessage buffer .returned)
  | .receiveMessage buffer (.enqueueing container) =>
    some ({ queues with receiveQueue := queues.receiveQueue ++ [container],
                        enqueued := queues.enqueued ++ [container.text] },.receiveMessage buffer .returned)
  | .receiveMessage _ .returned => none

/-- A buffer is received. -/
def starts : MessageThread → Bool
  | .receiveMessage _ .allocating => true
  | _ => false

end MessageThread

abbrev MessageChannel := Threads MessageQueues MessageThread

abbrev MessageAction := ThreadAction MessageThread Unit

namespace MessageChannel

/-- `CreateMessageChannel`: the preallocated containers hold whatever their memory held. -/
def create (containers : List MessageContainer) : MessageChannel := ⟨⟨containers,[],.waiting,[],[],0⟩,[.threadFunc]⟩

def step (s : MessageChannel) (action : MessageAction) : Option MessageChannel :=
  s.act MessageThread.next MessageThread.starts action

end MessageChannel

/-- The sender only sends what the receiver takes into a container, with the text of the message. -/
def Message.Agrees (message : Message) : Prop :=
  ∀ (initialized : Bool) (majorVersion minorVersion : UInt8) (transmits : Result),
    ∀ buffer ∈ (transmitMessage initialized majorVersion minorVersion transmits message).sent,
      ∀ container : MessageContainer, ∃ filled : MessageContainer,
        container.fill buffer = some filled ∧ filled.text = message.text

namespace MessageContainer
variable {container filled : MessageContainer} {buffer : List UInt8}

theorem text_fill {message : Message} (h : container.fill (message.text ++ [0]) = some filled) :
    filled.text = message.text := by
  unfold fill at h
  split at h
  · cases h
    rw [text,append_assoc,takeWhile_append_of_pos]
    · simp
    · intro c hc
      exact decide_eq_true (message.text_ne_zero c hc)
  · cases h

theorem fill_isSome_iff : (container.fill buffer).isSome ↔ buffer.length ≤ messageStringLength := by
  unfold fill
  split <;> simp [*]

end MessageContainer

private theorem transmitMessage_sent_iff {message : Message} {initialized : Bool} {majorVersion minorVersion : UInt8}
    {transmits : Result} {buffer : List UInt8} :
    (transmitMessage initialized majorVersion minorVersion transmits message).sent = some buffer ↔
      initialized = true ∧ message.text.length ≤ messageStringLength ∧ buffer = message.text ++ [0] := by
  unfold transmitMessage
  cases initialized
  · simp
  · by_cases hlength : messageStringLength < message.text.length
    · simp [hlength,Nat.not_le.mpr hlength]
    · simp only [if_true,if_neg hlength,true_and,Nat.le_of_not_lt hlength]
      split <;> simp [eq_comm]

theorem Message.agrees_iff (message : Message) : message.Agrees ↔ message.text.length ≠ messageStringLength := by
  constructor
  · intro hagrees hlength
    have hsent : (transmitMessage true 0 0 .errNoError message).sent = some (message.text ++ [0]) :=
      transmitMessage_sent_iff.mpr ⟨rfl,Nat.le_of_eq hlength,rfl⟩
    obtain ⟨filled,hfilled,-⟩ := hagrees true 0 0 .errNoError _ hsent ⟨0,[]⟩
    have hfits := MessageContainer.fill_isSome_iff.mp (Option.isSome_of_eq_some hfilled)
    simp only [length_append,length_singleton,hlength] at hfits
    omega
  · intro hlength initialized majorVersion minorVersion transmits buffer hbuffer container
    obtain ⟨-,hle,rfl⟩ := transmitMessage_sent_iff.mp hbuffer
    have hfits : (message.text ++ [0]).length ≤ messageStringLength := by
      simp only [length_append,length_singleton]
      omega
    obtain ⟨filled,hfilled⟩ := Option.isSome_iff_exists.mp (@MessageContainer.fill_isSome_iff container _ |>.mpr hfits)
    exact ⟨filled,hfilled,MessageContainer.text_fill hfilled⟩

namespace DispatchPosition

def held : DispatchPosition → Nat
  | .waiting => 0
  | .updating _ | .freeing _ => 1

/-- The text that is to be dispatched next. -/
def pending : DispatchPosition → List (List UInt8)
  | .updating container => [container.text]
  | .waiting | .freeing _ => []

end DispatchPosition

namespace MessageQueues

def containers (queues : MessageQueues) : Nat :=
  queues.preAllocQueue.length + queues.receiveQueue.length + queues.dispatch.held

def InOrder (queues : MessageQueues) : Prop :=
  queues.updated ++ queues.dispatch.pending ++ queues.receiveQueue.map MessageContainer.text = queues.enqueued

end MessageQueues

namespace MessageThread

/-- The container being filled by the thread. -/
def held : MessageThread → Nat
  | .receiveMessage _ (.filling _) | .receiveMessage _ (.enqueueing _) => 1
  | _ => 0

/-- No buffer that is too large is about to be copied. -/
def fits : MessageThread → Bool
  | .receiveMessage buffer (.filling _) => buffer.length ≤ messageStringLength
  | _ => true

variable {queues queues' : MessageQueues} {thread thread' : MessageThread} {index : Nat} {choice : Unit}

private inductive Next (queues : MessageQueues) : MessageThread → MessageQueues → MessageThread → Prop
  | dequeues (container : MessageContainer) (queue : List MessageContainer) : queues.dispatch = .waiting →
      queues.receiveQueue = container::queue →
      Next queues .threadFunc {queues with receiveQueue := queue, dispatch := .updating container} .threadFunc
  | updates (container : MessageContainer) : queues.dispatch = .updating container →
      Next queues .threadFunc
        {queues with updated := queues.updated ++ [container.text], dispatch := .freeing container} .threadFunc
  | frees (container : MessageContainer) : queues.dispatch = .freeing container →
      Next queues .threadFunc
        {queues with preAllocQueue := queues.preAllocQueue ++ [container], dispatch := .waiting} .threadFunc
  | drops (buffer : List UInt8) :
      Next queues (.receiveMessage buffer .allocating) queues (.receiveMessage buffer .returned)
  | allocates (buffer : List UInt8) (container : MessageContainer) (pool : List MessageContainer) :
      queues.preAllocQueue = container::pool →
      Next queues (.receiveMessage buffer .allocating) {queues with preAllocQueue := pool}
        (.receiveMessage buffer (.filling container))
  | fills (buffer : List UInt8) (container filled : MessageContainer) : buffer.length ≤ messageStringLength →
      Next queues (.receiveMessage buffer (.filling container)) queues (.receiveMessage buffer (.enqueueing filled))
  | refuses (buffer : List UInt8) (container : MessageContainer) : ¬buffer.length ≤ messageStringLength →
      Next queues (.receiveMessage buffer (.filling container)) {queues with notCopied := queues.notCopied + 1}
        (.receiveMessage buffer .returned)
  | enqueues (buffer : List UInt8) (container : MessageContainer) :
      Next queues (.receiveMessage buffer (.enqueueing container))
        { queues with receiveQueue := queues.receiveQueue ++ [container],
                      enqueued := queues.enqueued ++ [container.text] } (.receiveMessage buffer .returned)

section
variable (h : next queues index choice thread = some (queues',thread'))
include h

theorem next_cases : Next queues thread queues' thread' := by
  cases thread with
  | threadFunc =>
    cases hdispatch : queues.dispatch with
    | waiting =>
      simp only [next,hdispatch] at h
      split at h
      · cases h
      · rename_i container queue hqueue
        cases h
        exact .dequeues container queue hdispatch hqueue
    | updating container =>
      simp only [next,hdispatch] at h
      cases h
      exact .updates container hdispatch
    | freeing container =>
      simp only [next,hdispatch] at h
      cases h
      exact .frees container hdispatch
  | receiveMessage buffer position =>
    cases position with
    | allocating =>
      simp only [next] at h
      split at h
      · cases h
        exact .drops buffer
      · rename_i container pool hpool
        cases h
        exact .allocates buffer container pool hpool
    | filling container =>
      have hfill := @MessageContainer.fill_isSome_iff container buffer
      simp only [next] at h
      split at h
      · rename_i filled hfilled
        cases h
        exact .fills buffer container filled (hfill.mp (Option.isSome_of_eq_some hfilled))
      · rename_i hnone
        cases h
        exact .refuses buffer container fun hfits => Option.ne_none_iff_isSome.mpr (hfill.mpr hfits) hnone
    | enqueueing container =>
      cases h
      exact .enqueues buffer container
    | returned => cases h

theorem next_accounted :
    queues'.containers + thread'.held + queues'.notCopied = queues.containers + thread.held + queues.notCopied := by
  cases next_cases h with
  | dequeues container queue hdispatch hqueue =>
    simp only [MessageQueues.containers,hqueue,hdispatch,DispatchPosition.held,length_cons]
    omega
  | updates container hdispatch => simp only [MessageQueues.containers,hdispatch,DispatchPosition.held]
  | frees container hdispatch =>
    simp only [MessageQueues.containers,hdispatch,DispatchPosition.held,length_append,length_singleton]
    omega
  | drops buffer => rfl
  | allocates buffer container pool hpool =>
    simp only [MessageQueues.containers,hpool,held,length_cons]
    omega
  | fills buffer container filled hfits => rfl
  | refuses buffer container hlarge =>
    simp only [MessageQueues.containers,held]
    omega
  | enqueues buffer container =>
    simp only [MessageQueues.containers,held,length_append,length_singleton]
    omega

theorem next_notCopied : queues'.notCopied = queues.notCopied + if thread.fits = true then 0 else 1 := by
  cases next_cases h with
  | dequeues container queue hdispatch hqueue => rfl
  | updates container hdispatch => rfl
  | frees container hdispatch => rfl
  | drops buffer => rfl
  | allocates buffer container pool hpool => rfl
  | fills buffer container filled hfits => simp [fits,hfits]
  | refuses buffer container hlarge => simp [fits,hlarge]
  | enqueues buffer container => rfl

theorem next_inOrder (horder : queues.InOrder) : queues'.InOrder := by
  unfold MessageQueues.InOrder at horder ⊢
  cases next_cases h with
  | dequeues container queue hdispatch hqueue => simpa [hdispatch,hqueue,DispatchPosition.pending] using horder
  | updates container hdispatch => simpa [hdispatch,DispatchPosition.pending] using horder
  | frees container hdispatch => simpa [hdispatch,DispatchPosition.pending] using horder
  | drops buffer => exact horder
  | allocates buffer container pool hpool => exact horder
  | fills buffer container filled hfits => exact horder
  | refuses buffer container hlarge => exact horder
  | enqueues buffer container =>
    rw [← horder]
    simp

end

private theorem held_of_starts (h : thread.starts = true) : thread.held = 0 := by
  cases thread with
  | threadFunc => cases h
  | receiveMessage buffer position => cases position <;> first | rfl | cases h

end MessageThread

namespace MessageChannel
variable {s s' : MessageChannel} {count : Nat} {initial : List MessageContainer} {action : MessageAction}

/-- The containers that are free, queued, in dispatch or being filled. -/
def containers (s : MessageChannel) : Nat := s.shared.containers + Threads.total MessageThread.held s.threads

/-- No buffer that is too large is copied. -/
def MessageFits (s : MessageChannel) : MessageAction → Prop
  | .step index _ => ∀ thread ∈ s.threads[index]?, thread.fits = true
  | .start _ => True

instance (s : MessageChannel) (action : MessageAction) : Decidable (s.MessageFits action) :=
  match action with
  | .step _ _ => inferInstanceAs (Decidable (∀ thread ∈ _, _))
  | .start _ => inferInstanceAs (Decidable True)

theorem accounted_step (h : s.containers + s.shared.notCopied = count) (hstep : s.step action = some s') :
    s'.containers + s'.shared.notCopied = count := by
  unfold containers at h ⊢
  rcases act_cases hstep with
    ⟨index,choice,thread,queues,thread',-,hthread,hnext,rfl⟩ | ⟨thread,-,hstarts,rfl⟩
  · have htotal := total_set thread' MessageThread.held hthread
    have haccounted := MessageThread.next_accounted hnext
    dsimp only
    omega
  · have hheld : Threads.total MessageThread.held [thread] = 0 := by
      simp [Threads.total,MessageThread.held_of_starts hstarts]
    rw [total_append,hheld]
    exact h

theorem notCopied_step (hstep : s.step action = some s') :
    s'.shared.notCopied = s.shared.notCopied + if s.MessageFits action then 0 else 1 := by
  rcases act_cases hstep with
    ⟨index,choice,thread,queues,thread',rfl,hthread,hnext,rfl⟩ | ⟨thread,rfl,-,rfl⟩
  · have hfits : s.MessageFits (.step index choice) ↔ thread.fits = true := by
      simp [MessageFits,hthread]
    simp only [hfits]
    exact MessageThread.next_notCopied hnext
  · simp [MessageFits]

/-- The texts are dispatched in the order of their arrival. -/
def InOrder (s : MessageChannel) : Prop := s.shared.InOrder

private theorem inOrder_step (h : s.InOrder) (hstep : s.step action = some s') : s'.InOrder := by
  rcases act_cases hstep with
    ⟨index,choice,thread,queues,thread',-,-,hnext,rfl⟩ | ⟨thread,-,-,rfl⟩
  · exact MessageThread.next_inOrder hnext h
  · exact h

private theorem inOrder_create : InOrder (create initial) := rfl

/-- The invariant of the runs in which all buffers fit. -/
structure ConservedInv (count : Nat) (s : MessageChannel) : Prop where
  accounted : s.containers + s.shared.notCopied = count
  all_copied : s.shared.notCopied = 0

private theorem conservedInv_create : ConservedInv initial.length (create initial) := ⟨rfl,rfl⟩

private theorem conservedInv_step (h : ConservedInv count s) (hfits : s.MessageFits action)
    (hstep : s.step action = some s') : ConservedInv count s' := by
  refine ⟨accounted_step h.accounted hstep,?_⟩
  rw [notCopied_step hstep,if_pos hfits,h.all_copied]

/-- Sender and receiver agree on every length but the greatest. All containers are there until the first buffer that is
too large loses one. -/
theorem message_transmission (initial : List MessageContainer) :
    (∀ message : Message, message.Agrees ↔ message.text.length ≠ messageStringLength) ∧
    (∀ s : MessageChannel, Reaches step anyAction (create initial) s → s.InOrder) ∧
    ∀ s : MessageChannel, Reaches step MessageFits (create initial) s →
      s.containers = initial.length ∧ ∀ (action : MessageAction) (s' : MessageChannel), s.step action = some s' →
        (s'.containers = initial.length ↔ s.MessageFits action) := by
  refine ⟨Message.agrees_iff,fun s h => ?_,fun s h => ?_⟩
  · exact h.invariant inOrder_create fun _ _ _ ht _ hstep => inOrder_step ht hstep
  have hinv : ConservedInv initial.length s :=
    h.invariant conservedInv_create fun _ _ _ ht hfits hstep => conservedInv_step ht hfits hstep
  have haccounted := hinv.accounted
  have hcopied := hinv.all_copied
  refine ⟨by omega,fun action s' hstep => ?_⟩
  have haccounted' := accounted_step haccounted hstep
  have hcopied' := notCopied_step hstep
  split at hcopied'
  · rename_i hfits
    exact iff_of_true (by omega) hfits
  · rename_i hfits
    exact iff_of_false (by omega) hfits

theorem message_transmission_two : ∃ s : MessageChannel,
    Reaches step MessageFits (create [⟨0,[7,7,7]⟩]) s ∧ s.shared.updated = [[1,2],[3]] ∧
      s.InOrder ∧ s.containers = 1 := by
  obtain ⟨s,hreach,hupdated⟩ : ∃ s, Reaches step MessageFits (create [⟨0,[7,7,7]⟩]) s ∧
      s.shared.updated = [[1,2],[3]] :=
    exists_of_runAllowed [.start (.receiveMessage [1,2,0] .allocating),.step 1 (),.step 1 (),.step 1 (),
      .step 0 (),.step 0 (),.step 0 (),.start (.receiveMessage [3,0] .allocating),.step 2 (),.step 2 (),
      .step 2 (),.step 0 (),.step 0 ()] (by decide +kernel)
  obtain ⟨-,horder,hconserved⟩ := message_transmission [⟨0,[7,7,7]⟩]
  exact ⟨s,hreach,hupdated,horder s (hreach.mono fun _ _ _ => trivial),(hconserved s hreach).1⟩

/-- The sender accepts a message of exactly the maximal length, and the receiver has no room for its zero. -/
theorem greatest_message_not_received : ∃ message : Message, ¬message.Agrees := by
  refine ⟨⟨List.replicate messageStringLength 1,0,0,fun c hc => ?_⟩,fun hagrees => ?_⟩
  · rw [eq_of_mem_replicate hc]
    decide
  · exact (Message.agrees_iff _).mp hagrees length_replicate

end MessageChannel

end FepParticipant.Transmission
