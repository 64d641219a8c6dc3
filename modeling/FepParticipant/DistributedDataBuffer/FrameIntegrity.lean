import FepParticipant.DistributedDataBuffer.DDB

/-! Which frames leave the distributed data buffer: what is left in a buffer from an earlier frame
and a reset between a switch and the delivery are what can go wrong. -/
namespace FepParticipant.DistributedDataBuffer
open Library Transmission List Nat Option

def FrameOut.OneFrameId (frame : FrameOut) : Prop := ∃ frameId, ∀ entry ∈ frame.entries, entry.sample.frameId = frameId

structure FrameOut.Before (frame other : FrameOut) : Prop where
  switch : frame.switch < other.switch
  received : ∀ entry ∈ frame.entries, ∀ entry' ∈ other.entries, entry.reception < entry'.reception

structure FrameOut.After (switches receptions : Nat) (frame : FrameOut) : Prop where
  switch : switches < frame.switch
  received : ∀ entry ∈ frame.entries, receptions < entry.reception

namespace DDBSystem

variable {system system' : DDBSystem} {action : DDBAction}

/-- Each frame handed out has one frame id and was filled and switched after the last reset, and the frames are
handed out in that order, none twice. -/
structure Integrity (system : DDBSystem) : Prop where
  oneFrameId : ∀ handed ∈ system.handed, handed.frame.OneFrameId
  ordered : (system.handed.map HandedFrame.frame).Pairwise FrameOut.Before
  afterReset : ∀ handed ∈ system.handed, handed.frame.After handed.resetSwitches handed.resetReceptions

/-- No sample with the largest frame id is left in the switched write buffer from the time before it was one. -/
def NothingLeft (system : DDBSystem) : Prop :=
  system.ddb.analyseWrite.refusesFrame = false →
    let entries := (system.ddb.frames system.ddb.bufferWrite).entries
    ∀ entry ∈ entries, entry.sample.frameId = DDBFrame.maxFrameId entries → DDBFrame.maxFrameId entries ≠ 0 →
      system.writeSince < entry.reception

/-- A switch finds nothing left over in the write buffer, and a reset finds no frame that was switched
and not handed out. -/
def Undisturbed (system : DDBSystem) : DDBAction → Prop
  | .update sample => sample.signalHandle = system.ddb.hSignal → system.ddb.missedSync sample = true →
      system.NothingLeft
  | .store => ∀ sample ∈ system.receiving, sample.syncFlag = true → (system.storeSample sample).NothingLeft
  | .resetData => system.ddb.stockIsFull = false ∧ system.worker ≠ .delivering
  | _ => True

/-- The frames that were switched and not handed out, in the order of their switch. -/
def pending (system : DDBSystem) : List FrameOut :=
  (if system.worker = .delivering then [system.frameAt system.ddb.bufferRead] else []) ++
    if system.ddb.stockIsFull then [system.frameAt system.ddb.bufferStock] else []

def leaving (system : DDBSystem) : List FrameOut := system.handed.map HandedFrame.frame ++ system.pending

structure DDBInv (system : DDBSystem) : Prop where
  readStock : system.ddb.bufferRead ≠ system.ddb.bufferStock
  readWrite : system.ddb.bufferRead ≠ system.ddb.bufferWrite
  stockWrite : system.ddb.bufferStock ≠ system.ddb.bufferWrite
  ordered : system.leaving.Pairwise FrameOut.Before
  oneFrameId : ∀ frame ∈ system.leaving, frame.OneFrameId
  switched : ∀ frame ∈ system.leaving, frame.switch ≤ system.switches
  filled : ∀ frame ∈ system.leaving, ∀ entry ∈ frame.entries, entry.reception ≤ system.writeSince
  pending : ∀ frame ∈ system.pending, frame.After system.resetSwitches system.resetReceptions
  handed : ∀ handed ∈ system.handed, handed.frame.After handed.resetSwitches handed.resetReceptions
  received : ∀ pointer, ∀ entry ∈ (system.ddb.frames pointer).entries, entry.reception ≤ system.receptions
  since : system.writeSince ≤ system.receptions
  reset : system.resetReceptions ≤ system.writeSince
  resetSwitches : system.resetSwitches ≤ system.switches

theorem DDBInv.integrity (h : DDBInv system) : system.Integrity where
  oneFrameId _ hhanded := h.oneFrameId _ (mem_append_left _ (mem_map_of_mem hhanded))
  ordered := (pairwise_append.mp h.ordered).1
  afterReset := h.handed

theorem ddbInv_new (hSignal szMaxEntries : Nat) (memory : List UInt8) (strategy : DDBDeliveryStrategy) :
    DDBInv (new hSignal szMaxEntries memory strategy) where
  readStock := (by decide : 0 ≠ 1)
  readWrite := (by decide : 0 ≠ 2)
  stockWrite := (by decide : 1 ≠ 2)
  ordered := List.Pairwise.nil
  oneFrameId := by intro frame hframe; cases hframe
  switched := by intro frame hframe; cases hframe
  filled := by intro frame hframe; cases hframe
  pending := by intro frame hframe; cases hframe
  handed := by intro handed hhanded; cases hhanded
  received := by
    intro pointer entry hentry
    rw [eq_of_mem_replicate hentry]
    exact le_refl 0
  since := le_refl 0
  reset := le_refl 0
  resetSwitches := le_refl 0

section
variable (h : DDBInv system)
include h

theorem DDBInv.of_leaving (hreadStock : system'.ddb.bufferRead ≠ system'.ddb.bufferStock)
    (hreadWrite : system'.ddb.bufferRead ≠ system'.ddb.bufferWrite)
    (hstockWrite : system'.ddb.bufferStock ≠ system'.ddb.bufferWrite) (hleaving : system'.leaving = system.leaving)
    (hpending : ∀ frame ∈ system'.pending, frame.After system.resetSwitches system.resetReceptions)
    (hhanded : ∀ handed ∈ system'.handed, handed.frame.After handed.resetSwitches handed.resetReceptions)
    (hswitches : system'.switches = system.switches) (hsince : system'.writeSince = system.writeSince)
    (hreset : system'.resetReceptions = system.resetReceptions)
    (hresetSwitches : system'.resetSwitches = system.resetSwitches)
    (hreceptions : system.receptions ≤ system'.receptions)
    (hreceived : ∀ pointer, ∀ entry ∈ (system'.ddb.frames pointer).entries,
      entry.reception ≤ system'.receptions) : DDBInv system' := by
  refine ⟨hreadStock,hreadWrite,hstockWrite,?_,?_,?_,?_,?_,hhanded,hreceived,?_,?_,?_⟩
  · rw [hleaving]
    exact h.ordered
  · rw [hleaving]
    exact h.oneFrameId
  · rw [hleaving,hswitches]
    exact h.switched
  · rw [hleaving,hsince]
    exact h.filled
  · rw [hreset,hresetSwitches]
    exact hpending
  · rw [hsince]
    exact le_trans h.since hreceptions
  · rw [hreset,hsince]
    exact h.reset
  · rw [hresetSwitches,hswitches]
    exact h.resetSwitches

theorem DDBInv.of_frame (hread : system'.ddb.bufferRead = system.ddb.bufferRead)
    (hstock : system'.ddb.bufferStock = system.ddb.bufferStock)
    (hwrite : system'.ddb.bufferWrite = system.ddb.bufferWrite) (hpending : system'.pending = system.pending)
    (hhanded : system'.handed = system.handed) (hswitches : system'.switches = system.switches)
    (hsince : system'.writeSince = system.writeSince) (hreset : system'.resetReceptions = system.resetReceptions)
    (hresetSwitches : system'.resetSwitches = system.resetSwitches)
    (hreceptions : system.receptions ≤ system'.receptions)
    (hreceived : ∀ pointer, ∀ entry ∈ (system'.ddb.frames pointer).entries,
      entry.reception ≤ system'.receptions) : DDBInv system' := by
  refine h.of_leaving ?_ ?_ ?_ ?_ ?_ ?_ hswitches hsince hreset hresetSwitches hreceptions hreceived
  · rw [hread,hstock]
    exact h.readStock
  · rw [hread,hwrite]
    exact h.readWrite
  · rw [hstock,hwrite]
    exact h.stockWrite
  · rw [leaving,leaving,hpending,hhanded]
  · rw [hpending]
    exact h.pending
  · rw [hhanded]
    exact h.handed

theorem pending_setFrame (frame : DDBFrame) (receptions : Nat) : { system with
      ddb := system.ddb.setFrame system.ddb.bufferWrite frame
      receptions := receptions : DDBSystem }.pending = system.pending := by
  simp [pending,frameAt,DDB.setFrame,h.readWrite,h.stockWrite]

theorem received_setFrame {pointer : Nat} {frame : DDBFrame} {receptions : Nat}
    (hle : system.receptions ≤ receptions) (hframe : ∀ entry ∈ frame.entries, entry.reception ≤ receptions)
    (other : Nat) (entry : DDBEntry) (hentry : entry ∈ ((system.ddb.setFrame pointer frame).frames other).entries) :
    entry.reception ≤ receptions := by
  simp only [DDB.setFrame] at hentry
  split at hentry
  · exact hframe entry hentry
  · exact le_trans (h.received other entry hentry) hle

theorem ddbInv_storeSample (sample : DataSample) : DDBInv (system.storeSample sample) := by
  refine h.of_frame rfl rfl rfl (pending_setFrame h _ _) rfl rfl rfl rfl rfl (le_succ _) ?_
  apply received_setFrame h (le_succ _)
  intro entry hentry
  rcases DDBFrame.mem_setSample hentry with rfl | hold
  · exact le_refl _
  · exact le_succ_of_le (h.received _ entry hold)

theorem ddbInv_analyseWrite : DDBInv {system with ddb := system.ddb.analyseWrite} := by
  refine h.of_frame rfl rfl rfl (pending_setFrame h _ system.receptions) rfl rfl rfl rfl rfl (le_refl _) ?_
  exact received_setFrame h (le_refl _) (h.received _)

end

/-- The frame that goes to stock when the write buffer is exchanged. -/
def switchedFrame (system : DDBSystem) : FrameOut :=
  ⟨system.switches + 1,(system.ddb.frames system.ddb.bufferWrite).analyseFrame.validEntries⟩

/-- The frames that leave before it: those that were handed out and the one of the worker. -/
def ahead (system : DDBSystem) : List FrameOut :=
  if system.worker = .delivering then [system.frameAt system.ddb.bufferRead] else []

private theorem ahead_sublist : (system.handed.map HandedFrame.frame ++ system.ahead).Sublist system.leaving :=
  (sublist_append_left _ _).append_left _

section
variable (h : DDBInv system)
include h

private theorem pending_exchange : system.exchange.pending = system.ahead ++ [system.switchedFrame] := by
  simp [pending,frameAt,exchange,DDB.exchangeWrite,DDB.analyseWrite,DDB.setFrame,switchedFrame,ahead,h.readWrite]

section
variable (hnew : ∀ entry ∈ system.switchedFrame.entries, system.writeSince < entry.reception)
include hnew

private theorem switchedFrame_after : system.switchedFrame.After system.resetSwitches system.resetReceptions where
  switch := lt_succ_of_le h.resetSwitches
  received entry hentry := lt_of_le_of_lt h.reset (hnew entry hentry)

private theorem before_switchedFrame {frame : FrameOut}
    (hframe : frame ∈ system.leaving) : frame.Before system.switchedFrame where
  switch := lt_succ_of_le (h.switched frame hframe)
  received entry hentry entry' hentry' := lt_of_le_of_lt (h.filled frame hframe entry hentry) (hnew entry' hentry')

theorem ddbInv_exchange : DDBInv system.exchange := by
  have hleaving : system.exchange.leaving =
      system.handed.map HandedFrame.frame ++ system.ahead ++ [system.switchedFrame] := by
    rw [leaving,pending_exchange h,append_assoc]
    rfl
  have hahead : ∀ frame ∈ system.exchange.leaving, frame ∈ system.leaving ∨ frame = system.switchedFrame := by
    intro frame hframe
    rw [hleaving] at hframe
    rcases mem_append.mp hframe with hold | hlast
    · exact .inl ((ahead_sublist).subset hold)
    · exact .inr (mem_singleton.mp hlast)
  have hmax : ∀ entry ∈ system.switchedFrame.entries, entry ∈ (system.ddb.frames system.ddb.bufferWrite).entries ∧
      entry.sample.frameId = DDBFrame.maxFrameId (system.ddb.frames system.ddb.bufferWrite).entries := by
    intro entry hentry
    obtain ⟨hmem,-,hid⟩ := DDBFrame.mem_validEntries_analyseFrame hentry
    exact ⟨hmem,hid⟩
  constructor
  · exact h.readWrite
  · exact h.readStock
  · exact h.stockWrite.symm
  · rw [hleaving,pairwise_append]
    refine ⟨h.ordered.sublist (ahead_sublist),pairwise_singleton _ _,?_⟩
    intro frame hframe last hlast
    rw [mem_singleton.mp hlast]
    exact before_switchedFrame h hnew ((ahead_sublist).subset hframe)
  · intro frame hframe
    rcases hahead frame hframe with hold | rfl
    · exact h.oneFrameId frame hold
    · exact ⟨_,fun entry hentry => (hmax entry hentry).2⟩
  · intro frame hframe
    rcases hahead frame hframe with hold | rfl
    · exact le_succ_of_le (h.switched frame hold)
    · exact le_refl _
  · intro frame hframe entry hentry
    rcases hahead frame hframe with hold | rfl
    · exact le_trans (h.filled frame hold entry hentry) h.since
    · exact h.received _ entry (hmax entry hentry).1
  · intro frame hframe
    rw [pending_exchange h] at hframe
    rcases mem_append.mp hframe with hold | hlast
    · exact h.pending frame (mem_append_left _ hold)
    · rw [mem_singleton.mp hlast]
      exact switchedFrame_after h hnew
  · exact h.handed
  · exact received_setFrame h (le_refl _) (h.received _)
  · exact le_refl _
  · exact le_trans h.reset h.since
  · exact le_succ_of_le h.resetSwitches

end

theorem ddbInv_switchWrite (hnothing : system.NothingLeft) : DDBInv system.switchWrite := by
  unfold switchWrite
  split
  · exact ddbInv_analyseWrite h
  · rename_i hkept
    apply ddbInv_exchange h
    intro entry hentry
    obtain ⟨hmem,hne,hid⟩ := DDBFrame.mem_validEntries_analyseFrame hentry
    exact hnothing (eq_false_of_ne_true hkept) entry hmem hid hne

theorem ddbInv_beginUpdate (sample : DataSample) (hnothing : system.ddb.missedSync sample = true → system.NothingLeft) :
    DDBInv (system.beginUpdate sample) := by
  unfold beginUpdate
  split
  · rename_i hmissed
    have hswitched := ddbInv_switchWrite h (hnothing hmissed)
    exact hswitched.of_frame rfl rfl rfl rfl rfl rfl rfl rfl rfl (le_refl _) hswitched.received
  · exact h.of_frame rfl rfl rfl rfl rfl rfl rfl rfl rfl (le_refl _) h.received

theorem ddbInv_endUpdate (sample : DataSample)
    (hnothing : sample.syncFlag = true → (system.storeSample sample).NothingLeft) :
    DDBInv (system.endUpdate sample) := by
  have hstored := ddbInv_storeSample h sample
  have hswitched : DDBInv (if sample.syncFlag then (system.storeSample sample).switchWrite
      else system.storeSample sample) := by
    split
    · rename_i hsync
      exact ddbInv_switchWrite hstored (hnothing hsync)
    · exact hstored
  exact hswitched.of_frame rfl rfl rfl rfl rfl rfl rfl rfl rfl (le_refl _) hswitched.received

theorem ddbInv_switchRead (hworker : system.worker = .woken) : DDBInv { system with
      ddb := system.ddb.switchReadBuffer.1
      worker := if isOk system.ddb.switchReadBuffer.2 then .delivering else .waiting } := by
  unfold DDB.switchReadBuffer
  cases hfull : system.ddb.stockIsFull with
  | true =>
    have hpending : { system with
        ddb := { system.ddb with
          bufferRead := system.ddb.bufferStock, bufferStock := system.ddb.bufferRead, stockIsFull := false }
        worker := .delivering : DDBSystem }.pending = system.pending := by
      simp [pending,frameAt,hworker,hfull]
    refine h.of_leaving h.readStock.symm h.stockWrite h.readWrite ?_ ?_ h.handed rfl rfl rfl rfl (le_refl _)
      h.received
    · exact congrArg (system.handed.map HandedFrame.frame ++ ·) hpending
    · exact fun frame hframe => h.pending frame (hpending ▸ hframe)
  | false =>
    have hpending : {system with worker := .waiting : DDBSystem}.pending = system.pending := by
      simp [pending,hworker,hfull]
    exact h.of_frame rfl rfl rfl hpending rfl rfl rfl rfl rfl (le_refl _) h.received

theorem ddbInv_deliver (hworker : system.worker = .delivering) : DDBInv system.deliver := by
  have hpending : system.pending = system.frameAt system.ddb.bufferRead::system.deliver.pending := by
    rw [pending,if_pos hworker]
    rfl
  refine h.of_leaving h.readStock h.readWrite h.stockWrite ?_ ?_ ?_ rfl rfl rfl rfl (le_refl _) h.received
  · rw [leaving,leaving,hpending,deliver,map_append,append_assoc]
    rfl
  · exact fun frame hframe => h.pending frame (hpending ▸ mem_cons_of_mem _ hframe)
  · intro handed hhanded
    rcases mem_append.mp hhanded with hold | hlast
    · exact h.handed handed hold
    · rw [mem_singleton.mp hlast]
      exact h.pending _ (hpending ▸ mem_cons_self ..)

theorem ddbInv_reset (hempty : system.ddb.stockIsFull = false)
    (hworker : system.worker ≠ .delivering) : DDBInv system.reset := by
  have hpending : system.reset.pending = [] := by
    simp [pending,reset,DDB.resetData,DDB.invalidateFrame,DDB.setFrame,hempty,hworker]
  have hleaving : ∀ frame ∈ system.reset.leaving, frame ∈ system.leaving := by
    intro frame hframe
    rw [leaving,hpending,append_nil] at hframe
    exact mem_append_left _ hframe
  have hinvalidated : ∀ {ddb : DDB} {receptions : Nat}, (∀ pointer, ∀ entry ∈ (ddb.frames pointer).entries,
      entry.reception ≤ receptions) → ∀ target pointer,
      ∀ entry ∈ ((ddb.invalidateFrame target).frames pointer).entries, entry.reception ≤ receptions := by
    intro ddb receptions hreceived target pointer entry hentry
    simp only [DDB.invalidateFrame,DDB.setFrame] at hentry
    split at hentry
    · obtain ⟨old,-,rfl⟩ := mem_map.mp hentry
      exact zero_le _
    · exact hreceived pointer entry hentry
  constructor
  · exact h.readStock
  · exact h.readWrite
  · exact h.stockWrite
  · rw [leaving,hpending,append_nil]
    exact h.integrity.ordered
  · exact fun frame hframe => h.oneFrameId frame (hleaving frame hframe)
  · exact fun frame hframe => h.switched frame (hleaving frame hframe)
  · exact fun frame hframe entry hentry => le_trans (h.filled frame (hleaving frame hframe) entry hentry) h.since
  · intro frame hframe
    rw [hpending] at hframe
    cases hframe
  · exact h.handed
  · exact hinvalidated (hinvalidated (hinvalidated h.received _) _) _
  · exact le_refl _
  · exact le_refl _
  · exact le_refl _

theorem ddbInv_step (hundisturbed : system.Undisturbed action)
    (hstep : system.step action = some system') : DDBInv system' := by
  cases action with
  | update sample =>
    simp only [step] at hstep
    split at hstep
    · cases hstep
    · split at hstep
      · cases hstep
        exact h
      · split at hstep
        · rename_i hsignal
          cases hstep
          exact ddbInv_beginUpdate h sample (hundisturbed hsignal)
        · cases hstep
          exact h
  | store =>
    obtain ⟨sample,hsample,rfl⟩ := map_eq_some_iff.mp hstep
    exact ddbInv_endUpdate h sample (hundisturbed sample hsample)
  | wake =>
    simp only [step] at hstep
    split at hstep
    · rename_i hworker
      obtain ⟨event,-,rfl⟩ := map_eq_some_iff.mp hstep
      refine h.of_frame rfl rfl rfl ?_ rfl rfl rfl rfl rfl (le_refl _) h.received
      simp [pending,frameAt,hworker]
    · cases hstep
  | switchRead =>
    simp only [step] at hstep
    split at hstep
    · rename_i hworker
      cases hstep
      exact ddbInv_switchRead h hworker
    · cases hstep
  | deliver =>
    simp only [step] at hstep
    split at hstep
    · rename_i hworker
      cases hstep
      exact ddbInv_deliver h hworker
    · cases hstep
  | resetData =>
    simp only [step] at hstep
    split at hstep
    · cases hstep
    · cases hstep
      exact ddbInv_reset h hundisturbed.1 hundisturbed.2

end

/-- In every run that is not disturbed, what the listeners are handed keeps its integrity. -/
theorem frames_keep_integrity {hSignal szMaxEntries : Nat} {memory : List UInt8} {strategy : DDBDeliveryStrategy}
    (hreach : Reaches step Undisturbed (new hSignal szMaxEntries memory strategy) system) : system.Integrity := by
  have hinv : DDBInv system := by
    apply hreach.invariant (ddbInv_new hSignal szMaxEntries memory strategy)
    intro before action after h hundisturbed hstep
    exact ddbInv_step h hundisturbed hstep
  exact hinv.integrity

instance (system : DDBSystem) : Decidable system.NothingLeft :=
  inferInstanceAs (Decidable (_ → ∀ entry ∈ _, _ → _ → _))

instance (system : DDBSystem) (action : DDBAction) : Decidable (system.Undisturbed action) :=
  match action with
  | .update _ => inferInstanceAs (Decidable (_ → _ → _))
  | .store => inferInstanceAs (Decidable (∀ sample ∈ system.receiving, _ → _))
  | .resetData => inferInstanceAs (Decidable (_ ∧ _))
  | .wake | .switchRead | .deliver => inferInstanceAs (Decidable True)

instance (frame other : FrameOut) : Decidable (frame.Before other) :=
  decidable_of_iff (frame.switch < other.switch ∧
      ∀ entry ∈ frame.entries, ∀ entry' ∈ other.entries, entry.reception < entry'.reception)
    ⟨fun h => ⟨h.1,h.2⟩,fun h => ⟨h.1,h.2⟩⟩

private def sampleOf (frameId number : Nat) (sync : Bool) : DataSample := ⟨sync,frameId,number,0,1,[]⟩

/-- A sample is received and, behind a sync flag, its frame handed out. -/
private def handOut (frameId number : Nat) : List DDBAction :=
  [.update (sampleOf frameId number true),.store,.wake,.switchRead,.deliver]

/-- Two frames of two samples and of one, with a reset in between. -/
theorem frames_keep_integrity_two : ∃ system : DDBSystem,
    Reaches step Undisturbed (new 1 2 [] .deliverIncomplete) system ∧
      system.handed.map (fun handed => handed.frame.entries.map (·.sample.frameId)) = [[1,1],[2]] ∧
      system.Integrity := by
  obtain ⟨system,hreach,htwo⟩ : ∃ system, Reaches step Undisturbed (new 1 2 [] .deliverIncomplete) system ∧
      system.handed.map (fun handed => handed.frame.entries.map (·.sample.frameId)) = [[1,1],[2]] :=
    exists_of_runAllowed ([DDBAction.update (sampleOf 1 0 false),.store] ++ handOut 1 1 ++ [DDBAction.resetData] ++
      handOut 2 0) (by decide +kernel)
  exact ⟨system,hreach,htwo,frames_keep_integrity hreach⟩

/-- A frame switched before a reset is handed out behind it, and a frame id that goes back hands out an old frame's
sample again in place of the new one. -/
theorem old_frames_handed_out : (∃ system : DDBSystem, Reaches step anyAction (new 1 2 [] .deliverIncomplete) system ∧
      (∃ handed ∈ system.handed, handed.frame.switch ≤ handed.resetSwitches) ∧ ¬system.Integrity) ∧
    ∃ system : DDBSystem, Reaches step anyAction (new 1 2 [] .deliverIncomplete) system ∧
      system.handed.map (fun handed => handed.frame.entries.map DDBEntry.reception) = [[1],[2],[3],[1]] ∧
      ¬system.Integrity := by
  constructor
  · obtain ⟨system,hreach,handed,hmem,hle⟩ : ∃ system, Reaches step anyAction (new 1 2 [] .deliverIncomplete) system ∧
        ∃ handed ∈ system.handed, handed.frame.switch ≤ handed.resetSwitches :=
      exists_of_runActions [.update (sampleOf 1 0 true),.store,.resetData,.wake,.switchRead,.deliver]
        (by decide +kernel)
    refine ⟨system,hreach,⟨handed,hmem,hle⟩,?_⟩
    intro hintegrity
    exact Nat.not_lt_of_le hle (hintegrity.afterReset handed hmem).switch
  · obtain ⟨system,hreach,hreceptions,hordered⟩ :
        ∃ system, Reaches step anyAction (new 1 2 [] .deliverIncomplete) system ∧
          system.handed.map (fun handed => handed.frame.entries.map DDBEntry.reception) = [[1],[2],[3],[1]] ∧
          ¬(system.handed.map HandedFrame.frame).Pairwise FrameOut.Before :=
      exists_of_runActions (handOut 5 0 ++ handOut 6 0 ++ handOut 7 0 ++ handOut 3 1) (by decide +kernel)
    exact ⟨system,hreach,hreceptions,fun hintegrity => hordered hintegrity.ordered⟩

/-- The signals of frames that are ready: those in the semaphore, and the one the worker has taken and not answered
with its exchange. -/
def readySignals (system : DDBSystem) : Nat := system.ddb.eventFrameReady + if system.worker = .woken then 1 else 0

/-- The pointers denote three buffers, and one signal is pending exactly for a full stock. -/
structure TripleBuffer (system : DDBSystem) : Prop where
  differ : [system.ddb.bufferRead,system.ddb.bufferStock,system.ddb.bufferWrite].Nodup
  signals : system.readySignals = if system.ddb.stockIsFull then 1 else 0

structure WriteStep (system system' : DDBSystem) : Prop where
  buffers : system.TripleBuffer → system'.TripleBuffer
  read : system'.ddb.bufferRead = system.ddb.bufferRead
  frames : ∀ pointer ≠ system.ddb.bufferWrite, system'.ddb.frames pointer = system.ddb.frames pointer

private theorem writeStep_switchWrite : system.WriteStep system.switchWrite := by
  rw [switchWrite]
  split
  · exact ⟨fun h => ⟨h.differ,h.signals⟩,rfl,fun pointer hpointer => if_neg hpointer⟩
  · refine ⟨fun h => ⟨(List.Perm.swap ..).cons _ |>.nodup h.differ,?_⟩,rfl,fun pointer hpointer => if_neg hpointer⟩
    have hsignals := h.signals
    cases hfull : system.ddb.stockIsFull <;>
      simp_all [readySignals,exchange,DDB.exchangeWrite,DDB.analyseWrite,DDB.setFrame,CountingSemaphore.notify]

private theorem writeStep_storeSample (system : DDBSystem) (sample : DataSample) :
    system.WriteStep (system.storeSample sample) :=
  ⟨fun h => ⟨h.differ,h.signals⟩,rfl,fun _ hpointer => if_neg hpointer⟩

/-- A sample is received: the worker's buffer is not touched. -/
theorem writeStep_of_step (sample : DataSample) (haction : action = .update sample ∨ action = .store)
    (hstep : system.step action = some system') : system.WriteStep system' := by
  have hsame : system.WriteStep system := ⟨id,rfl,fun _ _ => rfl⟩
  rcases haction with rfl | rfl
  · simp only [step] at hstep
    split at hstep
    · cases hstep
    · split at hstep
      · exact some.inj hstep ▸ hsame
      · split at hstep
        · cases hstep
          rw [beginUpdate]
          split
          · have h := system.writeStep_switchWrite
            exact ⟨fun hbuffers => ⟨(h.buffers hbuffers).differ,(h.buffers hbuffers).signals⟩,h.read,h.frames⟩
          · exact ⟨fun h => ⟨h.differ,h.signals⟩,rfl,fun _ _ => rfl⟩
        · exact some.inj hstep ▸ hsame
  · obtain ⟨stored,-,rfl⟩ := map_eq_some_iff.mp hstep
    have hstored := system.writeStep_storeSample stored
    have hswitched : system.WriteStep
        (if stored.syncFlag then (system.storeSample stored).switchWrite else system.storeSample stored) := by
      split
      · have h := (system.storeSample stored).writeStep_switchWrite
        exact ⟨h.buffers ∘ hstored.buffers,h.read.trans hstored.read,
          fun pointer hpointer => (h.frames pointer hpointer).trans (hstored.frames pointer hpointer)⟩
      · exact hstored
    exact ⟨fun h => ⟨(hswitched.buffers h).differ,(hswitched.buffers h).signals⟩,hswitched.read,hswitched.frames⟩

theorem TripleBuffer.step (h : system.TripleBuffer) (hstep : system.step action = some system') :
    system'.TripleBuffer := by
  have hsignals := h.signals
  cases action with
  | update sample => exact (writeStep_of_step sample (.inl rfl) hstep).buffers h
  | store => exact (writeStep_of_step ⟨false,0,0,0,0,[]⟩ (.inr rfl) hstep).buffers h
  | wake =>
    simp only [DDBSystem.step] at hstep
    split at hstep
    · obtain ⟨event,hevent,rfl⟩ := map_eq_some_iff.mp hstep
      have hcount := CountingSemaphore.count_of_tryWait hevent
      refine ⟨h.differ,?_⟩
      simp_all [readySignals,CountingSemaphore.count]
    · cases hstep
  | switchRead =>
    simp only [DDBSystem.step] at hstep
    split at hstep
    · cases hstep
      rw [DDB.switchReadBuffer]
      split
      · exact ⟨(List.Perm.swap ..).nodup h.differ,by simp_all [readySignals,isOk]⟩
      · simp_all [readySignals]
    · cases hstep
  | deliver =>
    simp only [DDBSystem.step] at hstep
    split at hstep
    · cases hstep
      refine ⟨h.differ,Eq.trans ?_ hsignals⟩
      simp_all [readySignals,deliver]
    · cases hstep
  | resetData =>
    simp only [DDBSystem.step] at hstep
    split at hstep
    · cases hstep
    · cases hstep
      exact ⟨h.differ,h.signals⟩

/-- In every run the three pointers denote three buffers and one signal is pending exactly for a full stock. The
buffer the worker reads is written by nobody but `ResetData`, which invalidates it. -/
theorem read_buffer_apart {hSignal szMaxEntries : Nat} {memory : List UInt8} {strategy : DDBDeliveryStrategy}
    (h : Reaches step anyAction (new hSignal szMaxEntries memory strategy) system) :
    system.TripleBuffer ∧ ∀ action system', system.step action = some system' → action ≠ .switchRead →
      system'.ddb.bufferRead = system.ddb.bufferRead ∧ system'.ddb.frames system.ddb.bufferRead = if action = .resetData
          then (system.ddb.frames system.ddb.bufferRead).invalidateData
          else system.ddb.frames system.ddb.bufferRead := by
  have hbuffers : system.TripleBuffer :=
    h.invariant ⟨by simp [new,DDB.createEntry],rfl⟩ fun _ _ _ hbuffers _ hstep => hbuffers.step hstep
  refine ⟨hbuffers,fun action system' hstep hswitch => ?_⟩
  have hread : system.ddb.bufferRead ≠ system.ddb.bufferWrite := by
    have hdiffer := hbuffers.differ
    simp_all
  cases action with
  | update sample =>
    have hwrites := writeStep_of_step sample (.inl rfl) hstep
    exact ⟨hwrites.read,hwrites.frames _ hread⟩
  | store =>
    have hwrites := writeStep_of_step (sampleOf 0 0 false) (.inr rfl) hstep
    exact ⟨hwrites.read,hwrites.frames _ hread⟩
  | wake =>
    simp only [step] at hstep
    split at hstep
    · obtain ⟨event,-,rfl⟩ := map_eq_some_iff.mp hstep
      exact ⟨rfl,rfl⟩
    · cases hstep
  | switchRead => exact absurd rfl hswitch
  | deliver =>
    simp only [step] at hstep
    split at hstep
    · cases hstep
      exact ⟨rfl,rfl⟩
    · cases hstep
  | resetData =>
    simp only [step] at hstep
    split at hstep
    · cases hstep
    · cases hstep
      have hdiffer := hbuffers.differ
      refine ⟨rfl,?_⟩
      simp_all [reset,DDB.resetData,DDB.invalidateFrame,DDB.setFrame]

/-- A buffer that was filled and exchanged. -/
theorem read_buffer_apart_exchanged : ∃ system : DDBSystem,
    Reaches step anyAction (new 1 2 [] .deliverIncomplete) system ∧ system.TripleBuffer :=
  ⟨_,@reaches_of_runActions _ _ step (new 1 2 [] .deliverIncomplete) _ [.update (sampleOf 1 0 true),.store,.wake]
    rfl,(read_buffer_apart (@reaches_of_runActions _ _ step (new 1 2 [] .deliverIncomplete) _
      [.update (sampleOf 1 0 true),.store,.wake] rfl)).1⟩

/-- A reset between the exchange and the delivery invalidates the sample in the buffer the worker is about to read. -/
theorem read_buffer_invalidated : ∃ system system' : DDBSystem,
    Reaches step anyAction (new 1 2 [] .deliverIncomplete) system ∧ system.worker = .delivering ∧
      system.step .resetData = some system' ∧
      (system.ddb.frames system.ddb.bufferRead).validEntries ≠ [] ∧
      (system'.ddb.frames system.ddb.bufferRead).validEntries = [] :=
  ⟨_,_,@reaches_of_runActions _ _ step (new 1 2 [] .deliverIncomplete) _
    [.update (sampleOf 1 0 true),.store,.wake,.switchRead] rfl,rfl,rfl,by decide +kernel,by decide +kernel⟩

end DDBSystem
end FepParticipant.DistributedDataBuffer
