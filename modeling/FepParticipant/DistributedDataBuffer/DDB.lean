import FepParticipant.Transmission.Transmitter
import FepParticipant.Library.CountingSemaphore

/-! The frames in which the distributed data buffer collects samples. -/
namespace FepParticipant.DistributedDataBuffer
open Transmission Library

/-- A preallocated sample of a frame with the number of the reception whose content it has, 0 before any. -/
structure DDBEntry where
  sample : DataSample
  reception : Nat

/-- `cDDBFrame`; the maximum size is the number of its entries. -/
structure DDBFrame where
  entries : List DDBEntry
  validity : List Bool
  frameSize : Nat
  validCount : Nat
  frameId : Nat
  isCurrent : Bool

namespace DDBFrame
variable (frame : DDBFrame)
variable {entry : DDBEntry}

/-- `InitMemory`. -/
def initMemory (szMaxEntries : Nat) (memory : List UInt8) : DDBFrame where
  entries := List.replicate szMaxEntries ⟨DataSample.create 0 memory,0⟩
  validity := List.replicate szMaxEntries false
  frameSize := 0
  validCount := 0
  frameId := 0
  isCurrent := false

def getMaxSize : Nat := frame.entries.length

def getValidCount : Nat := if frame.isCurrent then frame.validCount else 0

def getFrameSize : Nat := if frame.isCurrent then frame.frameSize else 0

def isComplete : Bool := !(frame.getMaxSize == 0 || !frame.isCurrent || frame.frameSize != frame.validCount)

def getSample (nId : Nat) : Option DDBEntry :=
  if frame.isCurrent && (frame.validity[nId]?).any id then frame.entries[nId]? else none

/-- The samples a listener finds in the frame. -/
def validEntries : List DDBEntry := (List.range frame.getMaxSize).filterMap frame.getSample

def maxFrameId (entries : List DDBEntry) : Nat :=
  entries.foldl (fun frameId entry => if frameId < entry.sample.frameId then entry.sample.frameId else frameId) 0

def frameSizeOf (entries : List DDBEntry) (frameId : Nat) : Nat :=
  entries.zipIdx.foldl (fun frameSize (entry,nIt) =>
    if entry.sample.frameId = frameId then if entry.sample.syncFlag then nIt + 1 else nIt + 2
    else frameSize) 0

def analyseFrame : DDBFrame :=
  let frameId := maxFrameId frame.entries
  { frame with
    frameId := frameId
    validity := frame.entries.map fun entry => frameId != 0 && entry.sample.frameId == frameId
    validCount := if frameId ≠ 0 then frame.entries.countP (·.sample.frameId == frameId) else 0
    frameSize := if frameId ≠ 0 then frameSizeOf frame.entries frameId else 0
    isCurrent := true }

def setSample (entry : DDBEntry) (nSampleNumber : Nat) : DDBFrame × Result :=
  if nSampleNumber < frame.getMaxSize then
    ({frame with entries := frame.entries.set nSampleNumber entry, isCurrent := false},.errNoError)
  else (frame,.errMemory)

/-- A sample after `InvalidateData`. -/
def invalidateEntry (entry : DDBEntry) : DDBEntry where
  sample :=
    { syncFlag := false
      frameId := 0
      sampleNumberInFrame := 0
      timeStamp := 0
      signalHandle := 0
      memory := List.replicate entry.sample.memory.length 0 }
  reception := 0

def invalidateData : DDBFrame :=
  { frame with
    entries := frame.entries.map invalidateEntry
    validity := frame.validity.map fun _ => false
    frameSize := 0
    validCount := 0
    isCurrent := false }

private theorem mem_validEntries {frame : DDBFrame} (h : entry ∈ frame.validEntries) :
    frame.isCurrent = true ∧ ∃ nId : Nat, frame.validity[nId]? = some true ∧ frame.entries[nId]? = some entry := by
  obtain ⟨nId,-,hget⟩ := List.mem_filterMap.mp h
  rw [getSample] at hget
  split at hget
  · rename_i hvalid
    rw [Bool.and_eq_true,Option.any_eq_true] at hvalid
    obtain ⟨hcurrent,valid,hvalidity,hid⟩ := hvalid
    exact ⟨hcurrent,nId,hvalidity.trans (congrArg some hid),hget⟩
  · cases hget

theorem mem_validEntries_analyseFrame {frame : DDBFrame} (h : entry ∈ frame.analyseFrame.validEntries) :
    entry ∈ frame.entries ∧ maxFrameId frame.entries ≠ 0 ∧ entry.sample.frameId = maxFrameId frame.entries := by
  obtain ⟨-,nId,hvalidity,hentry⟩ := mem_validEntries h
  have hget : frame.entries[nId]? = some entry := hentry
  simp only [analyseFrame,List.getElem?_map,hget,Option.map_some,Option.some.injEq,
    Bool.and_eq_true,bne_iff_ne,beq_iff_eq] at hvalidity
  exact ⟨List.mem_of_getElem? hget,hvalidity⟩

theorem mem_setSample {frame : DDBFrame} {entry other : DDBEntry} {nSampleNumber : Nat}
    (h : other ∈ (frame.setSample entry nSampleNumber).1.entries) : other = entry ∨ other ∈ frame.entries := by
  unfold setSample at h
  split at h
  · exact (List.mem_or_eq_of_mem_set h).symm
  · exact .inr h

end DDBFrame

inductive DDBDeliveryStrategy where
  | dumpIncomplete
  | deliverIncomplete
  deriving DecidableEq

/-- The frame behind a pointer. -/
abbrev Frames := Nat → DDBFrame

/-- `cDDB`; the three frames stand at the addresses 0, 1 and 2. -/
structure DDB where
  hSignal : Nat
  frames : Frames
  bufferRead : Nat
  bufferStock : Nat
  bufferWrite : Nat
  stockIsFull : Bool
  deliverStrategy : DDBDeliveryStrategy
  prevFrameId : Nat
  prevSampleNumber : Nat
  prevSyncFlag : Bool
  eventFrameReady : Nat

namespace DDB

variable (ddb : DDB)

/-- `CreateEntry` on a new buffer. -/
def createEntry (hSignal szMaxEntries : Nat) (memory : List UInt8) (strategy : DDBDeliveryStrategy) : DDB where
  hSignal := hSignal
  frames := fun _ => DDBFrame.initMemory szMaxEntries memory
  bufferRead := 0
  bufferStock := 1
  bufferWrite := 2
  stockIsFull := false
  deliverStrategy := strategy
  prevFrameId := 0
  prevSampleNumber := 0
  prevSyncFlag := true
  eventFrameReady := 0

def setFrame (pointer : Nat) (frame : DDBFrame) : DDB :=
  {ddb with frames := fun other => if other = pointer then frame else ddb.frames other}

/-- The call of `AnalyseFrame` for the write buffer. -/
def analyseWrite : DDB := ddb.setFrame ddb.bufferWrite (ddb.frames ddb.bufferWrite).analyseFrame

/-- The check of the delivery strategy in `SwitchWriteBuffer`. -/
def refusesFrame : Bool :=
  ddb.deliverStrategy == .dumpIncomplete &&
    (ddb.frames ddb.bufferWrite).getValidCount != (ddb.frames ddb.bufferWrite).getFrameSize

/-- `SwitchWriteBuffer` with an analysed frame that is not refused. -/
def exchangeWrite : DDB :=
  { ddb with
    bufferStock := ddb.bufferWrite
    bufferWrite := ddb.bufferStock
    eventFrameReady := if ddb.stockIsFull then ddb.eventFrameReady else CountingSemaphore.notify ddb.eventFrameReady
    stockIsFull := true }

/-- `SwitchReadBuffer`. -/
def switchReadBuffer : DDB × Result :=
  if ddb.stockIsFull then
    ({ddb with bufferRead := ddb.bufferStock, bufferStock := ddb.bufferRead, stockIsFull := false},.errNoError)
  else (ddb,.errEmpty)

/-- The check for a missed sync flag in `Update`. -/
def missedSync (sample : DataSample) : Bool := decide (ddb.prevFrameId < sample.frameId) && !ddb.prevSyncFlag

def setSample (sample : DataSample) (reception : Nat) : DDB :=
  ddb.setFrame ddb.bufferWrite
    ((ddb.frames ddb.bufferWrite).setSample ⟨sample,reception⟩ sample.sampleNumberInFrame).1

def remember (sample : DataSample) : DDB :=
  { ddb with
    prevFrameId := sample.frameId
    prevSampleNumber := sample.sampleNumberInFrame
    prevSyncFlag := sample.syncFlag }

def invalidateFrame (pointer : Nat) : DDB := ddb.setFrame pointer (ddb.frames pointer).invalidateData

def resetData : DDB :=
  { ((ddb.invalidateFrame ddb.bufferRead).invalidateFrame ddb.bufferStock).invalidateFrame ddb.bufferWrite with
    prevFrameId := 0
    prevSampleNumber := 0
    prevSyncFlag := true }

end DDB

/-- Where the worker thread is: waiting for the event, behind it, or with a new read buffer. -/
inductive DDBWorker where
  | waiting
  | woken
  | delivering
  deriving DecidableEq

/-- A frame as it leaves: the switch of the write buffer that it comes from and its samples. -/
structure FrameOut where
  switch : Nat
  entries : List DDBEntry

/-- A call of `ProcessDDBSync`, with the switches and the receptions before the last reset. -/
structure HandedFrame where
  frame : FrameOut
  resetSwitches : Nat
  resetReceptions : Nat

/-- The buffer, the sample whose `Update` is going on, the worker, and the history: the samples received, the frames
switched and handed out, the last switch of each, and the reception since which the write buffer is one. -/
structure DDBSystem where
  ddb : DDB
  receiving : Option DataSample
  worker : DDBWorker
  receptions : Nat
  switches : Nat
  resetReceptions : Nat
  resetSwitches : Nat
  switchOf : Nat → Nat
  writeSince : Nat
  handed : List HandedFrame

/-- What the threads do between two lock operations. -/
inductive DDBAction where
  | update (sample : DataSample)
  | store
  | wake
  | switchRead
  | deliver
  | resetData
  deriving DecidableEq

namespace DDBSystem

variable (system : DDBSystem)

def new (hSignal szMaxEntries : Nat) (memory : List UInt8) (strategy : DDBDeliveryStrategy) : DDBSystem where
  ddb := DDB.createEntry hSignal szMaxEntries memory strategy
  receiving := none
  worker := .waiting
  receptions := 0
  switches := 0
  resetReceptions := 0
  resetSwitches := 0
  switchOf := fun _ => 0
  writeSince := 0
  handed := []

def exchange : DDBSystem :=
  { system with
    ddb := system.ddb.analyseWrite.exchangeWrite
    switches := system.switches + 1
    switchOf := fun other => if other = system.ddb.bufferWrite then system.switches + 1 else system.switchOf other
    writeSince := system.receptions }

/-- `AnalyseFrame` and `SwitchWriteBuffer`. -/
def switchWrite : DDBSystem :=
  if system.ddb.analyseWrite.refusesFrame then {system with ddb := system.ddb.analyseWrite} else system.exchange

/-- `Update` up to the check for a missed sync flag. -/
def beginUpdate (sample : DataSample) : DDBSystem :=
  if system.ddb.missedSync sample then {system.switchWrite with receiving := some sample}
  else {system with receiving := some sample}

def storeSample (sample : DataSample) : DDBSystem :=
  { system with
    ddb := system.ddb.setSample sample (system.receptions + 1)
    receptions := system.receptions + 1 }

/-- The rest of `Update`. -/
def endUpdate (sample : DataSample) : DDBSystem :=
  let stored := system.storeSample sample
  let switched := if sample.syncFlag then stored.switchWrite else stored
  {switched with ddb := switched.ddb.remember sample, receiving := none}

def frameAt (pointer : Nat) : FrameOut := ⟨system.switchOf pointer,(system.ddb.frames pointer).validEntries⟩

def deliver : DDBSystem :=
  { system with
    worker := .waiting
    handed := system.handed ++
      [⟨system.frameAt system.ddb.bufferRead,system.resetSwitches,system.resetReceptions⟩] }

def reset : DDBSystem :=
  { system with
    ddb := system.ddb.resetData
    resetReceptions := system.receptions
    resetSwitches := system.switches
    writeSince := system.receptions }

/-- `Update` holds the lock of the write buffer, so no other one and no reset begins in between; `ResetData` and the
delivery exclude each other. -/
def step (system : DDBSystem) : DDBAction → Option DDBSystem
  | .update sample =>
    if system.receiving.isSome then none
    else if system.ddb.hSignal = 0 ∨ (system.ddb.frames system.ddb.bufferWrite).getMaxSize = 0 then some system
    else if sample.signalHandle = system.ddb.hSignal then some (system.beginUpdate sample)
    else some system
  | .store => system.receiving.map system.endUpdate
  | .wake =>
    if system.worker = .waiting then
      (CountingSemaphore.tryWait system.ddb.eventFrameReady).map fun event =>
        {system with ddb := {system.ddb with eventFrameReady := event}, worker := .woken}
    else none
  | .switchRead =>
    if system.worker = .woken then
      let (ddb,result) := system.ddb.switchReadBuffer
      some {system with ddb := ddb, worker := if isOk result then .delivering else .waiting}
    else none
  | .deliver => if system.worker = .delivering then some system.deliver else none
  | .resetData => if system.receiving.isSome then none else some system.reset

end DDBSystem
end FepParticipant.DistributedDataBuffer
