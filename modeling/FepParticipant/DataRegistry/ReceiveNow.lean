import FepParticipant.DataRegistry.QueueRefinement
import Mathlib.Data.List.TakeWhile

/-! A data reader, which takes the items out of its queue up to a time. A stream type lies in the queue with the time
that stands for an empty queue. -/
namespace FepParticipant.DataRegistry
open Library List Option DataItemQueue

variable {α β : Type}

/-- The calls of `DataReaderQueue::onReceive`. The pointers are not null. -/
inductive OnReceive (α β : Type) where
  | sample (content : α)
  | streamType (type : β)
  deriving DecidableEq

/-- What the receiver is handed of a call. -/
def OnReceive.received : OnReceive α β → Received α β
  | sample content => .sample (some content)
  | streamType type => .streamType (some type)

/-- The time of the call satisfies a bound. A stream type has none that could not. -/
def OnReceive.due (getTime : α → Int) (satisfies : Int → Bool) : OnReceive α β → Bool
  | sample content => satisfies (getTime content)
  | streamType _ => true

namespace DataItemQueue

/-- `onReceive` of the reader's queue; `invalid` is `INVALID_timestamp_t_fep`. -/
def onReceive (invalid : Int) (getTime : α → Int) (queue : DataItemQueue α β) :
    OnReceive α β → Option (DataItemQueue α β)
  | .sample content => queue.push (some content) (getTime content)
  | .streamType type => queue.pushType (some type) invalid

/-- The loop of `receiveNow`, with what the receiver is handed. The two calls of `getNextTime` are one after the
other. -/
def receiveWhile (invalid : Int) (satisfies : Int → Bool) :
    Nat → DataItemQueue α β → Option (DataItemQueue α β × List (Received α β))
  | 0, _ => none
  | fuel + 1, queue => do
    let (queue,nextTime) ← queue.topTime invalid
    if nextTime = invalid then return (queue,[])
    let (queue,nextTime) ← queue.topTime invalid
    if !satisfies nextTime then return (queue,[])
    let (queue,read,received) ← queue.popTo
    if !read then return (queue,received)
    let (queue,later) ← receiveWhile invalid satisfies fuel queue
    return (queue,received ++ later)

def receiveNow (invalid : Int) (queue : DataItemQueue α β) (timeOfUpdate : Int) :
    Option (DataItemQueue α β × List (Received α β)) :=
  queue.receiveWhile invalid (fun nextTime => decide (nextTime < timeOfUpdate)) (queue.currentSize + 1)

def receiveNowFEP22Compatible (invalid : Int) (queue : DataItemQueue α β) (timeOfUpdate : Int) :
    Option (DataItemQueue α β × List (Received α β)) :=
  queue.receiveWhile invalid (fun nextTime => decide (nextTime ≤ timeOfUpdate)) (queue.currentSize + 1)

end DataItemQueue

def OnReceive.item (invalid : Int) (getTime : α → Int) : OnReceive α β → Item α β
  | sample content => .sample (some content) (getTime content)
  | streamType type => .streamType (some type) invalid

/-- The receiver is handed what was received before the first sample whose time exceeds the bound; the queue holds
the rest. -/
def Drains (invalid : Int) (getTime : α → Int) (satisfies : Int → Bool) (calls : List (OnReceive α β))
    (outcome : Option (DataItemQueue α β × List (Received α β))) : Prop :=
  ∃ queue, outcome = some (queue,(calls.takeWhile (OnReceive.due getTime satisfies)).map OnReceive.received) ∧
    queue.Represents ((calls.dropWhile (OnReceive.due getTime satisfies)).map (OnReceive.item invalid getTime))

namespace DataItemQueue
variable {queue : DataItemQueue α β} {items : List (Item α β)} {invalid : Int} {getTime : α → Int}
  {satisfies : Int → Bool}

/-- The loop stops at an item whose time is the invalid one or does not satisfy the bound. -/
def Passes (invalid : Int) (satisfies : Int → Bool) (item : Item α β) : Bool :=
  !(item.time == invalid) && satisfies item.time

private theorem Represents.popTo {first : Item α β} (h : queue.Represents (first::items)) :
    ∃ queue' : DataItemQueue α β, queue.popTo = some (queue',true,[first.received]) ∧ queue'.Represents items := by
  obtain ⟨queue',htake,-,hrepresents⟩ := h.take DataItem.resetReceived
  refine ⟨queue',?_,hrepresents⟩
  rw [DataItemQueue.popTo,htake,← Item.onReceive_toDataItem]
  rfl

theorem Represents.receiveWhile (h : queue.Represents items) {fuel : Nat} (hfuel : items.length < fuel) :
    ∃ queue', queue.receiveWhile invalid satisfies fuel =
        some (queue',(items.takeWhile (Passes invalid satisfies)).map Item.received) ∧
      queue'.Represents (items.dropWhile (Passes invalid satisfies)) := by
  induction fuel generalizing queue items with
  | zero => exact absurd hfuel (Nat.not_lt_zero _)
  | succ fuel ih =>
    obtain ⟨queue₁,htime₁,-,h₁⟩ := h.topTime invalid
    obtain ⟨queue₂,htime₂,-,h₂⟩ := h₁.topTime invalid
    rw [DataItemQueue.receiveWhile,htime₁]
    simp only [bind_eq_bind,bind_some]
    cases items with
    | nil => exact ⟨queue₁,if_pos rfl,h₁⟩
    | cons first items =>
      have htop : ((first::items).head?.map Item.time).getD invalid = first.time := rfl
      rw [htop] at htime₂ ⊢
      by_cases hinvalid : first.time = invalid
      · have hstop : ¬Passes invalid satisfies first = true := by simp [Passes,hinvalid]
        rw [if_pos hinvalid,takeWhile_cons_of_neg hstop,dropWhile_cons_of_neg hstop]
        exact ⟨queue₁,rfl,h₁⟩
      · rw [if_neg hinvalid,htime₂]
        simp only [bind_some]
        by_cases hsatisfies : satisfies first.time = true
        · have hpass : Passes invalid satisfies first = true := by simp [Passes,hinvalid,hsatisfies]
          obtain ⟨queue₃,hpop,h₃⟩ := h₂.popTo
          obtain ⟨queue',hlater,h'⟩ := ih h₃ (by rw [length_cons] at hfuel; omega)
          refine ⟨queue',?_,?_⟩
          · rw [hsatisfies,Bool.not_true,if_neg Bool.false_ne_true,hpop,takeWhile_cons_of_pos hpass]
            simp only [bind_some,Bool.not_true,Bool.false_eq_true,if_false,hlater]
            rfl
          · rw [dropWhile_cons_of_pos hpass]
            exact h'
        · have hstop : ¬Passes invalid satisfies first = true := by simp [Passes,hsatisfies]
          rw [Bool.not_eq_true] at hsatisfies
          rw [hsatisfies,Bool.not_false,if_pos rfl,takeWhile_cons_of_neg hstop,dropWhile_cons_of_neg hstop]
          exact ⟨queue₂,rfl,h₂⟩

theorem Represents.foldlM_onReceive (h : queue.Represents items) (calls : List (OnReceive α β))
    (hfits : items.length + calls.length ≤ queue.items.length) :
    ∃ queue', calls.foldlM (onReceive invalid getTime) queue = some queue' ∧
      queue'.Represents (items ++ calls.map (OnReceive.item invalid getTime)) := by
  induction calls generalizing queue items with
  | nil => exact ⟨queue,rfl,by rwa [map_nil,append_nil]⟩
  | cons call calls ih =>
    obtain ⟨queue₁,hstore,hlength,h₁⟩ : ∃ queue₁ : DataItemQueue α β,
        queue.onReceive invalid getTime call = some queue₁ ∧
        queue₁.items.length = queue.items.length ∧
        queue₁.Represents (addBounded queue.items.length items (call.item invalid getTime)) := by
      cases call with
      | sample content => exact h.store fun _ => rfl
      | streamType type => exact h.store fun _ => rfl
    rw [length_cons] at hfits
    rw [addBounded,keepLast_of_le (by rw [length_append,length_singleton]; omega)] at h₁
    obtain ⟨queue',hfold,h'⟩ := ih h₁ (by rw [length_append,length_singleton]; omega)
    refine ⟨queue',?_,?_⟩
    · rw [foldlM_cons,hstore]
      exact hfold
    · rwa [append_assoc] at h'

end DataItemQueue

section
variable {invalid : Int} {getTime : α → Int} {satisfies : Int → Bool} {calls : List (OnReceive α β)} {capacity : Nat}
  {queue : DataItemQueue α β}

def OnReceive.passes (invalid : Int) (getTime : α → Int) (satisfies : Int → Bool) (call : OnReceive α β) : Bool :=
  DataItemQueue.Passes invalid satisfies (call.item invalid getTime)

private theorem OnReceive.passes_streamType (type : β) :
    ¬OnReceive.passes invalid getTime satisfies (.streamType type : OnReceive α β) = true := by
  simp [passes,item,DataItemQueue.Passes,Item.time]

private theorem OnReceive.passes_sample {content : α} (hvalid : getTime content ≠ invalid) :
    OnReceive.passes invalid getTime satisfies (.sample content : OnReceive α β) = satisfies (getTime content) := by
  simp [passes,item,DataItemQueue.Passes,Item.time,hvalid]

theorem takeWhile_passes_iff (hvalid : ∀ content, OnReceive.sample content ∈ calls → getTime content ≠ invalid) :
    calls.takeWhile (OnReceive.passes invalid getTime satisfies) = calls.takeWhile (OnReceive.due getTime satisfies) ↔
      ∀ type, OnReceive.streamType type ∉ calls.takeWhile (OnReceive.due getTime satisfies) := by
  constructor
  · intro h type hmem
    rw [← h] at hmem
    exact OnReceive.passes_streamType type (mem_takeWhile_imp hmem)
  · intro h
    induction calls with
    | nil => rfl
    | cons call calls ih =>
      cases call with
      | streamType type =>
        refine absurd ?_ (h type)
        exact mem_cons_self
      | sample content =>
        have hpasses : OnReceive.passes invalid getTime satisfies (.sample content : OnReceive α β) =
            OnReceive.due getTime satisfies (.sample content : OnReceive α β) :=
          OnReceive.passes_sample (hvalid content mem_cons_self)
        by_cases hdue : OnReceive.due getTime satisfies (.sample content : OnReceive α β) = true
        · rw [takeWhile_cons_of_pos hdue] at h ⊢
          rw [takeWhile_cons_of_pos (hpasses.trans hdue),ih (fun other hother =>
            hvalid other (mem_cons_of_mem _ hother)) fun type hmem => h type (mem_cons_of_mem _ hmem)]
        · rw [takeWhile_cons_of_neg (hpasses ▸ hdue),takeWhile_cons_of_neg hdue]

private theorem received_injective : Function.Injective (OnReceive.received : OnReceive α β → Received α β) := by
  intro a b h
  cases a <;> cases b <;> cases h <;> rfl

theorem drains_receiveWhile_iff
    (hqueue : calls.foldlM (DataItemQueue.onReceive invalid getTime) (.create capacity) = some queue)
    (hfits : calls.length ≤ (DataItemQueue.create capacity : DataItemQueue α β).capacity)
    (hvalid : ∀ content, OnReceive.sample content ∈ calls → getTime content ≠ invalid) :
    Drains invalid getTime satisfies calls (queue.receiveWhile invalid satisfies (queue.currentSize + 1)) ↔
      ∀ type, OnReceive.streamType type ∉ calls.takeWhile (OnReceive.due getTime satisfies) := by
  obtain ⟨queue',hfold,hrepresents⟩ : ∃ queue' : DataItemQueue α β,
      calls.foldlM (DataItemQueue.onReceive invalid getTime) (.create capacity) = some queue' ∧
        queue'.Represents ([] ++ calls.map (OnReceive.item invalid getTime)) :=
    (represents_create capacity).foldlM_onReceive calls (by rw [length_nil,Nat.zero_add]; exact hfits)
  cases hqueue.symm.trans hfold
  rw [nil_append] at hrepresents
  have hfuel : (calls.map (OnReceive.item invalid getTime)).length < queue.currentSize + 1 :=
    hrepresents.size ▸ Nat.lt_succ_self _
  obtain ⟨after,hloop,hafter⟩ : ∃ after : DataItemQueue α β,
      queue.receiveWhile invalid satisfies (queue.currentSize + 1) =
        some (after,(calls.takeWhile (OnReceive.passes invalid getTime satisfies)).map OnReceive.received) ∧
      after.Represents
        ((calls.dropWhile (OnReceive.passes invalid getTime satisfies)).map (OnReceive.item invalid getTime)) := by
    obtain ⟨after,hloop,hafter⟩ := @DataItemQueue.Represents.receiveWhile _ _ _ _ invalid satisfies hrepresents _ hfuel
    rw [takeWhile_map,List.map_map] at hloop
    rw [dropWhile_map] at hafter
    refine ⟨after,hloop.trans (congrArg (fun received => some (after,received)) ?_),hafter⟩
    exact map_congr_left fun call _ => by cases call <;> rfl
  rw [hloop,← takeWhile_passes_iff hvalid]
  constructor
  · rintro ⟨queue',houtcome,-⟩
    have hreceived := (Prod.mk.inj (some.inj houtcome)).2
    exact received_injective.list_map hreceived
  · intro hsame
    have hrest : calls.dropWhile (OnReceive.passes invalid getTime satisfies) =
        calls.dropWhile (OnReceive.due getTime satisfies) := by
      have happend := (@takeWhile_append_dropWhile _ (OnReceive.passes invalid getTime satisfies) calls).trans
        (@takeWhile_append_dropWhile _ (OnReceive.due getTime satisfies) calls).symm
      rw [hsame] at happend
      exact append_cancel_left happend
    exact ⟨after,by rw [hsame],hrest ▸ hafter⟩

end

/-- Both variants drain the queue exactly if no stream type is due. -/
theorem receive_now_drains_iff (invalid : Int) (getTime : α → Int) (capacity : Nat) (calls : List (OnReceive α β))
    (queue : DataItemQueue α β)
    (hqueue : calls.foldlM (DataItemQueue.onReceive invalid getTime) (.create capacity) = some queue)
    (hfits : calls.length ≤ (DataItemQueue.create capacity : DataItemQueue α β).capacity)
    (hvalid : ∀ content, OnReceive.sample content ∈ calls → getTime content ≠ invalid) (time : Int) :
    (Drains invalid getTime (fun sampleTime => decide (sampleTime < time)) calls (queue.receiveNow invalid time) ↔
      ∀ type, OnReceive.streamType type ∉
        calls.takeWhile (OnReceive.due getTime fun sampleTime => decide (sampleTime < time))) ∧
    (Drains invalid getTime (fun sampleTime => decide (sampleTime ≤ time)) calls
        (queue.receiveNowFEP22Compatible invalid time) ↔
      ∀ type, OnReceive.streamType type ∉
        calls.takeWhile (OnReceive.due getTime fun sampleTime => decide (sampleTime ≤ time))) :=
  ⟨drains_receiveWhile_iff hqueue hfits hvalid,drains_receiveWhile_iff hqueue hfits hvalid⟩

/-- Samples of the times 1 and 2, of which the first is older than 2. -/
theorem two_samples_drained : ∃ queue : DataItemQueue Int String,
    Drains (-1) id (fun sampleTime => decide (sampleTime < 2)) [.sample 1,.sample 2] (queue.receiveNow (-1) 2) := by
  obtain ⟨queue,hqueue,-⟩ : ∃ queue : DataItemQueue Int String,
      [OnReceive.sample 1,.sample 2].foldlM (DataItemQueue.onReceive (-1) id) (.create 2) = some queue ∧ _ :=
    (represents_create 2).foldlM_onReceive _ (by decide)
  have hsamples : ∀ type : String, OnReceive.streamType type ∉
      [OnReceive.sample 1,.sample 2].takeWhile (OnReceive.due id fun sampleTime => decide (sampleTime < 2)) := by
    simp [OnReceive.due]
  exact ⟨queue,(receive_now_drains_iff (-1) id 2 _ queue hqueue (by decide) (by simp) 2).1.mpr hsamples⟩

/-- A stream type in front of a sample keeps it in the queue. -/
theorem stream_type_blocks : ¬∀ (invalid : Int) (getTime : Int → Int) (capacity : Nat)
    (calls : List (OnReceive Int String)) (queue : DataItemQueue Int String),
    calls.foldlM (DataItemQueue.onReceive invalid getTime) (.create capacity) = some queue →
    calls.length ≤ (DataItemQueue.create capacity : DataItemQueue Int String).capacity →
    (∀ content, OnReceive.sample content ∈ calls → getTime content ≠ invalid) → ∀ time,
      Drains invalid getTime (fun sampleTime => decide (sampleTime < time)) calls (queue.receiveNow invalid time) ∧
      Drains invalid getTime (fun sampleTime => decide (sampleTime ≤ time)) calls
        (queue.receiveNowFEP22Compatible invalid time) := by
  intro h
  obtain ⟨queue,hqueue,-⟩ : ∃ queue : DataItemQueue Int String,
      [OnReceive.streamType "plain",.sample 1].foldlM (DataItemQueue.onReceive (-1) id) (.create 2) = some queue ∧ _ :=
    (represents_create 2).foldlM_onReceive _ (by decide)
  have hvalid : ∀ content, OnReceive.sample content ∈ [OnReceive.streamType "plain",.sample 1] →
      id content ≠ (-1 : Int) := by
    simp
  have hdrains := (h (-1) id 2 _ queue hqueue (by decide) hvalid 2).1
  exact (drains_receiveWhile_iff hqueue (by decide) hvalid).mp hdrains "plain" (by decide)

end FepParticipant.DataRegistry
