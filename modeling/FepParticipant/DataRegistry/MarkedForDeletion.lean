import Mathlib.Data.List.Chain
import FepParticipant.DataRegistry.DataRegistryFEP2

/-! The readers and writers that are left when the data registry is unregistered. -/
namespace FepParticipant.DataRegistry
open List

/-- No element that is marked stands behind another one. -/
def Separated {α : Type} (isMarkedForDeletion : α → Bool) (items : List α) : Prop :=
  items.IsChain fun item next => ¬(isMarkedForDeletion item = true ∧ isMarkedForDeletion next = true)

section loop

variable {α : Type} {isMarkedForDeletion : α → Bool} {items : List α}

theorem eraseMarked_eq_filter_iff : eraseMarked isMarkedForDeletion items =
    (items.filter fun item => !isMarkedForDeletion item) ↔ Separated isMarkedForDeletion items := by
  induction items using eraseMarked.induct isMarkedForDeletion with
  | case1 => exact iff_of_true rfl List.IsChain.nil
  | case2 item hmarked =>
    refine iff_of_true ?_ (List.IsChain.singleton item)
    simp [eraseMarked,hmarked]
  | case3 item hunmarked =>
    refine iff_of_true ?_ (List.IsChain.singleton item)
    simp [eraseMarked,hunmarked]
  | case4 item next rest hmarked ih =>
    rw [eraseMarked,if_pos hmarked,Separated,isChain_cons_cons]
    by_cases hnext : isMarkedForDeletion next = true
    · refine iff_of_false ?_ fun h => h.1 ⟨hmarked,hnext⟩
      -- the element behind the erased one is stepped over
      intro heq
      have hmem : next ∈ (item::next::rest).filter fun item => !isMarkedForDeletion item := by
        rw [← heq]
        exact mem_cons_self
      have hkept := (mem_filter.mp hmem).2
      rw [hnext] at hkept
      cases hkept
    · have hfilter : ((item::next::rest).filter fun item => !isMarkedForDeletion item) =
          next::rest.filter fun item => !isMarkedForDeletion item := by
        simp [hmarked,hnext]
      have hrest : (next::rest).IsChain (fun item next =>
          ¬(isMarkedForDeletion item = true ∧ isMarkedForDeletion next = true)) ↔
            Separated isMarkedForDeletion rest := by
        cases rest with
        | nil => exact iff_of_true (List.IsChain.singleton next) List.IsChain.nil
        | cons other rest =>
          rw [isChain_cons_cons]
          exact and_iff_right fun h => hnext h.1
      rw [hfilter,cons_inj_right,ih,hrest]
      exact (and_iff_right fun h => hnext h.2).symm
  | case5 item next rest hunmarked ih =>
    have hfilter : ((item::next::rest).filter fun item => !isMarkedForDeletion item) =
        item::(next::rest).filter fun item => !isMarkedForDeletion item := by
      simp [hunmarked]
    rw [eraseMarked,if_neg hunmarked,hfilter,cons_inj_right,ih,Separated,Separated,isChain_cons_cons]
    exact (and_iff_right fun h => hunmarked h.1).symm

theorem filter_eraseMarked : ((eraseMarked isMarkedForDeletion items).filter fun item => !isMarkedForDeletion item) =
    items.filter fun item => !isMarkedForDeletion item := by
  induction items using eraseMarked.induct isMarkedForDeletion with
  | case1 => rfl
  | case2 item hmarked => simp [eraseMarked,hmarked]
  | case3 item hunmarked => simp [eraseMarked,hunmarked]
  | case4 item next rest hmarked ih =>
    rw [eraseMarked,if_pos hmarked,filter_cons,ih,filter_cons,hmarked,filter_cons]
    rfl
  | case5 item next rest hunmarked ih => rw [eraseMarked,if_neg hunmarked,filter_cons,ih,filter_cons (x := item)]

end loop

namespace DataRegistryFEP2

/-- The readers and writers that are released are removed, and all others are kept in their order. -/
structure RemovesReleased (registry after : DataRegistryFEP2) : Prop where
  readers : (after.ins.map fun signal => (signal.name,signal.createdReaders)) =
    registry.ins.map fun signal => (signal.name,signal.createdReaders.filter fun reader => !reader.markedForDeletion)
  writers : (after.outs.map fun signal => (signal.name,signal.createdWriters)) =
    registry.outs.map fun signal =>
      (signal.name,(signal.createdWriters.filter fun writer => !writer.markedForDeletion).map DataWriter.deinit)

theorem map_forEach {α β γ : Type} {unregister : α → β → α × β} {f g : α → γ}
    (h : ∀ item state, f (unregister item state).1 = g item) (items : List α) (state : β) :
    (forEach unregister items state).1.map f = items.map g := by
  induction items generalizing state with
  | nil => rfl
  | cons item items ih =>
    rw [forEach]
    rw [map_cons,map_cons,h,ih]

theorem releaseHandle_name (signal : DataSignal) (access : SignalAccess) (answers : SignalAnswers) :
    (signal.releaseHandle access answers).1.name = signal.name := by
  rw [DataSignal.releaseHandle]
  split <;> rfl

theorem releaseHandle_signalHandle (signal : DataSignal) (access : SignalAccess) (answers : SignalAnswers) :
    (signal.releaseHandle access answers).1.signalHandle = none := by
  rw [DataSignal.releaseHandle]
  split
  · assumption
  · rfl

theorem filter_deinit (writers : List DataWriter) :
    ((writers.map DataWriter.deinit).filter fun writer => !writer.markedForDeletion) =
      (writers.filter fun writer => !writer.markedForDeletion).map DataWriter.deinit := by
  rw [filter_map]
  rfl

private theorem separated_deinit (writers : List DataWriter) :
    Separated (·.markedForDeletion) (writers.map DataWriter.deinit) ↔ Separated (·.markedForDeletion) writers := by
  rw [Separated,isChain_map]
  rfl

private theorem unregistered_readers (registry : DataRegistryFEP2) (answers : Answers) :
    ((registry.unregisterFromSignalRegistry answers).ins.map fun signal => (signal.name,signal.createdReaders)) =
      registry.ins.map fun signal => (signal.name,eraseMarked (·.markedForDeletion) signal.createdReaders) := by
  apply map_forEach
  intro signal access
  rw [DataSignalIn.unregisterFromSignalRegistry]
  rw [releaseHandle_name]

private theorem unregistered_writers (registry : DataRegistryFEP2) (answers : Answers) :
    ((registry.unregisterFromSignalRegistry answers).outs.map fun signal => (signal.name,signal.createdWriters)) =
      registry.outs.map fun signal =>
        (signal.name,eraseMarked (·.markedForDeletion) (signal.createdWriters.map DataWriter.deinit)) := by
  apply map_forEach
  intro signal access
  rw [DataSignalOut.unregisterFromSignalRegistry]
  rw [releaseHandle_name]

/-- Unregistering removes what is released exactly if no released reader or writer stands behind another one. -/
theorem unregister_removesReleased_iff (registry : DataRegistryFEP2) (answers : Answers) :
    registry.RemovesReleased (registry.unregisterFromSignalRegistry answers) ↔
      (∀ signal ∈ registry.ins, Separated (·.markedForDeletion) signal.createdReaders) ∧
      ∀ signal ∈ registry.outs, Separated (·.markedForDeletion) signal.createdWriters := by
  have hreaders : ((registry.unregisterFromSignalRegistry answers).ins.map fun signal =>
      (signal.name,signal.createdReaders)) = (registry.ins.map fun signal =>
        (signal.name,signal.createdReaders.filter fun reader => !reader.markedForDeletion)) ↔
      ∀ signal ∈ registry.ins, Separated (·.markedForDeletion) signal.createdReaders := by
    rw [unregistered_readers,map_inj_left]
    refine forall₂_congr fun signal _ => ?_
    rw [Prod.mk.injEq,eraseMarked_eq_filter_iff]
    exact and_iff_right rfl
  have hwriters : ((registry.unregisterFromSignalRegistry answers).outs.map fun signal =>
      (signal.name,signal.createdWriters)) = (registry.outs.map fun signal =>
        (signal.name,(signal.createdWriters.filter fun writer => !writer.markedForDeletion).map DataWriter.deinit)) ↔
      ∀ signal ∈ registry.outs, Separated (·.markedForDeletion) signal.createdWriters := by
    rw [unregistered_writers,map_inj_left]
    refine forall₂_congr fun signal _ => ?_
    rw [Prod.mk.injEq,← filter_deinit,eraseMarked_eq_filter_iff,separated_deinit]
    exact and_iff_right rfl
  constructor
  · intro h
    exact ⟨hreaders.mp h.readers,hwriters.mp h.writers⟩
  · intro h
    exact ⟨hreaders.mpr h.1,hwriters.mpr h.2⟩

/-- Two readers of a signal, both of which are released; the second one stays. -/
theorem released_reader_left : ¬∀ (registry : DataRegistryFEP2) (answers : Answers),
    registry.RemovesReleased (registry.unregisterFromSignalRegistry answers) := by
  intro h
  have hreaders := (h ((((new.registerDataIn "in" ⟨metaTypeRaw,[]⟩).1.getReader "in" 1 0).getReader "in" 1 0
    |>.releaseReader 1).releaseReader 2) fun _ _ => ⟨.errNoError,.errNoError,.errNoError,1,.errNoError,.errNoError,
      .errNoError⟩).readers
  exact absurd hreaders (by decide)

end DataRegistryFEP2
end FepParticipant.DataRegistry
