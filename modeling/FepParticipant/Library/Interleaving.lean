import FepParticipant.Library.Reachability
import Mathlib.Data.List.Basic
import Mathlib.Algebra.Ring.Nat

/-! Any number of threads that take their steps on a shared state, one at a time in any order,
while further threads may be started. -/
namespace FepParticipant.Library
open List Option

variable {σ τ α : Type}

/-- A shared state and the threads working on it. -/
structure Threads (σ τ : Type) where
  shared : σ
  threads : List τ

/-- The thread at an index takes its next step, or a thread is started. -/
inductive ThreadAction (τ α : Type) where
  | step (index : Nat) (choice : α)
  | start (thread : τ)

namespace Threads

/-- One action; `next` is the step of the thread at an index, if it has one. -/
def act (next : σ → Nat → α → τ → Option (σ × τ)) (starts : τ → Bool) (s : Threads σ τ) :
    ThreadAction τ α → Option (Threads σ τ)
  | .step index choice => do
    let thread ← s.threads[index]?
    let (shared,thread) ← next s.shared index choice thread
    return ⟨shared,s.threads.set index thread⟩
  | .start thread => if starts thread then some {s with threads := s.threads ++ [thread]} else none

/-- The sum of a measure over all threads. -/
def total (measure : τ → Nat) (threads : List τ) : Nat := (threads.map measure).sum

variable {next : σ → Nat → α → τ → Option (σ × τ)} {starts : τ → Bool} {s s' : Threads σ τ}
  {threads : List τ} {thread thread' : τ} {index : Nat}

theorem total_append (measure : τ → Nat) (threads more : List τ) :
    total measure (threads ++ more) = total measure threads + total measure more := by
  rw [total,map_append,sum_append_nat,total,total]

theorem total_set (thread' : τ) (measure : τ → Nat) (h : threads[index]? = some thread) :
    total measure (threads.set index thread') + measure thread = total measure threads + measure thread' := by
  induction threads generalizing index with
  | nil => cases h
  | cons head rest ih =>
    cases index with
    | zero =>
      cases h
      simp only [total,set_cons_zero,map_cons,sum_cons]
      omega
    | succ index =>
      have hrest := @ih index h
      simp only [total,set_cons_succ,map_cons,sum_cons] at hrest ⊢
      omega

/-- A thread that was there is there after a step of another, or was the one that took it. -/
theorem mem_set_of_mem {other : τ} (h : threads[index]? = some thread) (hmem : other ∈ threads) :
    other ∈ threads.set index thread' ∨ other = thread := by
  obtain ⟨position,hposition⟩ := mem_iff_getElem?.mp hmem
  by_cases hsame : index = position
  · subst hsame
    exact .inr (some.inj (hposition.symm.trans h))
  · refine .inl (mem_iff_getElem?.mpr ⟨position,?_⟩)
    rw [getElem?_set_ne hsame,hposition]

/-- What holds of the thread at a position after a step. -/
theorem exists_set_iff {p : τ → Prop} (h : threads[index]? = some thread) (position : Nat) :
    (∃ other, (threads.set index thread')[position]? = some other ∧ p other) ↔
      if position = index then p thread' else ∃ other, threads[position]? = some other ∧ p other := by
  by_cases hsame : position = index
  · subst hsame
    rw [if_pos rfl,getElem?_set_self (List.getElem?_eq_some_iff.mp h).1]
    simp
  · rw [if_neg hsame,getElem?_set_ne (Ne.symm hsame)]

/-- What holds of the thread at a position after another was started. -/
theorem exists_append_iff {p : τ → Prop} (h : ¬p thread) (position : Nat) :
    (∃ other, (threads ++ [thread])[position]? = some other ∧ p other) ↔
      ∃ other, threads[position]? = some other ∧ p other := by
  by_cases hlt : position < threads.length
  · rw [getElem?_append_left hlt]
  · have hnone : threads[position]? = none := getElem?_eq_none (Nat.le_of_not_lt hlt)
    rw [getElem?_append_right (Nat.le_of_not_lt hlt),hnone]
    constructor
    · rintro ⟨other,hother,hp⟩
      obtain rfl := mem_singleton.mp (mem_of_getElem? hother)
      exact absurd hp h
    · rintro ⟨other,hother,-⟩
      cases hother

/-- Every action is a step of one thread or the start of one. -/
theorem act_cases {action : ThreadAction τ α} (h : s.act next starts action = some s') :
    (∃ index choice thread shared thread', action = .step index choice ∧ s.threads[index]? = some thread ∧
      next s.shared index choice thread = some (shared,thread') ∧ s' = ⟨shared,s.threads.set index thread'⟩) ∨
    ∃ thread, action = .start thread ∧ starts thread = true ∧ s' = {s with threads := s.threads ++ [thread]} := by
  cases action with
  | step index choice =>
    obtain ⟨thread,hthread,h⟩ := bind_eq_some_iff.mp h
    obtain ⟨⟨shared,thread'⟩,hnext,h⟩ := bind_eq_some_iff.mp h
    exact .inl ⟨index,choice,thread,shared,thread',rfl,hthread,hnext,(some.inj h).symm⟩
  | start thread =>
    rw [act] at h
    split at h
    · rename_i hstarts
      exact .inr ⟨thread,rfl,hstarts,(some.inj h).symm⟩
    · cases h

end Threads

end FepParticipant.Library
