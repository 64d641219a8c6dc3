import FepParticipant.Library.Reachability
import FepParticipant.Result
import Mathlib.Data.List.Perm.Basic
import Mathlib.Data.List.Range

/-! Where the samples of a sample pool are, from their creation to their deletion. -/
namespace FepParticipant.DataRegistry
open Library List

/-- Pooled samples are named by their creation: the stack of the pool, those handed out, those deleted; and whether the
pool has a data access and exists. -/
structure PooledSamples where
  pooledSamples : List Nat
  handedOut : List Nat
  deleted : List Nat
  created : Nat
  userDataAccess : Bool
  alive : Bool

/-- `init` with the number of calls of `CreateUserDataSample` that succeed. A released sample is one whose last
reference is dropped. -/
inductive PoolAction where
  | init (poolSize successes : Nat)
  | deinit
  | getSample
  | release (sample : Nat)
  | destroy

namespace PooledSamples

def new : PooledSamples := ⟨[],[],[],0,false,true⟩

def pushSample (pool : PooledSamples) (sample : Nat) : PooledSamples :=
  if pool.userDataAccess then {pool with pooledSamples := sample::pool.pooledSamples}
  else {pool with deleted := sample::pool.deleted}

/-- `DataReaderFEP2PoolDeleter`, whose weak reference ends with the pool. -/
def deleter (pool : PooledSamples) (sample : Nat) : PooledSamples := if pool.alive then pool.pushSample sample else pool

/-- The loop in `deinit`: each sample of the stack is popped. -/
def popAll (pool : PooledSamples) : List Nat → PooledSamples
  | [] => pool
  | sample::samples => ({pool with pooledSamples := samples}.deleter sample).popAll samples

def deinit (pool : PooledSamples) : PooledSamples := {pool with userDataAccess := false}.popAll pool.pooledSamples

/-- The loop in `init`. -/
def createSamples (pool : PooledSamples) : Nat → PooledSamples
  | 0 => pool
  | count + 1 =>
    {pool with pooledSamples := pool.created::pool.pooledSamples, created := pool.created + 1}.createSamples count

def init (pool : PooledSamples) (poolSize successes : Nat) : PooledSamples :=
  let created := pool.createSamples (min poolSize successes)
  if successes < poolSize then created.deinit else {created with userDataAccess := true}

/-- `getFEP2Sample`; the sample that is made for an empty pool is not a pooled one. -/
def getSample (pool : PooledSamples) : PooledSamples :=
  match pool.pooledSamples with
  | [] => pool
  | sample::samples => {pool with pooledSamples := samples, handedOut := sample::pool.handedOut}

def release (pool : PooledSamples) (sample : Nat) : PooledSamples :=
  {pool with handedOut := pool.handedOut.erase sample}.deleter sample

/-- The destructor, in which no weak reference to the pool is valid any more, and then the end of the stack. -/
def destroy (pool : PooledSamples) : PooledSamples := {pool with alive := false}.deinit

def step (pool : PooledSamples) : PoolAction → Option PooledSamples
  | .init poolSize successes => if pool.alive then some (pool.init poolSize successes) else none
  | .deinit => if pool.alive then some pool.deinit else none
  | .getSample => if pool.alive then some pool.getSample else none
  | .release sample => if sample ∈ pool.handedOut then some (pool.release sample) else none
  | .destroy => if pool.alive then some pool.destroy else none

/-- Every sample is free, handed out or deleted, and only one of these; without a pool none is free. -/
structure Conserved (pool : PooledSamples) : Prop where
  once : (pool.pooledSamples ++ pool.handedOut ++ pool.deleted).Perm (List.range pool.created)
  gone : pool.alive = false → pool.pooledSamples = []

/-- What a call has to leave: a sample that is handed out was free before. -/
def Keeps (pool : PooledSamples) (action : PoolAction) : Prop := ∀ pool', pool.step action = some pool' →
  pool'.Conserved ∧ (action = .deinit → pool'.pooledSamples = []) ∧
    (action = .getSample → ∀ sample ∈ pool'.handedOut, sample ∈ pool.handedOut ∨ sample ∈ pool.pooledSamples)

/-- No sample is in the pool when its object ends, and none is released later. -/
def Careful (pool : PooledSamples) : PoolAction → Prop
  | .release sample => sample ∈ pool.handedOut → pool.alive = true
  | .destroy => pool.pooledSamples = []
  | _ => True

variable {pool pool' : PooledSamples}

private theorem popAll_alive (pool : PooledSamples) (haccess : pool.userDataAccess = false) (halive : pool.alive = true)
    {samples : List Nat} (h : pool.pooledSamples = samples) :
    pool.popAll samples = {pool with pooledSamples := [], deleted := samples.reverse ++ pool.deleted} := by
  induction samples generalizing pool with
  | nil => rw [popAll,reverse_nil,nil_append,← h]
  | cons sample samples ih =>
    rw [popAll,deleter,if_pos halive,pushSample,if_neg (Bool.eq_false_iff.mp haccess)]
    rw [ih {pool with pooledSamples := samples, deleted := sample::pool.deleted} haccess halive rfl]
    simp

theorem popAll_gone (pool : PooledSamples) (halive : pool.alive = false) {samples : List Nat}
    (h : pool.pooledSamples = samples) : pool.popAll samples = {pool with pooledSamples := []} := by
  induction samples generalizing pool with
  | nil => rw [popAll,← h]
  | cons sample samples ih =>
    rw [popAll,deleter,if_neg (Bool.eq_false_iff.mp halive)]
    exact ih {pool with pooledSamples := samples} halive rfl

theorem deinit_alive (halive : pool.alive = true) : pool.deinit = { pool with
      pooledSamples := []
      deleted := pool.pooledSamples.reverse ++ pool.deleted
      userDataAccess := false } :=
  popAll_alive {pool with userDataAccess := false} rfl halive rfl

section
variable (h : pool.Conserved)
include h

section
variable (halive : pool.alive = true)
include halive

theorem Conserved.deinit : pool.deinit.Conserved := by
  rw [deinit_alive halive]
  refine ⟨List.Perm.trans ?_ h.once,fun _ => rfl⟩
  have hreverse := (reverse_perm pool.pooledSamples).append_right pool.deleted
  refine (hreverse.append_left pool.handedOut).trans ?_
  rw [← append_assoc]
  exact perm_append_comm.append_right pool.deleted

private theorem Conserved.createSamples (count : Nat) :
    (pool.createSamples count).Conserved ∧ (pool.createSamples count).alive = true := by
  induction count generalizing pool with
  | zero => exact ⟨h,halive⟩
  | succ count ih =>
    refine ih ⟨?_,fun hgone => absurd halive (by simp_all)⟩ halive
    rw [range_succ]
    exact (h.once.cons pool.created).trans (perm_append_singleton _ _).symm

theorem Conserved.init (poolSize successes : Nat) : (pool.init poolSize successes).Conserved := by
  obtain ⟨hcreated,hstill⟩ := h.createSamples halive (min poolSize successes)
  simp only [PooledSamples.init]
  split
  · exact hcreated.deinit hstill
  · exact ⟨hcreated.once,hcreated.gone⟩

theorem Conserved.getSample : pool.getSample.Conserved := by
  rw [PooledSamples.getSample]
  split
  · exact h
  · rename_i sample samples hpooled
    refine ⟨List.Perm.trans ?_ h.once,fun hgone => absurd halive (by simp_all)⟩
    rw [hpooled]
    exact perm_middle.append_right pool.deleted

end

end

theorem getSample_free {sample : Nat} (h : sample ∈ pool.getSample.handedOut) :
    sample ∈ pool.handedOut ∨ sample ∈ pool.pooledSamples := by
  rw [getSample] at h
  split at h
  · exact .inl h
  · rename_i hpooled
    rw [hpooled]
    exact (mem_cons.mp h).elim (fun hsame => .inr (hsame ▸ mem_cons_self)) .inl

/-- A sample that is released goes to the pool or is deleted, as long as there is a pool. -/
theorem conserved_release_iff (h : pool.Conserved) {sample : Nat} (hmem : sample ∈ pool.handedOut) :
    (pool.release sample).Conserved ↔ pool.alive = true := by
  have hout := perm_cons_erase hmem
  rw [release,deleter]
  split
  · rename_i halive
    refine iff_of_true ?_ halive
    have hback := (perm_middle.symm.trans (hout.symm.append_left pool.pooledSamples)).append_right pool.deleted
    rw [pushSample]
    split
    · exact ⟨hback.trans h.once,fun hgone => absurd (halive.symm.trans hgone) (by decide)⟩
    · refine ⟨perm_middle.trans (List.Perm.trans ?_ h.once),fun hgone => ?_⟩
      · exact hback
      · exact absurd (halive.symm.trans hgone) (by decide)
  · rename_i hgone
    refine iff_of_false (fun hconserved => ?_) hgone
    have hlength := (hconserved.once.trans h.once.symm).length_eq
    have herased := hout.length_eq
    simp only [length_append,length_cons] at hlength herased
    omega

private theorem conserved_destroy_iff (h : pool.Conserved) : pool.destroy.Conserved ↔ pool.pooledSamples = [] := by
  rw [destroy,deinit,popAll_gone {pool with alive := false, userDataAccess := false} rfl rfl]
  constructor
  · intro hconserved
    have hlength := (hconserved.once.trans h.once.symm).length_eq
    simp only [length_append,length_nil] at hlength
    exact length_eq_zero_iff.mp (by omega)
  · intro hempty
    exact ⟨hempty ▸ h.once,fun _ => rfl⟩

theorem keeps_iff (h : pool.Conserved) (action : PoolAction) : pool.Keeps action ↔ pool.Careful action := by
  cases action with
  | init poolSize successes =>
    refine iff_of_true (fun pool' hstep => ?_) trivial
    obtain ⟨halive,hpool⟩ := Option.ite_none_right_eq_some.mp hstep
    exact ⟨Option.some.inj hpool ▸ h.init halive poolSize successes,nofun,nofun⟩
  | deinit =>
    refine iff_of_true (fun pool' hstep => ?_) trivial
    obtain ⟨halive,hpool⟩ := Option.ite_none_right_eq_some.mp hstep
    cases hpool
    exact ⟨h.deinit halive,fun _ => by rw [deinit_alive halive],nofun⟩
  | getSample =>
    refine iff_of_true (fun pool' hstep => ?_) trivial
    obtain ⟨halive,hpool⟩ := Option.ite_none_right_eq_some.mp hstep
    cases hpool
    exact ⟨h.getSample halive,nofun,fun _ sample hsample => getSample_free hsample⟩
  | release sample =>
    simp only [Keeps,step,Careful]
    by_cases hmem : sample ∈ pool.handedOut
    · simpa [hmem] using conserved_release_iff h hmem
    · simp [hmem]
  | destroy =>
    simp only [Keeps,step,Careful]
    cases halive : pool.alive with
    | true => simpa [halive] using conserved_destroy_iff h
    | false => exact iff_of_true nofun (h.gone halive)

/-- In a run of calls every sample stays in one place exactly if every call is careful. -/
theorem samples_conserved_iff (actions : List PoolAction) :
    Throughout step Keeps new actions ↔ Throughout step Careful new actions :=
  throughout_iff (fun _ action (h : Conserved _) => keeps_iff h action)
    (fun _ action pool' h hcareful hstep => ((keeps_iff h action).mpr hcareful pool' hstep).1)
    ⟨List.Perm.refl _,fun _ => rfl⟩ actions

/-- A pool that ends with a sample in it: the sample is not deleted. -/
theorem pooled_sample_leaked : ¬Throughout step Keeps new [.init 1 1,.destroy] := by
  rintro ⟨-,hrun⟩
  have hconserved := ((hrun _ rfl).1 _ rfl).1.once
  exact absurd hconserved.length_eq (by decide)

end PooledSamples
end FepParticipant.DataRegistry
