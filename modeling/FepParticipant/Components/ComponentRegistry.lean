import FepParticipant.Result

/-! The component registry: lifecycle calls in registration order with a fallback, and back in
reverse order. The calls are remembered, the latest first. -/
namespace FepParticipant.Components
open List

/-- The lifecycle calls of `IComponent`. -/
inductive LifecycleCall where
  | initializing
  | ready
  | start
  | stop
  | deinitializing
  deriving DecidableEq

structure ComponentCall (κ : Type) where
  component : κ
  call : LifecycleCall
  result : Result

abbrev Answer (κ : Type) := List (ComponentCall κ) → κ → LifecycleCall → Result

section Status

variable {κ : Type} [DecidableEq κ] (component : κ)

/-- The component received `initializing()` and no `deinitializing()` since. -/
def pending : List (ComponentCall κ) → Bool
  | [] => false
  | entry::history =>
    if entry.component = component then
      match entry.call with
      | .initializing => true
      | .deinitializing => false
      | .ready | .start | .stop => pending history
    else pending history

/-- An `initializing()` of the component succeeded and no `deinitializing()` followed. -/
def initialized : List (ComponentCall κ) → Bool
  | [] => false
  | entry::history =>
    if entry.component = component then
      match entry.call with
      | .initializing => isOk entry.result || initialized history
      | .deinitializing => false
      | .ready | .start | .stop => initialized history
    else initialized history

/-- The last `ready()` of the component succeeded, behind its last `initializing()`. -/
def prepared : List (ComponentCall κ) → Bool
  | [] => false
  | entry::history =>
    if entry.component = component then
      match entry.call with
      | .ready => isOk entry.result
      | .initializing | .deinitializing => false
      | .start | .stop => prepared history
    else prepared history

/-- The component is initialized once at a time and only started when it is ready. -/
def Alternates : List (ComponentCall κ) → Prop
  | [] => True
  | entry::history =>
    Alternates history ∧ (entry.component = component →
      (entry.call = .initializing → pending component history = false) ∧
      (entry.call = .start → prepared component history = true))

instance decidableAlternates : (history : List (ComponentCall κ)) → Decidable (Alternates component history)
  | [] => .isTrue trivial
  | entry::history =>
    have := decidableAlternates history
    inferInstanceAs (Decidable (Alternates component history ∧ (entry.component = component →
      (entry.call = .initializing → pending component history = false) ∧
      (entry.call = .start → prepared component history = true))))

end Status

section Fallback

variable {κ σ : Type} (raiseFunc fallbackFunc : κ → σ → σ × Result)

def fallBack : List κ → σ → σ
  | [], surroundings => surroundings
  | component::components, surroundings => fallBack components (fallbackFunc component surroundings).1

/-- `raiseWithFallback`, with the components that succeeded so far, the latest first. -/
def raiseWithFallback : List κ → List κ → σ → σ × Result
  | [], _, surroundings => (surroundings,.errNoError)
  | component::components, succeeded, surroundings =>
    let (surroundings,result) := raiseFunc component surroundings
    if isOk result then raiseWithFallback components (component::succeeded) surroundings
    else (fallBack fallbackFunc succeeded surroundings,result)

end Fallback

section Calls

variable {κ : Type} (answer : Answer κ)

def ask (call : LifecycleCall) (component : κ) (history : List (ComponentCall κ)) :
    List (ComponentCall κ) × Result :=
  (⟨component,call,answer history component call⟩::history,answer history component call)

def callAll (call : LifecycleCall) :
    List κ → List (ComponentCall κ) → List (ComponentCall κ) × Result
  | [], history => (history,.errNoError)
  | component::components, history =>
    let (history,result) := ask answer call component history
    let (history,rest) := callAll call components history
    (history,result.or rest)

theorem fallBack_ask (call : LifecycleCall) (components : List κ) (history : List (ComponentCall κ)) :
    fallBack (ask answer call) components history = (callAll answer call components history).1 := by
  induction components generalizing history with
  | nil => rfl
  | cons component components ih => exact ih _

end Calls

/-- The components with the calls they received. What the last `initializing()` and `ready()` of
the registry returned is remembered until they are undone. -/
structure ComponentRegistry (κ : Type) where
  components : List κ
  history : List (ComponentCall κ)
  initOutcome : Option Result
  readyOutcome : Option Result

namespace ComponentRegistry

variable {κ : Type} (answer : Answer κ) (registry : ComponentRegistry κ)

def new (components : List κ) : ComponentRegistry κ := ⟨components,[],none,none⟩

def initializing : ComponentRegistry κ × Result :=
  let (history,result) :=
    raiseWithFallback (ask answer .initializing) (ask answer .deinitializing) registry.components [] registry.history
  ({registry with history := history, initOutcome := some result, readyOutcome := none},result)

def ready : ComponentRegistry κ × Result :=
  let (history,result) :=
    raiseWithFallback (ask answer .ready) (ask answer .deinitializing) registry.components [] registry.history
  ({registry with history := history, readyOutcome := some result},result)

def start : ComponentRegistry κ × Result :=
  let (history,result) :=
    raiseWithFallback (ask answer .start) (ask answer .stop) registry.components [] registry.history
  ({registry with history := history},result)

def stop : ComponentRegistry κ × Result :=
  let (history,result) := callAll answer .stop registry.components.reverse registry.history
  ({registry with history := history},result)

def deinitializing : ComponentRegistry κ × Result :=
  let (history,result) := callAll answer .deinitializing registry.components.reverse registry.history
  ({registry with history := history, initOutcome := none, readyOutcome := none},result)

end ComponentRegistry

section Lemmas

variable {κ : Type} [DecidableEq κ] (answer : Answer κ) (component : κ)

theorem callAll_stop (components : List κ) (history : List (ComponentCall κ)) :
    pending component (callAll answer .stop components history).1 = pending component history ∧
    initialized component (callAll answer .stop components history).1 = initialized component history ∧
    prepared component (callAll answer .stop components history).1 = prepared component history := by
  induction components generalizing history with
  | nil => exact ⟨rfl,rfl,rfl⟩
  | cons head components ih =>
    obtain ⟨hpending,hinitialized,hprepared⟩ := ih (⟨head,.stop,answer history head .stop⟩::history)
    refine ⟨hpending.trans ?_,hinitialized.trans ?_,hprepared.trans ?_⟩
    · simp [pending]
    · simp [initialized]
    · simp [prepared]

variable {component} in
theorem callAll_alternates {call : LifecycleCall} (hinit : call ≠ .initializing) (hstart : call ≠ .start)
    (components : List κ) {history : List (ComponentCall κ)} (h : Alternates component history) :
    Alternates component (callAll answer call components history).1 := by
  induction components generalizing history with
  | nil => exact h
  | cons head components ih =>
    apply ih
    exact ⟨h,fun _ => ⟨fun hcall => absurd hcall hinit,fun hcall => absurd hcall hstart⟩⟩

theorem callAll_deinitializing (components : List κ) (history : List (ComponentCall κ)) :
    pending component (callAll answer .deinitializing components history).1 =
      (!decide (component ∈ components) && pending component history) ∧
    initialized component (callAll answer .deinitializing components history).1 =
      (!decide (component ∈ components) && initialized component history) := by
  induction components generalizing history with
  | nil => simp [callAll]
  | cons head components ih =>
    obtain ⟨hpending,hinitialized⟩ := ih (⟨head,.deinitializing,answer history head .deinitializing⟩::history)
    simp only [callAll,ask]
    rw [hpending,hinitialized]
    by_cases hhead : head = component
    · simp [pending,initialized,hhead]
    · have hne : ¬component = head := fun h => hhead h.symm
      simp [pending,initialized,hhead,hne]

variable {component}

/-- Raising `initializing()` occurs once and keeps the alternation of a component not pending; a fallback leaves it
as it was. -/
theorem raise_initializing (components succeeded : List κ) {history : List (ComponentCall κ)}
    (halternates : Alternates component history) (honce : components.count component ≤ 1)
    (hpending : component ∈ components → pending component history = false)
    (hdone : component ∈ succeeded ∨ initialized component history = false) :
    let (history',result) :=
      raiseWithFallback (ask answer .initializing) (ask answer .deinitializing) components succeeded history
    Alternates component history' ∧ (result ≠ .errNoError → initialized component history' = false) := by
  induction components generalizing succeeded history with
  | nil => exact ⟨halternates,fun hfailed => absurd rfl hfailed⟩
  | cons head components ih =>
    let result := answer history head .initializing
    have hnext : Alternates component (⟨head,.initializing,result⟩::history) := by
      refine ⟨halternates,fun hhead => ⟨fun _ => hpending ?_,nofun⟩⟩
      rw [← show head = component from hhead]
      exact mem_cons_self
    simp only [raiseWithFallback,ask,fallBack_ask]
    split
    · rename_i hok
      apply ih
      · exact hnext
      · exact Nat.le_trans count_le_count_cons honce
      · intro hmem
        have hne : head ≠ component := by
          rintro rfl
          have := count_pos_iff.mpr hmem
          rw [count_cons_self] at honce
          omega
        simpa [pending,hne] using hpending (mem_cons_of_mem _ hmem)
      · by_cases hhead : head = component
        · exact .inl (hhead ▸ mem_cons_self)
        · rcases hdone with hmem | hinit
          · exact .inl (mem_cons_of_mem _ hmem)
          · exact .inr (by simpa [initialized,hhead] using hinit)
    · rename_i hfailed
      refine ⟨callAll_alternates answer (by decide) (by decide) _ hnext,fun _ => ?_⟩
      rw [(callAll_deinitializing answer component succeeded _).2]
      rcases hdone with hmem | hinit
      · simp [hmem]
      · by_cases hhead : head = component
        · have hresult : isOk (answer history head .initializing) = false := eq_false_of_ne_true hfailed
          simp [initialized,hinit,hresult]
        · simp [initialized,hhead,hinit]

theorem raise_ready (components succeeded : List κ) {history : List (ComponentCall κ)}
    (halternates : Alternates component history) :
    let (history',result) :=
      raiseWithFallback (ask answer .ready) (ask answer .deinitializing) components succeeded history
    Alternates component history' ∧
    (pending component history = false → pending component history' = false) ∧
    (initialized component history = false → initialized component history' = false) ∧
    (result = .errNoError → component ∈ components ∨ prepared component history = true →
      prepared component history' = true) := by
  induction components generalizing succeeded history with
  | nil => exact ⟨halternates,id,id,fun _ hprepared => hprepared.resolve_left not_mem_nil⟩
  | cons head components ih =>
    let result := answer history head .ready
    have hnext : Alternates component (⟨head,.ready,result⟩::history) := ⟨halternates,fun _ => ⟨nofun,nofun⟩⟩
    have hpending : pending component (⟨head,.ready,result⟩::history) = pending component history := by
      simp [pending]
    have hinit : initialized component (⟨head,.ready,result⟩::history) = initialized component history := by
      simp [initialized]
    simp only [raiseWithFallback,ask,fallBack_ask]
    split
    · rename_i hok
      obtain ⟨halternates',hpending',hinit',hprepared'⟩ := ih (head::succeeded) hnext
      rw [hpending] at hpending'
      rw [hinit] at hinit'
      refine ⟨halternates',hpending',hinit',fun hres hmem => hprepared' hres ?_⟩
      by_cases hhead : head = component
      · exact .inr (by simpa [prepared,hhead,result] using hok)
      · rcases hmem with hmem | hprepared
        · exact .inl ((mem_cons.mp hmem).resolve_left fun h => hhead h.symm)
        · exact .inr (by simpa [prepared,hhead] using hprepared)
    · rename_i hfailed
      obtain ⟨hfallback,hfallback'⟩ := callAll_deinitializing answer component succeeded
        (⟨head,.ready,result⟩::history)
      refine ⟨callAll_alternates answer (by decide) (by decide) _ hnext,fun h => ?_,fun h => ?_,fun h => ?_⟩
      · rw [hfallback,hpending,h,Bool.and_false]
      · rw [hfallback',hinit,h,Bool.and_false]
      · exact absurd ((isOk_iff _).mpr h) hfailed

theorem raise_start (components succeeded : List κ) {history : List (ComponentCall κ)}
    (halternates : Alternates component history)
    (hprepared : component ∈ components → prepared component history = true) :
    let history' := (raiseWithFallback (ask answer .start) (ask answer .stop) components succeeded history).1
    Alternates component history' ∧ pending component history' = pending component history ∧
      initialized component history' = initialized component history ∧
      prepared component history' = prepared component history := by
  induction components generalizing succeeded history with
  | nil => exact ⟨halternates,rfl,rfl,rfl⟩
  | cons head components ih =>
    let result := answer history head .start
    have hnext : Alternates component (⟨head,.start,result⟩::history) := by
      refine ⟨halternates,fun hhead => ⟨nofun,fun _ => hprepared ?_⟩⟩
      rw [← show head = component from hhead]
      exact mem_cons_self
    have hpending : pending component (⟨head,.start,result⟩::history) = pending component history := by
      simp [pending]
    have hinit : initialized component (⟨head,.start,result⟩::history) = initialized component history := by
      simp [initialized]
    have hready : prepared component (⟨head,.start,result⟩::history) = prepared component history := by
      simp [prepared]
    simp only [raiseWithFallback,ask,fallBack_ask]
    split
    · obtain ⟨halternates',hpending',hinit',hready'⟩ := ih (head::succeeded) hnext
        fun hmem => hready.trans (hprepared (mem_cons_of_mem _ hmem))
      exact ⟨halternates',hpending'.trans hpending,hinit'.trans hinit,hready'.trans hready⟩
    · obtain ⟨hpending',hinit',hready'⟩ := callAll_stop answer component succeeded (⟨head,.start,result⟩::history)
      exact ⟨callAll_alternates answer (by decide) (by decide) _ hnext,hpending'.trans hpending,
        hinit'.trans hinit,hready'.trans hready⟩

/-- What the remembered outcomes say about a component that is registered once. -/
structure ComponentRegistry.Keeps (registry : ComponentRegistry κ) (component : κ) : Prop where
  once : registry.components.count component = 1
  alternates : Alternates component registry.history
  notPending : registry.initOutcome = none → pending component registry.history = false
  notInitialized : registry.initOutcome ≠ some .errNoError → initialized component registry.history = false
  prepared : registry.readyOutcome = some .errNoError → prepared component registry.history = true

namespace ComponentRegistry.Keeps

variable {answer} {registry : ComponentRegistry κ}

theorem mem (h : registry.Keeps component) : component ∈ registry.components := by
  apply count_pos_iff.mp
  rw [h.once]
  exact Nat.one_pos

theorem new {components : List κ} (honce : components.count component = 1) :
    (ComponentRegistry.new components).Keeps component :=
  ⟨honce,trivial,fun _ => rfl,fun _ => rfl,nofun⟩

section
variable (h : registry.Keeps component)
include h

theorem initializing (hnone : registry.initOutcome = none) : (registry.initializing answer).1.Keeps component := by
  obtain ⟨halternates,hfailed⟩ := raise_initializing answer registry.components []
    h.alternates (Nat.le_of_eq h.once) (fun _ => h.notPending hnone)
    (.inr (h.notInitialized (by simp [hnone])))
  refine ⟨h.once,halternates,nofun,fun hresult => hfailed ?_,nofun⟩
  exact fun hok => hresult (congrArg some hok)

theorem ready : (registry.ready answer).1.Keeps component := by
  obtain ⟨halternates,hpending,hinitialized,hprepared⟩ := raise_ready answer registry.components [] h.alternates
  exact ⟨h.once,halternates,fun hnone => hpending (h.notPending hnone),
    fun hfailed => hinitialized (h.notInitialized hfailed),
    fun hok => hprepared (Option.some.inj hok) (.inl h.mem)⟩

theorem start (hready : registry.readyOutcome = some .errNoError) : (registry.start answer).1.Keeps component := by
  obtain ⟨halternates,hpending,hinitialized,hprepared⟩ := raise_start answer
    registry.components [] h.alternates (fun _ => h.prepared hready)
  exact ⟨h.once,halternates,fun hnone => hpending.trans (h.notPending hnone),
    fun hfailed => hinitialized.trans (h.notInitialized hfailed),
    fun hok => hprepared.trans (h.prepared hok)⟩

theorem stop : (registry.stop answer).1.Keeps component := by
  obtain ⟨hpending,hinitialized,hprepared⟩ := callAll_stop answer component registry.components.reverse registry.history
  exact ⟨h.once,callAll_alternates answer (by decide) (by decide) _ h.alternates,
    fun hnone => hpending.trans (h.notPending hnone),
    fun hfailed => hinitialized.trans (h.notInitialized hfailed),
    fun hok => hprepared.trans (h.prepared hok)⟩

theorem deinitializing : (registry.deinitializing answer).1.Keeps component := by
  obtain ⟨hpending,hinitialized⟩ := callAll_deinitializing answer component registry.components.reverse registry.history
  have hmem : component ∈ registry.components.reverse := mem_reverse.mpr h.mem
  rw [decide_eq_true hmem] at hpending hinitialized
  exact ⟨h.once,callAll_alternates answer (by decide) (by decide) _ h.alternates,fun _ => hpending,
    fun _ => hinitialized,nofun⟩

end

end ComponentRegistry.Keeps
end Lemmas
end FepParticipant.Components
