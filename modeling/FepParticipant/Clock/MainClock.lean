import Mathlib.Data.List.Induction
import Mathlib.Data.List.Nodup
import FepParticipant.Result

/-! The clocks of the local clock service and its main clock, over all sequences of calls that change them. -/
namespace FepParticipant.Clock
open List

/-- The clocks of the service itself, and clocks that users register; several may have one name. -/
inductive ClockObject where
  | localSystemRealClock
  | localSystemSimClock
  | userClock (number : Nat) (name : String)
  deriving DecidableEq

def ClockObject.getName : ClockObject → String
  | localSystemRealClock => "local_system_realtime"
  | localSystemSimClock => "local_system_simtime"
  | userClock _ name => name

inductive ClockServiceCall where
  | registerClock (clock : ClockObject)
  | unregisterClock (clockName : String)
  | setMainClock (clockName : String)
  | start
  | stop

structure ClockService where
  clocks : List ClockObject
  currentClock : ClockObject
  isStarted : Bool

namespace ClockService

def new : ClockService := ⟨[.localSystemRealClock,.localSystemSimClock],.localSystemRealClock,false⟩

variable (service : ClockService)

def names : List String := service.clocks.map ClockObject.getName

def findClock (clockName : String) : Option ClockObject :=
  service.clocks.find? fun clock => clock.getName == clockName

def registerClock (clock : ClockObject) : ClockService × Result :=
  if service.isStarted then (service,.errInvalidState)
  else if (service.findClock clock.getName).isSome then (service,.errInvalidArg)
  else ({service with clocks := service.clocks ++ [clock]},.errNoError)

def unregisterClockUnlocked (clockName : String) : List ClockObject × Result :=
  if service.clocks.any fun clock => clock.getName == clockName
  then (service.clocks.eraseP fun clock => clock.getName == clockName,.errNoError)
  else (service.clocks,.errInvalidArg)

/-- What `unregisterClockUnlocked` returns is not passed on. -/
def unregisterClock (clockName : String) : ClockService × Result :=
  if service.isStarted then (service,.errInvalidState)
  else
    let (clocks,result) := service.unregisterClockUnlocked clockName
    if isOk result ∧ service.currentClock.getName = clockName
    then (⟨clocks,.localSystemRealClock,service.isStarted⟩,.errNoError)
    else (⟨clocks,service.currentClock,service.isStarted⟩,.errNoError)

def setMainClock (clockName : String) : ClockService × Result :=
  if service.isStarted then (service,.errInvalidState)
  else
    match service.findClock clockName with
    | none => ({service with currentClock := .localSystemRealClock},.errNotFound)
    | some clock => ({service with currentClock := clock},.errNoError)

def apply : ClockServiceCall → ClockService × Result
  | .registerClock clock => service.registerClock clock
  | .unregisterClock clockName => service.unregisterClock clockName
  | .setMainClock clockName => service.setMainClock clockName
  | .start => ({service with isStarted := true},.errNoError)
  | .stop => ({service with isStarted := false},.errNoError)

def after (calls : List ClockServiceCall) : ClockService :=
  calls.foldl (fun service call => (service.apply call).1) new

/-- The name is unknown or taken, or the service is started. -/
def CannotBePerformed : ClockServiceCall → Prop
  | .registerClock clock => service.isStarted = true ∨ clock.getName ∈ service.names
  | .unregisterClock clockName | .setMainClock clockName => service.isStarted = true ∨ clockName ∉ service.names
  | .start | .stop => False

def FallsBack : ClockServiceCall → Prop
  | .setMainClock clockName => service.isStarted = false ∧ clockName ∉ service.names
  | _ => False

structure Registered : Prop where
  current : service.currentClock ∈ service.clocks
  unique : service.names.Nodup

/-- An error is returned exactly if the call cannot be performed, and it changes nothing but the fallback. -/
structure Answers (call : ClockServiceCall) : Prop where
  result : isFailed (service.apply call).2 = true ↔ service.CannotBePerformed call
  clocks : isFailed (service.apply call).2 = true → (service.apply call).1.clocks = service.clocks
  current : isFailed (service.apply call).2 = true → ¬service.FallsBack call →
    (service.apply call).1.currentClock = service.currentClock
  fallback : service.FallsBack call → (service.apply call).1.currentClock = .localSystemRealClock

/-- The main clock stays one of the registered ones in these calls, and each of them answers as it should. -/
structure MainClockKept (calls : List ClockServiceCall) : Prop where
  registered : ∀ front, front <+: calls → (after front).Registered
  answers : ∀ front call, front ++ [call] <+: calls → (after front).Answers call

def Keeps : ClockServiceCall → Prop
  | .unregisterClock clockName => service.isStarted = true ∨ clockName ∈ service.names ∧
    (service.currentClock.getName = clockName →
      .localSystemRealClock ∈ service.clocks ∧ service.currentClock ≠ .localSystemRealClock)
  | .setMainClock clockName => service.isStarted = true ∨ clockName ∈ service.names ∨
    .localSystemRealClock ∈ service.clocks
  | .registerClock _ | .start | .stop => True

variable {service : ClockService} {call : ClockServiceCall} {calls : List ClockServiceCall} {clockName : String}
  {clock : ClockObject}

theorem mem_names_iff : clockName ∈ service.names ↔ ∃ clock ∈ service.clocks, clock.getName = clockName := mem_map

theorem findClock_eq_none_iff : service.findClock clockName = none ↔ clockName ∉ service.names := by
  rw [findClock,find?_eq_none,mem_names_iff]
  simp

theorem findClock_isSome_iff : (service.findClock clockName).isSome = true ↔ clockName ∈ service.names := by
  rw [Option.isSome_iff_ne_none,Ne,findClock_eq_none_iff,not_not]

theorem any_name_iff : (service.clocks.any fun clock => clock.getName == clockName) = true ↔
    clockName ∈ service.names := by
  rw [any_eq_true,mem_names_iff]
  simp

theorem mem_of_findClock (h : service.findClock clockName = some clock) : clock ∈ service.clocks :=
  mem_of_find?_eq_some h

theorem Registered.eq_of_getName (h : service.Registered) {other : ClockObject} (hmem : clock ∈ service.clocks)
    (hother : other ∈ service.clocks) (hname : clock.getName = other.getName) : clock = other :=
  inj_on_of_nodup_map h.unique hmem hother hname

private theorem Registered.names_eraseP (h : service.Registered) :
    ((service.clocks.eraseP fun clock => clock.getName == clockName).map ClockObject.getName).Nodup :=
  List.Nodup.sublist (eraseP_sublist.map _) h.unique

theorem Registered.mem_eraseP_iff (h : service.Registered) (hmem : clock ∈ service.clocks) :
    (clock ∈ service.clocks.eraseP fun clock => clock.getName == clockName) ↔ clock.getName ≠ clockName := by
  constructor
  · intro hkept hname
    obtain ⟨erased,front,behind,-,herased,hclocks,hrest⟩ :=
      exists_of_eraseP (p := fun clock => clock.getName == clockName) hmem (by simpa using hname)
    rw [hrest] at hkept
    have hunique := h.unique
    rw [names,hclocks,map_append,map_cons,nodup_append,nodup_cons] at hunique
    have hnames : clock.getName = erased.getName := hname.trans (beq_iff_eq.mp herased).symm
    rcases mem_append.mp hkept with hfront | hbehind
    · exact hunique.2.2 _ (mem_map_of_mem hfront) _ mem_cons_self hnames
    · exact hunique.2.1.1 (hnames ▸ mem_map_of_mem hbehind)
  · intro hname
    exact (mem_eraseP_of_neg (by simpa using hname)).mpr hmem

theorem registered_new : new.Registered where
  current := mem_cons_self
  unique := by decide

theorem Registered.apply (h : service.Registered) (hkeeps : service.Keeps call) :
    (service.apply call).1.Registered := by
  cases call with
  | registerClock clock =>
    rw [ClockService.apply,registerClock]
    split
    · exact h
    · split
      · exact h
      · rename_i hnew
        rw [findClock_isSome_iff] at hnew
        refine ⟨mem_append_left _ h.current,?_⟩
        rw [names,map_append,map_singleton]
        exact nodup_append.mpr ⟨h.unique,nodup_singleton _,fun name hname other hother heq =>
          hnew (mem_singleton.mp hother ▸ heq ▸ hname)⟩
  | unregisterClock clockName =>
    rw [ClockService.apply,unregisterClock]
    split
    · exact h
    · rename_i hstopped
      obtain ⟨hknown,hreal⟩ := hkeeps.resolve_left hstopped
      rw [unregisterClockUnlocked,if_pos (any_name_iff.mpr hknown)]
      dsimp only
      split
      · rename_i hmain
        obtain ⟨hmem,hne⟩ := hreal hmain.2
        refine ⟨(h.mem_eraseP_iff hmem).mpr ?_,h.names_eraseP⟩
        intro hname
        exact hne (h.eq_of_getName h.current hmem (hmain.2.trans hname.symm))
      · rename_i hother
        exact ⟨(h.mem_eraseP_iff h.current).mpr fun hname => hother ⟨rfl,hname⟩,h.names_eraseP⟩
  | setMainClock clockName =>
    rw [ClockService.apply,setMainClock]
    split
    · exact h
    · rename_i hstopped
      split
      · rename_i hnone
        have hreal := (hkeeps.resolve_left hstopped).resolve_left (findClock_eq_none_iff.mp hnone)
        exact ⟨hreal,h.unique⟩
      · rename_i hfound
        exact ⟨mem_of_findClock hfound,h.unique⟩
  | start => exact ⟨h.current,h.unique⟩
  | stop => exact ⟨h.current,h.unique⟩

theorem unregisterClock_known (hstopped : service.isStarted = false) (hknown : clockName ∈ service.names) :
    (service.unregisterClock clockName).2 = .errNoError ∧ (service.unregisterClock clockName).1.clocks =
      service.clocks.eraseP fun clock => clock.getName == clockName := by
  have hrunning : ¬service.isStarted = true := by simp [hstopped]
  rw [unregisterClock,if_neg hrunning,unregisterClockUnlocked,if_pos (any_name_iff.mpr hknown)]
  dsimp only
  split
  · exact ⟨rfl,rfl⟩
  · exact ⟨rfl,rfl⟩

private theorem FallsBack.cannotBePerformed (h : service.FallsBack call) : service.CannotBePerformed call := by
  cases call with
  | setMainClock clockName => exact .inr h.2
  | _ => exact h.elim

private theorem Answers.refused {result : Result} (hcall : service.apply call = (service,result))
    (hfailed : result ≠ .errNoError) (hcannot : service.CannotBePerformed call) (hfallsBack : ¬service.FallsBack call) :
    service.Answers call := by
  refine ⟨?_,fun _ => by rw [hcall],fun _ _ => by rw [hcall],fun h => absurd h hfallsBack⟩
  rw [hcall,isFailed_iff]
  exact iff_of_true hfailed hcannot

private theorem Answers.performed (hcall : (service.apply call).2 = .errNoError)
    (hcan : ¬service.CannotBePerformed call) : service.Answers call := by
  have hok : ¬isFailed (service.apply call).2 = true := by
    rw [hcall]
    decide
  exact ⟨iff_of_false hok hcan,fun h => absurd h hok,fun h => absurd h hok,fun h => absurd h.cannotBePerformed hcan⟩

theorem Answers.of_keeps (hkeeps : service.Keeps call) : service.Answers call := by
  by_cases hstarted : service.isStarted = true
  · cases call with
    | registerClock clock => exact .refused (if_pos hstarted) (by decide) (.inl hstarted) id
    | unregisterClock clockName => exact .refused (if_pos hstarted) (by decide) (.inl hstarted) id
    | setMainClock clockName =>
      refine .refused (if_pos hstarted) (by decide) (.inl hstarted) fun h => ?_
      rw [h.1] at hstarted
      cases hstarted
    | start => exact .performed rfl id
    | stop => exact .performed rfl id
  · cases call with
    | registerClock clock =>
      by_cases hknown : clock.getName ∈ service.names
      · have hcall : service.apply (.registerClock clock) = (service,.errInvalidArg) := by
          rw [ClockService.apply,registerClock,if_neg hstarted,if_pos (findClock_isSome_iff.mpr hknown)]
        exact .refused hcall (by decide) (.inr hknown) id
      · apply Answers.performed
        · rw [ClockService.apply,registerClock,if_neg hstarted,if_neg (findClock_isSome_iff.not.mpr hknown)]
        · exact not_or.mpr ⟨hstarted,hknown⟩
    | unregisterClock clockName =>
      have hknown := (hkeeps.resolve_left hstarted).1
      apply Answers.performed
      · exact (unregisterClock_known (eq_false_of_ne_true hstarted) hknown).1
      · exact not_or.mpr ⟨hstarted,not_not.mpr hknown⟩
    | setMainClock clockName =>
      cases hfound : service.findClock clockName with
      | none =>
        have hunknown := findClock_eq_none_iff.mp hfound
        have hcall : service.apply (.setMainClock clockName) =
            ({service with currentClock := .localSystemRealClock},.errNotFound) := by
          rw [ClockService.apply,setMainClock,if_neg hstarted,hfound]
        refine ⟨?_,fun _ => by rw [hcall],?_,fun _ => by rw [hcall]⟩
        · rw [hcall]
          exact iff_of_true rfl (.inr hunknown)
        · intro _ hfallsBack
          exact absurd ⟨eq_false_of_ne_true hstarted,hunknown⟩ hfallsBack
      | some clock =>
        have hknown : clockName ∈ service.names := findClock_isSome_iff.mp (by rw [hfound]; rfl)
        apply Answers.performed
        · rw [ClockService.apply,setMainClock,if_neg hstarted,hfound]
        · exact not_or.mpr ⟨hstarted,not_not.mpr hknown⟩
    | start => exact .performed rfl id
    | stop => exact .performed rfl id

theorem Registered.keeps (h : service.Registered) (hanswers : service.Answers call)
    (hafter : (service.apply call).1.Registered) : service.Keeps call := by
  by_cases hstarted : service.isStarted = true
  · cases call with
    | unregisterClock clockName => exact .inl hstarted
    | setMainClock clockName => exact .inl hstarted
    | _ => trivial
  · cases call with
    | unregisterClock clockName =>
      have hknown : clockName ∈ service.names := by
        by_contra hunknown
        have hfailed := hanswers.result.mpr (.inr hunknown)
        have hcall : (service.apply (.unregisterClock clockName)).2 = .errNoError := by
          rw [ClockService.apply,unregisterClock,if_neg hstarted]
          dsimp only
          split <;> rfl
        rw [hcall] at hfailed
        cases hfailed
      refine .inr ⟨hknown,fun hmain => ?_⟩
      have hcurrent := hafter.current
      rw [ClockService.apply,unregisterClock,if_neg hstarted,unregisterClockUnlocked,
        if_pos (any_name_iff.mpr hknown)] at hcurrent
      dsimp only at hcurrent
      rw [if_pos ⟨rfl,hmain⟩] at hcurrent
      have hmem := mem_of_mem_eraseP hcurrent
      refine ⟨hmem,fun hreal => (h.mem_eraseP_iff hmem).mp hcurrent ?_⟩
      rw [← hreal,hmain]
    | setMainClock clockName =>
      by_cases hknown : clockName ∈ service.names
      · exact .inr (.inl hknown)
      · have hcurrent := hafter.current
        rw [ClockService.apply,setMainClock,if_neg hstarted,findClock_eq_none_iff.mpr hknown] at hcurrent
        exact .inr (.inr hcurrent)
    | _ => trivial

theorem after_append : after (calls ++ [call]) = ((after calls).apply call).1 := foldl_append

private theorem registered_after (h : ∀ front call, front ++ [call] <+: calls → (after front).Keeps call)
    (front : List ClockServiceCall) (hfront : front <+: calls) : (after front).Registered := by
  induction front using List.reverseRecOn with
  | nil => exact registered_new
  | append_singleton front call ih =>
    rw [after_append]
    exact (ih ((prefix_append front [call]).trans hfront)).apply (h front call hfront)

/-- The main clock is kept in a sequence of calls exactly if each call of it keeps it. -/
theorem mainClockKept_iff (calls : List ClockServiceCall) :
    MainClockKept calls ↔ ∀ front call, front ++ [call] <+: calls → (after front).Keeps call := by
  constructor
  · intro h front call hcalls
    have hafter := h.registered _ hcalls
    rw [after_append] at hafter
    exact (h.registered front ((prefix_append front [call]).trans hcalls)).keeps (h.answers front call hcalls) hafter
  · intro h
    exact ⟨registered_after h,fun front call hcalls => .of_keeps (h front call hcalls)⟩

/-- The real clock is unregistered, and still the main clock. -/
theorem unregistered_mainClock : ¬∀ calls, MainClockKept calls := by
  intro h
  have hcurrent := ((h [.unregisterClock "local_system_realtime"]).registered _ prefix_rfl).current
  exact absurd hcurrent (by decide)

end ClockService

end FepParticipant.Clock
