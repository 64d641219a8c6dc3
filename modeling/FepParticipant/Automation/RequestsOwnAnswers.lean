import FepParticipant.Automation.AutomationRequests
import FepParticipant.Library.Reachability

/-! Which requests leave the module's listeners as they were and deliver the answer to their own
command. -/
namespace FepParticipant.Automation
open Library List Option Nat

namespace NotificationListener

/-- What a listener keeps as long as it lives. -/
structure SameRequest (listener other : NotificationListener) : Prop where
  request : listener.eRequestType = other.eRequestType
  remote : listener.strRemoteParticipant = other.strRemoteParticipant
  cookie : listener.resultCodeCookie = other.resultCodeCookie

theorem update_sameRequest (listener : NotificationListener) (notification : Notification) :
    (listener.update notification).SameRequest listener := by
  rw [update]
  cases notification.content with
  | signalInfo rxList txList =>
    simp only [updateSignalInfo]
    split <;> exact ⟨rfl,rfl,rfl⟩
  | signalDescription strSignalDescription =>
    simp only [updateDescription]
    split <;> exact ⟨rfl,rfl,rfl⟩
  | state eState =>
    simp only [updateState]
    repeat' split
    all_goals exact ⟨rfl,rfl,rfl⟩
  | property strPath strVal =>
    simp only [updateProperty]
    repeat' split
    all_goals exact ⟨rfl,rfl,rfl⟩
  | resultCode nCommandCookie nResultCode =>
    simp only [updateResultCode]
    split <;> exact ⟨rfl,rfl,rfl⟩
  | nameChanged strOldName =>
    simp only [updateNameChanged]
    repeat' split
    all_goals exact ⟨rfl,rfl,rfl⟩

private def requestType : Content → RequestType
  | .signalInfo .. => .airtSignalInfo
  | .signalDescription _ => .airtResolveSignalType
  | .state _ | .property .. => .airtElementState
  | .resultCode .. => .airtResultCode
  | .nameChanged _ => .airtNameChanged

private theorem update_of_other {listener : NotificationListener} {notification : Notification}
    (hother : listener.eRequestType ≠ requestType notification.content) : listener.update notification = listener := by
  rw [update]
  cases hcontent : notification.content <;> rw [hcontent] at hother <;> exact if_pos (.inl hother)

end NotificationListener

/-- The answers that carry no cookie. -/
def Command.asksFor : Command → Content → Bool
  | .resolveSignalType _, .signalDescription _ | .getSignalInfo, .signalInfo .. => true
  | _, _ => false

/-- What the answer to a command looks like to its listener. -/
def Exchange.Recognizes (exchange : Exchange) (notification : Notification) : Prop :=
  exchange.command.asksFor notification.content = true ∧
      notification.sender = exchange.listener.strRemoteParticipant ∨
    ∃ command nResultCode, exchange.command = .awaited command ∧
      notification.content = .resultCode exchange.listener.resultCodeCookie nResultCode

theorem Exchange.value_update {exchange : Exchange} {cookie : Int}
    (hsame : exchange.listener.SameRequest (exchange.command.listener cookie exchange.receiver))
    (notification : Notification) {delivered : Delivered}
    (hvalue : {exchange with listener := exchange.listener.update notification}.value = some delivered) :
    exchange.listener.update notification = exchange.listener ∨
      exchange.Recognizes notification ∧ notification.content.delivered = some delivered := by
  by_cases hkind : exchange.listener.eRequestType = NotificationListener.requestType notification.content
  case neg => exact .inl (NotificationListener.update_of_other hkind)
  rw [hsame.request] at hkind
  have hrequest := hsame.request
  obtain ⟨number,command,receiver,listener,phase⟩ := exchange
  obtain ⟨sender,content,answers⟩ := notification
  simp only [Exchange.value,NotificationListener.update] at hvalue hrequest ⊢
  cases command with
  | nameChange strNewName => cases hvalue
  | control eEvent => cases hvalue
  | resolveSignalType strSignalType =>
    have hrequest : listener.eRequestType = .airtResolveSignalType := hrequest
    cases content <;> cases hkind
    rename_i strSignalDescription
    simp only [NotificationListener.updateDescription] at hvalue ⊢
    by_cases hsender : listener.strRemoteParticipant = sender
    · rw [if_neg (not_or.mpr ⟨not_not.mpr hrequest,not_not.mpr hsender⟩)] at hvalue
      exact .inr ⟨.inl ⟨rfl,hsender.symm⟩,hvalue⟩
    · exact .inl (if_pos (.inr hsender))
  | getSignalInfo =>
    have hrequest : listener.eRequestType = .airtSignalInfo := hrequest
    cases content <;> cases hkind
    rename_i rxList txList
    simp only [NotificationListener.updateSignalInfo] at hvalue ⊢
    by_cases hsender : listener.strRemoteParticipant = sender
    · rw [if_neg (not_or.mpr ⟨not_not.mpr hrequest,not_not.mpr hsender⟩)] at hvalue
      exact .inr ⟨.inl ⟨rfl,hsender.symm⟩,hvalue⟩
    · exact .inl (if_pos (.inr hsender))
  | awaited command =>
    have hrequest : listener.eRequestType = .airtResultCode := hrequest
    cases content <;> cases hkind
    rename_i nCommandCookie nResultCode
    simp only [NotificationListener.updateResultCode] at hvalue ⊢
    by_cases hcookie : nCommandCookie = listener.resultCodeCookie
    · rw [if_neg (not_or.mpr ⟨not_not.mpr hrequest,not_not.mpr hcookie⟩)] at hvalue
      exact .inr ⟨.inr ⟨command,nResultCode,rfl,by rw [hcookie]⟩,hvalue⟩
    · exact .inl (if_pos (.inr hcookie))

namespace AutomationState

variable {interface : AutomationInterface} {state grown : AutomationState} {listeners : List Nat}
variable {call : Call} {notification : Notification}

/-- The notification is the answer of an addressed participant to the command of this number. -/
structure Answers (interface : AutomationInterface) (state : AutomationState) (answer : Notification)
    (number : Nat) : Prop where
  answered : answer ∈ state.answered
  answers : answer.answers = some number
  addressed : ∃ command receiver, state.commands[number]? = some (command,receiver) ∧
    interface.addresses receiver answer.sender = true

/-- What was delivered answers a command of the request, whose commands are those from `first` on and before `last`. -/
def OwnAnswer (interface : AutomationInterface) (state : AutomationState) (first last : Nat)
    (delivered : Nat × Delivered) : Prop :=
  first ≤ delivered.1 ∧ delivered.1 < last ∧
    ∃ answer, state.Answers interface answer delivered.1 ∧ answer.content.delivered = some delivered.2

/-- Whether a command is one `ResolveSignalType` transmits. -/
def resolves : Command → Bool
  | .resolveSignalType _ => true
  | _ => false

/-- `ResolveSignalType` does not time out, or a description or signal list that the waiting request takes for its
answer answers it. -/
def OnlyOwnAnswers (state : AutomationState) : AutomationAction → Prop
  | .timeOut => ∀ exchange ∈ state.exchange, resolves exchange.command = false
  | .deliver notification => ∀ exchange ∈ state.exchange,
      exchange.command.asksFor notification.content = true → notification.sender = exchange.receiver →
        notification.answers = some exchange.number
  | _ => True

structure Grows (state grown : AutomationState) : Prop where
  commands : state.commands <+: grown.commands
  answered : state.answered ⊆ grown.answered

theorem Answers.grow {answer : Notification} {number : Nat} (hgrows : state.Grows grown)
    (h : state.Answers interface answer number) : grown.Answers interface answer number := by
  obtain ⟨command,receiver,hcommand,haddressed⟩ := h.addressed
  refine ⟨hgrows.answered h.answered,h.answers,command,receiver,?_,haddressed⟩
  obtain ⟨more,hmore⟩ := hgrows.commands
  rw [← hmore]
  exact getElem?_append_left (List.getElem?_eq_some_iff.mp hcommand).1 ▸ hcommand

theorem OwnAnswer.grow {first last : Nat} {delivered : Nat × Delivered} (hgrows : state.Grows grown)
    (h : state.OwnAnswer interface first last delivered) : grown.OwnAnswer interface first last delivered := by
  obtain ⟨hfirst,hlast,answer,hanswers,hdelivered⟩ := h
  exact ⟨hfirst,hlast,answer,hanswers.grow hgrows,hdelivered⟩

/-- The exchange in progress: its listener holds an answer as soon as it has been notified. -/
structure Exchanging (interface : AutomationInterface) (state : AutomationState) (exchange : Exchange) : Prop where
  issued : state.commands[exchange.number]? = some (exchange.command,exchange.receiver)
  sameRequest : exchange.listener.SameRequest
    (exchange.command.listener (interface.cookie exchange.number) exchange.receiver)
  holds : 0 < exchange.listener.eventNotificationReceived ∨ exchange.phase = .woken .errNoError →
    ∀ delivered, exchange.value = some delivered →
      ∃ answer, state.Answers interface answer exchange.number ∧ answer.content.delivered = some delivered
  resolved : ∀ nResult, exchange.phase = .woken nResult → nResult ≠ .errNoError → resolves exchange.command = false

/-- What holds between the steps of a request. -/
structure Calling (interface : AutomationInterface) (listeners : List Nat) (state : AutomationState)
    (call : Call) : Prop where
  before : call.before = listeners.map .foreign
  first : call.first ≤ state.commands.length
  exchange : ∀ exchange, call.exchange = some exchange →
    call.first ≤ exchange.number ∧ state.Exchanging interface exchange
  delivered : ∀ delivered ∈ call.delivered,
    state.OwnAnswer interface call.first state.commands.length delivered

/-- A request has left the listeners as they were and delivered the answers to its own commands. -/
structure ReturnedWell (interface : AutomationInterface) (state : AutomationState) (returned : Returned) : Prop where
  listeners : returned.after = returned.before
  own : ∀ delivered ∈ returned.delivered, state.OwnAnswer interface returned.first returned.last delivered

/-- The registered listeners are those of others, and that of the exchange in progress. -/
structure RequestsInv (interface : AutomationInterface) (listeners : List Nat) (state : AutomationState) : Prop where
  registered : state.registered =
    listeners.map .foreign ++ (state.exchange.map fun exchange => ListenerId.own exchange.number).toList
  inScope : state.goneOutOfScope = false
  answered : ∀ answer ∈ state.answered, ∃ number, state.Answers interface answer number ∧
    ∀ cookie nResultCode, answer.content = .resultCode cookie nResultCode → cookie = interface.cookie number
  call : ∀ call, state.call = some call → state.Calling interface listeners call
  returned : ∀ returned ∈ state.returned, state.ReturnedWell interface returned

variable {exchange : Exchange}

theorem Exchanging.grow (hgrows : state.Grows grown)
    (h : state.Exchanging interface exchange) : grown.Exchanging interface exchange := by
  refine ⟨?_,h.sameRequest,?_,h.resolved⟩
  · obtain ⟨more,hmore⟩ := hgrows.commands
    rw [← hmore,getElem?_append_left (List.getElem?_eq_some_iff.mp h.issued).1,h.issued]
  · intro hnotified delivered hvalue
    obtain ⟨answer,hanswers,hdelivered⟩ := h.holds hnotified delivered hvalue
    exact ⟨answer,hanswers.grow hgrows,hdelivered⟩

theorem ReturnedWell.grow {returned : Returned} (hgrows : state.Grows grown)
    (h : state.ReturnedWell interface returned) : grown.ReturnedWell interface returned :=
  ⟨h.listeners,fun delivered hdelivered => (h.own delivered hdelivered).grow hgrows⟩

theorem Calling.grow {call : Call} (hgrows : state.Grows grown) (h : state.Calling interface listeners call) :
    grown.Calling interface listeners call := by
  have hlength := hgrows.commands.length_le
  refine ⟨h.before,le_trans h.first hlength,?_,?_⟩
  · intro exchange hexchange
    obtain ⟨hfirst,hexchanging⟩ := h.exchange exchange hexchange
    exact ⟨hfirst,hexchanging.grow hgrows⟩
  · intro delivered hdelivered
    obtain ⟨hfirst,hlast,hanswer⟩ := (h.delivered delivered hdelivered).grow hgrows
    exact ⟨hfirst,lt_of_lt_of_le hlast hlength,hanswer⟩

theorem Grows.of_eq (hcommands : grown.commands = state.commands) (hanswered : grown.answered = state.answered) :
    state.Grows grown :=
  ⟨hcommands ▸ prefix_rfl,hanswered ▸ List.Subset.refl _⟩

theorem RequestsInv.quiet (h : state.RequestsInv interface listeners)
    (hcommands : grown.commands = state.commands) (hanswered : grown.answered = state.answered)
    (hscope : grown.goneOutOfScope = state.goneOutOfScope) (hregistered : grown.registered =
      listeners.map .foreign ++ (grown.exchange.map fun exchange => ListenerId.own exchange.number).toList)
    (hcall : ∀ call, grown.call = some call → grown.Calling interface listeners call)
    (hreturned : ∀ returned ∈ grown.returned, returned ∈ state.returned ∨ returned.after = returned.before ∧
      ∀ delivered ∈ returned.delivered, state.OwnAnswer interface returned.first returned.last delivered) :
    grown.RequestsInv interface listeners := by
  have hgrows := Grows.of_eq hcommands hanswered
  refine ⟨hregistered,hscope.trans h.inScope,?_,hcall,?_⟩
  · rw [hanswered]
    intro answer hmem
    obtain ⟨number,hanswers,hcookie⟩ := h.answered answer hmem
    exact ⟨number,hanswers.grow hgrows,hcookie⟩
  · intro returned hmem
    rcases hreturned returned hmem with hbefore | ⟨hafter,hown⟩
    · exact (h.returned returned hbefore).grow hgrows
    · exact ⟨hafter,fun delivered hdelivered => (hown delivered hdelivered).grow hgrows⟩

theorem exchange_of_call {call : Call} (hcall : state.call = some call) : state.exchange = call.exchange := by
  rw [AutomationState.exchange,hcall]
  rfl

theorem begin_inv (h : state.RequestsInv interface listeners) {request : Request}
    (hstep : interface.begin state request = some grown) : grown.RequestsInv interface listeners := by
  rw [AutomationInterface.begin] at hstep
  split at hstep
  · cases hstep
  · rename_i hidle
    have hidle : state.call = none := by simpa using hidle
    have hexchange : state.exchange = none := by rw [AutomationState.exchange,hidle]; rfl
    have hregistered := h.registered
    rw [hexchange] at hregistered
    split at hstep <;> cases hstep
    · refine h.quiet rfl rfl rfl hregistered ?_ fun returned hmem => .inl hmem
      intro call hcall
      cases hcall
      refine ⟨hregistered.trans (by simp),le_refl _,?_,?_⟩
      · intro exchange hexchange
        cases hexchange
      · intro delivered hdelivered
        cases hdelivered
    · refine h.quiet rfl rfl rfl (h.registered.trans rfl) ?_ ?_
      · intro call hcall
        rw [hidle] at hcall
        cases hcall
      · intro returned hmem
        rcases mem_append.mp hmem with hbefore | hnew
        · exact .inl hbefore
        · obtain rfl := mem_singleton.mp hnew
          exact .inr ⟨rfl,fun delivered hdelivered => by cases hdelivered⟩

private theorem listener_idle (cookie : Int) (receiver : String) (command : Command) :
    (command.listener cookie receiver).eventNotificationReceived = 0 := by
  cases command <;> rfl

theorem own_not_mem (number : Nat) : ListenerId.own number ∉ listeners.map ListenerId.foreign := by
  simp

section
variable (h : state.RequestsInv interface listeners)
include h

theorem next_inv (hstep : interface.next state = some grown) : grown.RequestsInv interface listeners := by
  rw [AutomationInterface.next] at hstep
  split at hstep
  · cases hstep
  · rename_i call hcall
    have hcalling := h.call call hcall
    split at hstep
    · cases hstep
    · rename_i hidle
      have hidle : call.exchange = none := by simpa using hidle
      have hregistered := h.registered
      rw [exchange_of_call hcall,hidle] at hregistered
      split at hstep
      · cases hstep
        refine h.quiet rfl rfl rfl hregistered (fun call hcall => by cases hcall) ?_
        intro returned hmem
        rcases mem_append.mp hmem with hbefore | hnew
        · exact .inl hbefore
        · obtain rfl := mem_singleton.mp hnew
          exact .inr ⟨hregistered.trans (by simp [hcalling.before]),hcalling.delivered⟩
      · rename_i command receiver pending hpending
        have hregistered : state.registered = listeners.map .foreign := by simpa using hregistered
        have hgrows : state.Grows grown := by
          cases hstep
          exact ⟨prefix_append _ _,List.Subset.refl _⟩
        cases hstep
        refine ⟨?_,h.inScope,?_,?_,fun returned hmem => (h.returned returned hmem).grow hgrows⟩
        · simp only [registerNotificationListener,hregistered,if_neg (own_not_mem _)]
          rfl
        · intro answer hmem
          obtain ⟨number,hanswers,hcookie⟩ := h.answered answer hmem
          exact ⟨number,hanswers.grow hgrows,hcookie⟩
        · intro next hnext
          cases hnext
          have hgrown := hcalling.grow hgrows
          refine ⟨hgrown.before,hgrown.first,?_,hgrown.delivered⟩
          intro exchange hexchange
          cases hexchange
          refine ⟨hcalling.first,by simp [registerNotificationListener],⟨rfl,rfl,rfl⟩,?_,?_⟩
          · rintro (hnotified | hwoken)
            · rw [listener_idle] at hnotified
              cases hnotified
            · cases hwoken
          · intro nResult hwoken
            cases hwoken

theorem RequestsInv.exchanged {call : Call} (hcall : state.call = some call)
    (hexchange : call.exchange = some exchange) (next : Exchange) (hnumber : next.number = exchange.number)
    (hnext : state.Exchanging interface next) (hgrown : grown.call = some {call with exchange := some next})
    (hcommands : grown.commands = state.commands) (hanswered : grown.answered = state.answered)
    (hscope : grown.goneOutOfScope = state.goneOutOfScope) (hregistered : grown.registered = state.registered)
    (hreturned : grown.returned = state.returned) : grown.RequestsInv interface listeners := by
  have hbefore := h.registered
  rw [exchange_of_call hcall,hexchange] at hbefore
  refine h.quiet hcommands hanswered hscope ?_ ?_ fun returned hmem => .inl (hreturned ▸ hmem)
  · rw [hregistered,hbefore,exchange_of_call hgrown]
    simp [hnumber]
  · intro changed hchanged
    obtain rfl := some.inj (hgrown.symm.trans hchanged)
    have hcalling := h.call call hcall
    have hgrows := Grows.of_eq hcommands hanswered
    refine ⟨hcalling.before,hcommands ▸ hcalling.first,?_,(hcalling.grow hgrows).delivered⟩
    intro other hother
    cases hother
    exact ⟨hnumber ▸ (hcalling.exchange exchange hexchange).1,hnext.grow hgrows⟩

private theorem erase_own (hexchange : state.exchange = some exchange) :
    state.registered.erase (.own exchange.number) = listeners.map .foreign := by
  rw [h.registered,hexchange,erase_append_right _ (own_not_mem _)]
  simp

theorem endExchange_inv
    (hcall : state.call = some call) (hexchange : call.exchange = some exchange) (nResult : Result)
    {more : List (Nat × Delivered)} (hmore : ∀ delivered ∈ more,
      state.OwnAnswer interface call.first state.commands.length delivered) :
    ((state.unregisterNotificationListener (.own exchange.number)).endExchange call nResult more).RequestsInv
      interface listeners := by
  have hcalling := h.call call hcall
  have hregistered := erase_own h ((exchange_of_call hcall).trans hexchange)
  have hgrows : state.Grows ((state.unregisterNotificationListener (.own exchange.number)).endExchange call nResult
      more) := Grows.of_eq rfl rfl
  refine h.quiet rfl rfl rfl (hregistered.trans (append_nil _).symm) ?_ fun returned hmem => .inl hmem
  intro next hnext
  cases hnext
  refine ⟨hcalling.before,hcalling.first,?_,?_⟩
  · intro exchange hexchange
    cases hexchange
  · intro delivered hdelivered
    rcases mem_append.mp hdelivered with hbefore | hnew
    · exact (hcalling.delivered delivered hbefore).grow hgrows
    · exact (hmore delivered hnew).grow hgrows

theorem transmit_inv {succeeds : Bool}
    (hstep : AutomationInterface.transmit state succeeds = some grown) : grown.RequestsInv interface listeners := by
  rw [AutomationInterface.transmit] at hstep
  split at hstep
  · cases hstep
  · rename_i call hcall
    split at hstep
    · cases hstep
    · rename_i exchange hexchange
      have hexchanging := ((h.call call hcall).exchange exchange hexchange).2
      split at hstep
      · cases hstep
      · split at hstep <;> cases hstep
        · refine h.exchanged hcall hexchange {exchange with phase := .waiting} rfl ?_ rfl rfl rfl rfl rfl rfl
          refine ⟨hexchanging.issued,hexchanging.sameRequest,?_,fun nResult hwoken => by cases hwoken⟩
          rintro (hnotified | hwoken)
          · exact hexchanging.holds (.inl hnotified)
          · cases hwoken
        · exact endExchange_inv h hcall hexchange _ fun delivered hdelivered => by cases hdelivered

theorem wake_inv {timedOut : Bool} (hcond : timedOut = true → state.OnlyOwnAnswers .timeOut)
    (hstep : AutomationInterface.wake state timedOut = some grown) : grown.RequestsInv interface listeners := by
  rw [AutomationInterface.wake] at hstep
  split at hstep
  · cases hstep
  · rename_i call hcall
    split at hstep
    · cases hstep
    · rename_i exchange hexchange
      have hexchanging := ((h.call call hcall).exchange exchange hexchange).2
      split at hstep <;> cases hstep
      rename_i hguard
      obtain ⟨-,hevent⟩ := not_or.mp hguard
      refine h.exchanged hcall hexchange { exchange with
        listener := { exchange.listener with
          eventNotificationReceived := exchange.listener.eventNotificationReceived - 1 }
        phase := .woken (if timedOut then .errTimeout else .errNoError) } rfl ?_ rfl rfl rfl rfl rfl rfl
      have hsame := hexchanging.sameRequest
      refine ⟨hexchanging.issued,⟨hsame.request,hsame.remote,hsame.cookie⟩,?_,?_⟩
      · intro hnotified
        apply hexchanging.holds
        rcases hnotified with hnotified | hwoken
        · exact .inl (lt_of_lt_of_le hnotified (sub_le _ _))
        · cases timedOut with
          | false => exact .inl (pos_of_ne_zero (by simpa using hevent))
          | true => cases hwoken
      · intro nResult hwoken hfailed
        cases timedOut with
        | false =>
          cases hwoken
          exact absurd rfl hfailed
        | true => exact hcond rfl exchange ((exchange_of_call hcall).trans hexchange)

theorem finish_inv (hstep : interface.finish state = some grown) : grown.RequestsInv interface listeners := by
  rw [AutomationInterface.finish] at hstep
  split at hstep
  · cases hstep
  · rename_i call hcall
    split at hstep
    · cases hstep
    · rename_i exchange hexchange
      obtain ⟨hfirst,hexchanging⟩ := (h.call call hcall).exchange exchange hexchange
      split at hstep <;> cases hstep
      rename_i nResult hphase
      have hunregistered : state.finishExchange interface call exchange nResult =
          (state.unregisterNotificationListener (.own exchange.number)).endExchange call
            (exchange.result interface.failedBool nResult)
            (if isOk (exchange.result interface.failedBool nResult) then
              (exchange.value.map fun value => (exchange.number,value)).toList else []) := by
        rw [finishExchange]
        split
        · rename_i strSignalType hcommand
          by_cases hok : nResult = .errNoError
          · simp [hok]
          · have hresolved := hexchanging.resolved nResult hphase hok
            rw [hcommand] at hresolved
            cases hresolved
        · rfl
      rw [hunregistered]
      apply endExchange_inv h hcall hexchange
      intro delivered hdelivered
      split at hdelivered
      · rename_i hok
        simp only [mem_toList,map_eq_some_iff] at hdelivered
        obtain ⟨value,hvalue,rfl⟩ := hdelivered
        have hresult : nResult = .errNoError := by
          apply by_contra
          intro hfailed
          rw [Exchange.result,if_pos (by simpa using hfailed)] at hok
          exact hfailed (by simpa using hok)
        rw [hresult] at hphase
        exact ⟨hfirst,(List.getElem?_eq_some_iff.mp hexchanging.issued).1,hexchanging.holds (.inr hphase) value hvalue⟩
      · cases hdelivered

theorem respond_inv {number : Nat} {participant : String}
    {answer : Answer} (hstep : interface.respond state number participant answer = some grown) :
    grown.RequestsInv interface listeners := by
  rw [AutomationInterface.respond] at hstep
  split at hstep
  · cases hstep
  · rename_i command receiver hcommand
    split at hstep
    · rename_i haddressed
      obtain ⟨content,hcontent,rfl⟩ := map_eq_some_iff.mp hstep
      have hgrows : state.Grows { state with
          answered := ⟨participant,content,some number⟩::state.answered } :=
        ⟨prefix_rfl,subset_cons_self _ _⟩
      refine ⟨h.registered,h.inScope,?_,fun call hcall => (h.call call hcall).grow hgrows,
        fun returned hmem => (h.returned returned hmem).grow hgrows⟩
      intro notification hmem
      rcases mem_cons.mp hmem with rfl | hmem
      · refine ⟨number,⟨mem_cons_self,rfl,command,receiver,hcommand,haddressed.2⟩,?_⟩
        intro cookie nResultCode hcode
        cases command <;> cases answer <;> cases hcontent <;> cases hcode
        rfl
      · obtain ⟨other,hanswers,hcookie⟩ := h.answered notification hmem
        exact ⟨other,hanswers.grow hgrows,hcookie⟩
    · cases hstep

end

theorem answers_of_recognizes (hcookies : Function.Injective interface.cookie)
    (h : state.RequestsInv interface listeners) (hexchanging : state.Exchanging interface exchange)
    {notification : Notification} (hmem : notification ∈ state.answered)
    (hcond : exchange.command.asksFor notification.content = true → notification.sender = exchange.receiver →
      notification.answers = some exchange.number) (hrecognizes : exchange.Recognizes notification) :
    state.Answers interface notification exchange.number := by
  obtain ⟨number,hanswers,hcookie⟩ := h.answered notification hmem
  have hsame := hexchanging.sameRequest
  suffices hnumber : number = exchange.number from hnumber ▸ hanswers
  rcases hrecognizes with ⟨hasks,hsender⟩ | ⟨command,nResultCode,hcommand,hcode⟩
  · have hremote : (exchange.command.listener (interface.cookie exchange.number)
        exchange.receiver).strRemoteParticipant = exchange.receiver := by
      cases hcommand : exchange.command with
      | nameChange strNewName =>
        rw [hcommand] at hasks
        cases hasks
      | resolveSignalType strSignalType => rfl
      | getSignalInfo => rfl
      | control eEvent => rfl
      | awaited command => rfl
    have hown := hcond hasks (hsender.trans (hsame.remote.trans hremote))
    exact some.inj (hanswers.answers.symm.trans hown)
  · have hlistener : exchange.listener.resultCodeCookie = interface.cookie exchange.number := by
      rw [hsame.cookie,hcommand]
      rfl
    exact hcookies ((hcookie _ _ hcode).symm.trans hlistener)

private theorem notifyListeners_inScope (h : state.RequestsInv interface listeners) (notification : Notification) :
    (state.notifyListeners notification).goneOutOfScope = state.goneOutOfScope := by
  have hnone : state.registered.any state.outOfScope = false := by
    rw [h.registered,any_append,List.any_map]
    cases hexchange : state.exchange with
    | none => simp [Function.comp_def,outOfScope]
    | some exchange => simp [Function.comp_def,outOfScope,hexchange]
  rw [notifyListeners,hnone,Bool.or_false]

private theorem delivered_of_unasked {content : Content} (h : content.isUnasked = true) : content.delivered = none := by
  cases content <;> first | rfl | cases h

private theorem exists_call (hexchange : state.exchange = some exchange) :
    ∃ call, state.call = some call ∧ call.exchange = some exchange :=
  bind_eq_some_iff.mp hexchange

theorem deliver_inv (hcookies : Function.Injective interface.cookie)
    (h : state.RequestsInv interface listeners) {notification : Notification}
    (hcond : state.OnlyOwnAnswers (.deliver notification))
    (hstep : AutomationInterface.deliver state notification = some grown) : grown.RequestsInv interface listeners := by
  rw [AutomationInterface.deliver] at hstep
  split at hstep
  case isFalse => cases hstep
  rename_i hsent
  have hscope := notifyListeners_inScope h notification
  cases hstep
  cases hexchange : state.exchange with
  | none =>
    have hcall : (state.notifyListeners notification).call = state.call := by
      rw [notifyListeners]
      cases hcall : state.call with
      | none => rfl
      | some call =>
        rw [exchange_of_call hcall] at hexchange
        simp only [map_some,hexchange,map_none]
        rw [← hexchange]
    refine h.quiet rfl rfl hscope ?_ ?_ fun returned hmem => .inl hmem
    · rw [AutomationState.exchange,hcall]
      exact h.registered
    · intro call hchanged
      have hgrows : state.Grows (state.notifyListeners notification) := Grows.of_eq rfl rfl
      exact (h.call call (hcall.symm.trans hchanged)).grow hgrows
  | some exchange =>
    obtain ⟨call,hcall,hcalled⟩ := exists_call hexchange
    have hexchanging := ((h.call call hcall).exchange exchange hcalled).2
    have hregistered : ListenerId.own exchange.number ∈ state.registered := by
      rw [h.registered,hexchange]
      exact mem_append_right _ mem_cons_self
    refine h.exchanged hcall hcalled {exchange with listener := exchange.listener.update notification} rfl ?_ ?_
      rfl rfl hscope rfl rfl
    · have hupdate := exchange.listener.update_sameRequest notification
      have hsame := hexchanging.sameRequest
      refine ⟨hexchanging.issued,⟨hupdate.request.trans hsame.request,hupdate.remote.trans hsame.remote,
        hupdate.cookie.trans hsame.cookie⟩,?_,hexchanging.resolved⟩
      intro hnotified delivered hvalue
      rcases Exchange.value_update hsame notification hvalue with hquiet | ⟨hrecognizes,hdelivered⟩
      · rw [hquiet] at hnotified hvalue
        exact hexchanging.holds hnotified delivered hvalue
      · rcases hsent with hmem | ⟨-,hunasked⟩
        · exact ⟨notification,answers_of_recognizes hcookies h hexchanging hmem (hcond exchange hexchange)
            hrecognizes,hdelivered⟩
        · rw [delivered_of_unasked hunasked] at hdelivered
          cases hdelivered
    · simp only [notifyListeners,hcall,map_some,hcalled,if_pos hregistered]

end AutomationState

namespace AutomationInterface
open AutomationState

variable {interface : AutomationInterface} {state : AutomationState}

private theorem requestsInv_start (listeners : List Nat) :
    (AutomationState.start listeners).RequestsInv interface listeners := by
  refine ⟨(append_nil _).symm,rfl,?_,?_,?_⟩
  · intro answer hmem
    cases hmem
  · intro call hcall
    cases hcall
  · intro returned hmem
    cases hmem

private theorem requestsInv_step (hcookies : Function.Injective interface.cookie) {listeners : List Nat}
    (s : AutomationState) (action : AutomationAction) (t : AutomationState) (h : s.RequestsInv interface listeners)
    (hcond : s.OnlyOwnAnswers action) (hstep : interface.step s action = some t) :
    t.RequestsInv interface listeners := by
  cases action with
  | begin request => exact begin_inv h hstep
  | next => exact next_inv h hstep
  | transmit succeeds => exact transmit_inv h hstep
  | wake => exact wake_inv h (fun h => by cases h) hstep
  | timeOut => exact wake_inv h (fun _ => hcond) hstep
  | finish => exact finish_inv h hstep
  | respond number participant answer => exact respond_inv h hstep
  | deliver notification => exact deliver_inv hcookies h hcond hstep

/-- A request leaves the listeners as they were, none is called after its request has returned, and it delivers the
addressed participant's answer to one of its own commands, unless `ResolveSignalType` times out or a late answer of
the same kind arrives from that participant. -/
theorem requests_own_answers (hcookies : Function.Injective interface.cookie) {listeners : List Nat}
    (h : Reaches interface.step OnlyOwnAnswers (AutomationState.start listeners) state) :
    state.goneOutOfScope = false ∧ ∀ returned ∈ state.returned, returned.after = returned.before ∧
      ∀ delivered ∈ returned.delivered, state.OwnAnswer interface returned.first returned.last delivered := by
  have hinv := h.invariant (requestsInv_start listeners) (requestsInv_step hcookies)
  refine ⟨hinv.inScope,fun returned hmem => ?_⟩
  have hwell := hinv.returned returned hmem
  exact ⟨hwell.listeners,hwell.own⟩

instance (state : AutomationState) (action : AutomationAction) : Decidable (state.OnlyOwnAnswers action) :=
  match action with
  | .timeOut => inferInstanceAs (Decidable (∀ exchange ∈ state.exchange, resolves exchange.command = false))
  | .deliver notification => inferInstanceAs (Decidable (∀ exchange ∈ state.exchange,
      exchange.command.asksFor notification.content = true → notification.sender = exchange.receiver →
        notification.answers = some exchange.number))
  | .begin _ | .next | .transmit _ | .wake | .finish | .respond .. => inferInstanceAs (Decidable True)

/-- An interface whose commands have their numbers as cookies, and participants that are named in full. -/
def plainInterface : AutomationInterface :=
  ⟨"AI",fun pattern text => pattern == text,fun number => number,fun _ => true,fun value => !value⟩

/-- Two commands to the same participant, the first of which is answered too late. -/
theorem requests_own_answers_late : ∃ state : AutomationState,
    Reaches plainInterface.step OnlyOwnAnswers (AutomationState.start [3]) state ∧
      state.returned.map (·.nResult) = [.errTimeout,.errNoError,.errNoError] ∧ state.goneOutOfScope = false ∧
      ∀ returned ∈ state.returned, returned.after = returned.before ∧ ∀ delivered ∈ returned.delivered,
        state.OwnAnswer plainInterface returned.first returned.last delivered := by
  obtain ⟨state,hreach,hresults⟩ : ∃ state, Reaches plainInterface.step OnlyOwnAnswers (AutomationState.start [3])
      state ∧ state.returned.map (·.nResult) = [.errTimeout,.errNoError,.errNoError] :=
    exists_of_runAllowed [.begin (.performCommand (.muteSignal "s" true) "A" 5),.next,.transmit true,.timeOut,
      .finish,.next,.begin (.performCommand (.muteSignal "s" true) "A" 5),.next,
      .respond 0 "A" (.resultCode .errFailed),.transmit true,.deliver ⟨"A",.resultCode 0 .errFailed,some 0⟩,
      .respond 1 "A" (.resultCode .errNoError),.deliver ⟨"A",.resultCode 1 .errNoError,some 1⟩,.wake,.finish,
      .next,.begin (.resolveSignalType "t" "A" 5),.next,.transmit true,.respond 2 "A" (.signalDescription "d"),
      .deliver ⟨"A",.signalDescription "d",some 2⟩,.wake,.finish,.next] (by decide +kernel)
  exact ⟨state,hreach,hresults,requests_own_answers (fun _ _ h => Int.ofNat.inj h) hreach⟩

/-- The listener of a timed out `ResolveSignalType` stays registered; the next request for another type delivers the
late description. -/
theorem resolve_timed_out : Function.Injective plainInterface.cookie ∧ ∃ state : AutomationState,
    Reaches plainInterface.step anyAction (AutomationState.start [3]) state ∧ state.goneOutOfScope = true ∧
      ∃ first second, state.returned = [first,second] ∧ first.after ≠ first.before ∧
        second.nResult = .errNoError ∧ second.delivered = [(1,.description "t1")] ∧
        ¬state.OwnAnswer plainInterface second.first second.last (1,.description "t1") := by
  refine ⟨fun _ _ h => Int.ofNat.inj h,?_⟩
  obtain ⟨state,hreach,hfacts⟩ : ∃ state, Reaches plainInterface.step anyAction (AutomationState.start [3]) state ∧
      (state.goneOutOfScope = true ∧ state.answered = [⟨"A",.signalDescription "t1",some 0⟩]) ∧
      state.returned = [⟨.resolveSignalType "t1" "A" 5,[.foreign 3],[.foreign 3,.own 0],0,1,.errTimeout,[]⟩,
      ⟨.resolveSignalType "t2" "A" 5,[.foreign 3,.own 0],[.foreign 3,.own 0],1,2,.errNoError,
      [(1,.description "t1")]⟩] :=
    exists_of_runActions [.begin (.resolveSignalType "t1" "A" 5),.next,.transmit true,.timeOut,.finish,.next,
      .respond 0 "A" (.signalDescription "t1"),.begin (.resolveSignalType "t2" "A" 5),.next,.transmit true,
      .deliver ⟨"A",.signalDescription "t1",some 0⟩,.wake,.finish,.next] (by decide +kernel)
  obtain ⟨⟨hgone,hanswered⟩,hreturned⟩ := hfacts
  refine ⟨state,hreach,hgone,_,_,hreturned,by decide,rfl,rfl,?_⟩
  rintro ⟨-,-,answer,hanswers,-⟩
  have hmem := hanswers.answered
  rw [hanswered] at hmem
  obtain rfl := mem_singleton.mp hmem
  exact absurd hanswers.answers (by decide)

end AutomationInterface
end FepParticipant.Automation
