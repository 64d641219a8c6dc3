import FepParticipant.PropertyTree.JSONRoundTrip
import FepParticipant.PropertyTree.RemoteAccess

/-! A call for a remote property is answered by its own request, unless answers to earlier commands for
the property are still under way. -/
namespace FepParticipant.PropertyTree
open Library List

private theorem appendValues_ok {notified : Nat → Result} {szIndex : Nat} {rest : List Variant} {values : Values}
    (hok : (appendValues notified szIndex rest values).1 = .errNoError) :
    (appendValues notified szIndex rest values).2 =
      rest.foldl (fun values value => (values.appendValue value).2) values := by
  induction rest generalizing szIndex values with
  | nil => rfl
  | cons value rest ih =>
    rw [appendValues] at hok ⊢
    dsimp only at hok ⊢
    generalize (if isFailed (values.appendValue value).1 = true then (values.appendValue value).1
      else notified szIndex) = nResult at hok ⊢
    by_cases hfailed : isFailed nResult = true
    · rw [if_pos hfailed] at hok
      exact absurd hok ((isFailed_iff nResult).mp hfailed)
    · rw [if_neg hfailed] at hok ⊢
      exact ih hok

theorem values_of_updateSetProperty {notified : Nat → Result} {strPropPath : String} {values : Values}
    {root after : Property} (h : updateSetProperty notified strPropPath values root = some (.errNoError,after))
    {property : Property} (hfound : after.getSubproperty (pathNames strPropPath) = some property) :
    property.values = values := by
  simp only [updateSetProperty] at h
  generalize (if Values.notifies _ _ = true then notified 0 else Result.errNoError) = nResult at h
  by_cases hlast : (isFailed nResult || values.variants.2.isEmpty) = true
  · rw [if_pos hlast] at h
    cases h
    rw [Property.setPropertyValue,Property.getSubproperty_updateAt_setValues] at hfound
    obtain ⟨before,-,rfl⟩ := Option.map_eq_some_iff.mp hfound
    have hvalues := values.setValue_variants before.values
    rwa [List.isEmpty_iff.mp hlast] at hvalues
  · rw [if_neg hlast] at h
    obtain ⟨current,hcurrent,hpair⟩ := Option.map_eq_some_iff.mp h
    obtain ⟨hresult,rfl⟩ := Prod.mk.inj hpair
    rw [Property.getSubproperty_updateAt_setValues,hcurrent] at hfound
    cases hfound
    rw [Property.setPropertyValue,Property.getSubproperty_updateAt_setValues] at hcurrent
    obtain ⟨before,-,rfl⟩ := Option.map_eq_some_iff.mp hcurrent
    rw [Property.values_setValues,appendValues_ok hresult]
    exact values.setValue_variants before.values

namespace RemoteCall
variable {lib : NumberNodes} {call : RemoteCall}

/-- The other participant has held these values because of this very command, or the property is one it had during
the call. -/
def Answered (call : RemoteCall) (applied : List AppliedValue) : Prop :=
  match call.request with
  | .set values => ⟨call.id,call.strElementName,call.strPropPath,values⟩ ∈ applied
  | .get => ∃ trees ∈ call.seen, ∃ property, call.poProp = some property ∧
    (trees call.strElementName).getSubproperty (pathNames call.strPropPath) = some property

def command (lib : NumberNodes) (call : RemoteCall) : PropertyRequest lib :=
  match call.request with
  | .set values => .setProperty call.strPropPath (valuesToJSON lib values)
  | .get => .getProperty call.strPropPath

def AnsweredBy (call : RemoteCall) (applied : List AppliedValue) (notification : PropertyNotification lib) : Prop :=
  match call.request with
  | .set values => ⟨call.id,call.strElementName,call.strPropPath,values⟩ ∈ applied
  | .get => ∃ trees ∈ call.seen,
    (trees call.strElementName).getSubproperty (pathNames call.strPropPath) =
      some (jsonToProperty lib (.create "" (.string "")) notification.oProperty).2

end RemoteCall

def ReturnedCall.Answered (returned : ReturnedCall) : Prop := returned.call.Answered returned.applied

namespace RemoteAccess
variable {lib : NumberNodes} {bus : MessageBus} {s s' : RemoteAccess lib}
variable {participant : String}

/-- Nothing is under way that the calling participant would take for the answer to its new call, or for its command. -/
structure Settled (bus : MessageBus) (s : RemoteAccess lib) (strElementName strPropPath : String) : Prop where
  commands : ∀ entry ∈ s.commands, entry.1 = strElementName → entry.2.request.getPropertyPath = strPropPath →
    bus.fullMatch entry.2.sender bus.moduleName = false
  notifications : ∀ notification ∈ s.notifications, notification.sender = strElementName →
    notification.strPropPath ≠ strPropPath

/-- Synchronous calls are made when nothing is under way that could be taken for their answers, with values and
properties that the messages carry unchanged; during a call no participant with a matching name sends a command for
the property. -/
def Unmixed (bus : MessageBus) (s : RemoteAccess lib) : Action lib → Prop
  | .setRemotePropertyValue strElementName strPropPath value tmTimeout _ => 0 < tmTimeout →
    ∀ element path value', strElementName = some element → strPropPath = some path → value = some value' →
      s.Settled bus element path ∧ ∀ target, (jsonToValues lib target
        (valuesToJSON lib ((Values.strings "" []).setValue value'))).2 = (Values.strings "" []).setValue value'
  | .setRemotePropertyValues strElementName strPropPath firstValue tmTimeout _ => 0 < tmTimeout →
    ∀ element path values, strElementName = some element → strPropPath = some path → firstValue = .values values →
      s.Settled bus element path ∧ ∀ target, (jsonToValues lib target (valuesToJSON lib values)).2 = values
  | .getRemoteProperty strElementName strPropPath _ _ _ =>
    ∀ element path, strElementName = some element → strPropPath = some path → s.Settled bus element path
  | .foreignCommand sender _ request => ∀ call, s.call = some call →
    request.getPropertyPath = call.strPropPath → bus.fullMatch sender bus.moduleName = false
  | .deliverCommand index _ => ∀ call participant command property, s.call = some call →
    s.commands[index]? = some (participant,command) → command.id = call.id → call.request = .get →
      (s.trees participant).getSubproperty (pathNames call.strPropPath) = some property →
        (jsonToProperty lib (.create "" (.string "")) (propertyToJSON lib property)).2 = property
  | _ => True

structure CallSound (bus : MessageBus) (s : RemoteAccess lib) (call : RemoteCall) : Prop where
  trees : s.trees ∈ call.seen
  commands : ∀ entry ∈ s.commands, entry.1 = call.strElementName → entry.2.request.getPropertyPath = call.strPropPath →
    bus.fullMatch entry.2.sender bus.moduleName = true → entry.2.id = call.id ∧ entry.2.request = call.command lib
  notifications : ∀ notification ∈ s.notifications, notification.sender = call.strElementName →
    notification.strPropPath = call.strPropPath → call.AnsweredBy s.applied notification
  carried : ∀ values, call.request = .set values → ∀ target,
    (jsonToValues lib target (valuesToJSON lib values)).2 = values
  oEvent : 0 < call.oEvent → call.Answered s.applied
  nRes : call.nRes = some .errNoError → call.Answered s.applied

/-- Calls that have returned were answered, and so will be the one that waits. -/
structure Sound (bus : MessageBus) (s : RemoteAccess lib) : Prop where
  returned : ∀ returned ∈ s.returned, returned.nResult = .errNoError → returned.Answered
  call : ∀ call, s.call = some call → s.CallSound bus call

variable {call : RemoteCall} {more : List AppliedValue} {command : PropertyCommand lib}

theorem answered_more {applied : List AppliedValue} {trees : List (String → Property)}
    (h : call.Answered applied) : {call with seen := call.seen ++ trees}.Answered (applied ++ more) := by
  obtain ⟨id,strElementName,strPropPath,request,oEvent,poProp,nRes,seen⟩ := call
  cases request with
  | set values => exact mem_append_left _ h
  | get =>
    obtain ⟨trees,hseen,hproperty⟩ := h
    exact ⟨trees,mem_append_left _ hseen,hproperty⟩

theorem answeredBy_more {applied : List AppliedValue}
    {trees : List (String → Property)} {notification : PropertyNotification lib}
    (h : call.AnsweredBy applied notification) :
    {call with seen := call.seen ++ trees}.AnsweredBy (applied ++ more) notification := by
  obtain ⟨id,strElementName,strPropPath,request,oEvent,poProp,nRes,seen⟩ := call
  cases request with
  | set values => exact mem_append_left _ h
  | get =>
    obtain ⟨trees,hseen,hproperty⟩ := h
    exact ⟨trees,mem_append_left _ hseen,hproperty⟩

theorem CallSound.of_less (h : s.CallSound bus call)
    (htrees : s'.trees = s.trees) (hcommands : s'.commands ⊆ s.commands)
    (hnotifications : s'.notifications ⊆ s.notifications) (happlied : s'.applied = s.applied ++ more) :
    s'.CallSound bus call := by
  have hseen : call = {call with seen := call.seen ++ []} := by rw [append_nil]
  refine ⟨htrees ▸ h.trees,fun entry hentry => h.commands entry (hcommands hentry),
    fun notification hmem hsender hpath => ?_,h.carried,fun hevent => ?_,fun hres => ?_⟩
  · rw [happlied,hseen]
    exact answeredBy_more (h.notifications notification (hnotifications hmem) hsender hpath)
  · rw [happlied,hseen]
    exact answered_more (h.oEvent hevent)
  · rw [happlied,hseen]
    exact answered_more (h.nRes hres)

theorem trees_setTree_self (root : Property) : (s.setTree participant root).trees participant = root := if_pos rfl

theorem sound_setTree (h : s.Sound bus) (participant : String) (root : Property) :
    (s.setTree participant root).Sound bus := by
  refine ⟨h.returned,fun call hcall => ?_⟩
  obtain ⟨before,hbefore,rfl⟩ := Option.map_eq_some_iff.mp hcall
  have hsound := h.call before hbefore
  refine ⟨mem_append_right _ (mem_singleton_self _),hsound.commands,
    fun notification hmem hsender hpath => ?_,hsound.carried,fun hevent => ?_,fun hres => ?_⟩
  · have hanswered := hsound.notifications notification hmem hsender hpath
    exact append_nil s.applied ▸ answeredBy_more hanswered
  · exact append_nil s.applied ▸ answered_more (hsound.oEvent hevent)
  · exact append_nil s.applied ▸ answered_more (hsound.nRes hres)

theorem mem_transmitCommand {sender receiver : String} {request : PropertyRequest lib}
    {entry : String × PropertyCommand lib} (h : entry ∈ (s.transmitCommand bus sender receiver request).commands) :
    entry ∈ s.commands ∨ entry.2 = ⟨request,sender,s.nextId⟩ := by
  rcases mem_append.mp h with hold | hnew
  · exact .inl hold
  · obtain ⟨name,-,rfl⟩ := mem_map.mp hnew
    exact .inr rfl

section
variable (h : s.Sound bus)
include h

theorem sound_beginCall {strElementName strPropPath : String}
    (hsettled : s.Settled bus strElementName strPropPath) (request : RemoteRequest) (command : PropertyRequest lib)
    (hcommand : ∀ call : RemoteCall, call.strPropPath = strPropPath → call.request = request →
      command = call.command lib)
    (hcarried : ∀ values, request = .set values → ∀ target,
      (jsonToValues lib target (valuesToJSON lib values)).2 = values) (transmitted : Result) :
    (s.beginCall bus strElementName strPropPath request command transmitted).Sound bus := by
  have hcommands : ∀ entry ∈ (s.beginCall bus strElementName strPropPath request command transmitted).commands,
      entry ∈ s.commands ∨ entry.2 = ⟨command,bus.moduleName,s.nextId⟩ := fun entry hentry => by
    by_cases hfailed : isFailed transmitted = true
    · rw [beginCall,if_pos hfailed] at hentry
      exact .inl hentry
    · rw [beginCall,if_neg hfailed] at hentry
      exact mem_transmitCommand hentry
  have hsame : (s.beginCall bus strElementName strPropPath request command transmitted).returned = s.returned ∧
      (s.beginCall bus strElementName strPropPath request command transmitted).trees = s.trees ∧
      (s.beginCall bus strElementName strPropPath request command transmitted).notifications = s.notifications := by
    rw [beginCall]
    split <;> exact ⟨rfl,rfl,rfl⟩
  obtain ⟨hreturned,htrees,hnotifications⟩ := hsame
  refine ⟨fun returned hmem => h.returned returned (hreturned ▸ hmem),fun call hcall => ?_⟩
  cases hcall
  refine ⟨by rw [htrees]; exact mem_singleton_self _,fun entry hentry hparticipant hpath hsender => ?_,
    fun notification hmem hsender hpath => ?_,hcarried,fun hevent => ?_,fun hres => ?_⟩
  · rcases hcommands entry hentry with hold | hnew
    · rw [hsettled.commands entry hold hparticipant hpath] at hsender
      cases hsender
    · rw [hnew]
      exact ⟨rfl,hcommand _ rfl rfl⟩
  · rw [hnotifications] at hmem
    exact absurd hpath (hsettled.notifications notification hmem hsender)
  · exact absurd hevent (Nat.lt_irrefl 0)
  · cases hres

theorem sound_foreignCommand {sender : String} (receiver : String)
    {request : PropertyRequest lib} (hforeign : ∀ call, s.call = some call →
      request.getPropertyPath = call.strPropPath → bus.fullMatch sender bus.moduleName = false) :
    (s.transmitCommand bus sender receiver request).Sound bus := by
  refine ⟨h.returned,fun call hcall => ?_⟩
  have hsound := h.call call hcall
  refine ⟨hsound.trees,fun entry hentry hparticipant hpath hsender => ?_,hsound.notifications,hsound.carried,
    hsound.oEvent,hsound.nRes⟩
  rcases mem_transmitCommand hentry with hold | hnew
  · exact hsound.commands entry hold hparticipant hpath hsender
  · rw [hnew] at hpath hsender
    rw [hforeign call hcall hpath] at hsender
    cases hsender

theorem sound_answer (hanswers : ∀ call, s.call = some call → participant = call.strElementName →
      command.request.getPropertyPath = call.strPropPath → bus.fullMatch command.sender bus.moduleName = true →
      ∀ property, (s.trees participant).getSubproperty (pathNames call.strPropPath) = some property →
        call.AnsweredBy s.applied
          (⟨call.strPropPath,propertyToJSON lib property,participant⟩ : PropertyNotification lib)) :
    (s.answer bus participant command).Sound bus := by
  rw [answer]
  cases hfound : (s.trees participant).getSubproperty (pathNames command.request.getPropertyPath) with
  | none => exact h
  | some property =>
    dsimp only
    rw [transmitNotification]
    split
    · rename_i hmatch
      refine ⟨h.returned,fun call hcall => ?_⟩
      have hsound := h.call call hcall
      refine ⟨hsound.trees,hsound.commands,fun notification hmem hsender hpath => ?_,hsound.carried,
        hsound.oEvent,hsound.nRes⟩
      rcases mem_append.mp hmem with hold | hnew
      · exact hsound.notifications notification hold hsender hpath
      · obtain rfl := mem_singleton.mp hnew
        have hanswer := hanswers call hcall hsender hpath (Bool.and_eq_true_iff.mp hmatch).1 property (hpath ▸ hfound)
        exact hanswer
    · exact h

theorem sound_of_less (hcall : s'.call = s.call)
    (hreturned : s'.returned = s.returned) (htrees : s'.trees = s.trees) (hcommands : s'.commands ⊆ s.commands)
    (hnotifications : s'.notifications ⊆ s.notifications) (happlied : s'.applied = s.applied ++ more) : s'.Sound bus :=
  ⟨hreturned ▸ h.returned,fun call hsame =>
    (h.call call (hcall ▸ hsame)).of_less htrees hcommands hnotifications happlied⟩

theorem sound_applied (held : List AppliedValue) :
    ({s with applied := s.applied ++ held} : RemoteAccess lib).Sound bus :=
  sound_of_less h rfl rfl rfl (List.Subset.refl _) (List.Subset.refl _) rfl

theorem answers_get (hmem : (participant,command) ∈ s.commands) {strPropPath : String}
    (hrequest : command.request = .getProperty strPropPath) (hcall : s.call = some call)
    (hparticipant : participant = call.strElementName) (hpath : command.request.getPropertyPath = call.strPropPath)
    (hsender : bus.fullMatch command.sender bus.moduleName = true) {property : Property}
    (hfound : (s.trees participant).getSubproperty (pathNames call.strPropPath) = some property)
    (hcarried : command.id = call.id → call.request = .get →
      (jsonToProperty lib (.create "" (.string "")) (propertyToJSON lib property)).2 = property) :
    call.AnsweredBy s.applied
      (⟨call.strPropPath,propertyToJSON lib property,participant⟩ : PropertyNotification lib) := by
  have hsound := h.call call hcall
  obtain ⟨hid,hsame⟩ := hsound.commands _ hmem hparticipant hpath hsender
  rw [hrequest,RemoteCall.command] at hsame
  rw [RemoteCall.AnsweredBy]
  cases hkind : call.request with
  | set values =>
    rw [hkind] at hsame
    cases hsame
  | get =>
    refine ⟨s.trees,hsound.trees,?_⟩
    rw [hcarried hid hkind,← hparticipant]
    exact hfound

theorem answers_set
    (hmem : (participant,command) ∈ s.commands) {strPropPath : String} {oValueNode : JSONNode lib.Number}
    (hrequest : command.request = .setProperty strPropPath oValueNode)
    (hcall : s.call = some call) (hparticipant : participant = call.strElementName)
    (hpath : command.request.getPropertyPath = call.strPropPath)
    (hsender : bus.fullMatch command.sender bus.moduleName = true) {notified : Nat → Result} {root after : Property}
    (hupdate : updateSetProperty notified strPropPath (jsonToValues lib (.strings "" []) oValueNode).2 root =
      some (.errNoError,after)) {property : Property}
    (hfound : after.getSubproperty (pathNames call.strPropPath) = some property) :
    ∃ values, call.request = .set values ∧ (⟨command.id,participant,strPropPath,property.values⟩ : AppliedValue) =
        ⟨call.id,call.strElementName,call.strPropPath,values⟩ := by
  have hsound := h.call call hcall
  obtain ⟨hid,hsame⟩ := hsound.commands _ hmem hparticipant hpath hsender
  rw [hrequest,RemoteCall.command] at hsame
  cases hkind : call.request with
  | get =>
    rw [hkind] at hsame
    cases hsame
  | set values =>
    rw [hkind] at hsame
    obtain ⟨rfl,rfl⟩ := PropertyRequest.setProperty.inj hsame
    rw [hsound.carried values hkind] at hupdate
    refine ⟨values,rfl,?_⟩
    rw [hid,hparticipant,values_of_updateSetProperty hupdate hfound]

theorem sound_deliverCommand {index : Nat} {notified : Nat → Result}
    (hunmixed : s.Unmixed bus (.deliverCommand index notified))
    (hstep : s.deliverCommand bus index notified = some s') : s'.Sound bus := by
  obtain ⟨⟨participant,command⟩,hentry,hrest⟩ := Option.bind_eq_some_iff.mp hstep
  have hmem := mem_of_getElem? hentry
  have herased : ({s with commands := s.commands.eraseIdx index} : RemoteAccess lib).Sound bus :=
    sound_of_less h rfl rfl rfl (eraseIdx_subset ..) (List.Subset.refl _) (append_nil _).symm
  dsimp only at hrest
  cases hrequest : command.request with
  | getProperty strPropPath =>
    rw [hrequest] at hrest
    cases hrest
    refine sound_answer herased fun call hcall hparticipant hpath hsender property hfound => ?_
    exact answers_get h hmem hrequest hcall hparticipant hpath hsender hfound fun hid hget =>
      hunmixed call participant command property hcall hentry hid hget hfound
  | setProperty strPropPath oValueNode =>
    rw [hrequest] at hrest
    obtain ⟨⟨nResult,root⟩,hupdate,rfl⟩ := Option.map_eq_some_iff.mp hrest
    have happlied := sound_applied (sound_setTree herased participant root)
      ((root.getSubproperty (pathNames strPropPath)).toList.map fun poProp =>
        ⟨command.id,participant,strPropPath,poProp.values⟩)
    split
    · rename_i hok
      obtain rfl := (isOk_iff nResult).mp hok
      refine sound_answer happlied fun call hcall hparticipant hpath hsender property hfound => ?_
      obtain ⟨before,hbefore,rfl⟩ := Option.map_eq_some_iff.mp hcall
      have hroot : root.getSubproperty (pathNames before.strPropPath) = some property := by
        rwa [trees_setTree_self] at hfound
      obtain ⟨values,hset,hheld⟩ := answers_set h hmem hrequest hbefore hparticipant hpath hsender hupdate hroot
      simp only [hset]
      apply mem_append_right
      rw [← hheld]
      have hsame : strPropPath = before.strPropPath := by
        rw [← hpath,hrequest]
        rfl
      rw [hsame,hroot]
      exact mem_singleton_self _
    · exact happlied

end

theorem CallSound.update {notification : PropertyNotification lib}
    (h : s.CallSound bus call) (hanswer : notification.sender = call.strElementName →
      notification.strPropPath = call.strPropPath → call.AnsweredBy s.applied notification) :
    s.CallSound bus (call.update notification) := by
  rw [RemoteCall.update]
  split
  · exact h
  · rename_i hmatch
    obtain ⟨hsender,hpath⟩ := not_or.mp hmatch
    have hanswered := hanswer (not_not.mp hsender) (not_not.mp hpath)
    obtain ⟨id,strElementName,strPropPath,request,oEvent,poProp,nRes,seen⟩ := call
    cases request with
    | set values =>
      have hset := hanswered
      exact ⟨h.trees,h.commands,h.notifications,h.carried,fun _ => hset,h.nRes⟩
    | get =>
      dsimp only
      split
      · exact h
      · obtain ⟨trees,hseen,hproperty⟩ := hanswered
        have hget : RemoteCall.Answered ⟨id,strElementName,strPropPath,.get,oEvent + 1,
            some (jsonToProperty lib (.create "" (.string "")) notification.oProperty).2,nRes,seen⟩ s.applied :=
          ⟨trees,hseen,_,rfl,hproperty⟩
        exact ⟨h.trees,h.commands,h.notifications,h.carried,fun _ => hget,fun _ => hget⟩

section
variable (h : s.Sound bus)
include h

theorem sound_deliverNotification {index : Nat} (hstep : s.deliverNotification index = some s') : s'.Sound bus := by
  obtain ⟨notification,hentry,rfl⟩ := Option.map_eq_some_iff.mp hstep
  refine ⟨h.returned,fun call hcall => ?_⟩
  obtain ⟨before,hbefore,rfl⟩ := Option.map_eq_some_iff.mp hcall
  have hsound := h.call before hbefore
  apply CallSound.update
  · exact hsound.of_less rfl (List.Subset.refl _) (eraseIdx_subset ..) (append_nil _).symm
  · exact hsound.notifications notification (mem_of_getElem? hentry)

theorem sound_waitFor (hstep : s.waitFor = some s') : s'.Sound bus := by
  obtain ⟨call,hcall,hrest⟩ := Option.bind_eq_some_iff.mp hstep
  have hsound := h.call call hcall
  split at hrest
  · cases hrest
  · split at hrest
    · rename_i hevent
      cases hrest
      have hanswered := hsound.oEvent hevent
      refine ⟨h.returned,fun after hafter => ?_⟩
      cases hafter
      exact ⟨hsound.trees,hsound.commands,hsound.notifications,hsound.carried,fun _ => hanswered,
        fun _ => hanswered⟩
    · cases hrest
      refine ⟨h.returned,fun after hafter => ?_⟩
      cases hafter
      exact ⟨hsound.trees,hsound.commands,hsound.notifications,hsound.carried,hsound.oEvent,
        fun hres => by cases hres⟩

theorem sound_finish (hstep : s.finish = some s') : s'.Sound bus := by
  obtain ⟨call,hcall,hrest⟩ := Option.bind_eq_some_iff.mp hstep
  obtain ⟨nResult,hres,rfl⟩ := Option.map_eq_some_iff.mp hrest
  refine ⟨fun returned hmem hok => ?_,fun call hnone => by cases hnone⟩
  rcases mem_append.mp hmem with hold | hnew
  · exact h.returned returned hold hok
  · obtain rfl := mem_singleton.mp hnew
    exact (h.call call hcall).nRes (hres.trans (congrArg some hok))

theorem sound_setRemotePropertyValues {strElementName strPropPath : Option String}
    {firstValue : ArrayArgument} {tmTimeout : Int} {transmitted : Result} {nResult : Option Result}
    (hnone : s.call = none)
    (hunmixed : s.Unmixed bus (.setRemotePropertyValues strElementName strPropPath firstValue tmTimeout transmitted))
    (hcall : s.setRemotePropertyValues bus strElementName strPropPath firstValue tmTimeout transmitted =
      some (s',nResult)) : s'.Sound bus := by
  rw [setRemotePropertyValues.eq_def] at hcall
  split at hcall
  · rename_i element path values
    by_cases htimeout : 0 < tmTimeout
    · rw [if_pos htimeout] at hcall
      cases hcall
      obtain ⟨hsettled,hcarried⟩ := hunmixed htimeout element path values rfl rfl rfl
      refine sound_beginCall h hsettled (.set values) _ (fun call hpath hrequest => ?_)
        (fun held hheld => ?_) transmitted
      · rw [RemoteCall.command,hrequest,hpath]
      · obtain rfl := RemoteRequest.set.inj hheld
        exact hcarried
    · rw [if_neg htimeout] at hcall
      split at hcall
      · cases hcall
        exact h
      · cases hcall
        refine ⟨h.returned,fun call hsome => ?_⟩
        rw [show (s.transmitCommand bus bus.moduleName element _).call = s.call from rfl,hnone] at hsome
        cases hsome
  all_goals
    split at hcall
    · cases hcall
    · cases hcall
      exact h

private theorem sound_getRemoteProperty {strElementName strPropPath : Option String}
    {pProperty : Bool} {tmTimeout : Int} {transmitted : Result}
    (hunmixed : s.Unmixed bus (.getRemoteProperty strElementName strPropPath pProperty tmTimeout transmitted)) :
    (s.getRemoteProperty bus strElementName strPropPath pProperty tmTimeout transmitted).1.Sound bus := by
  rw [getRemoteProperty.eq_def]
  split
  · rename_i element path
    split
    · exact h
    · split
      · exact h
      · refine sound_beginCall h (hunmixed element path rfl rfl) .get _ (fun call hpath hrequest => ?_)
          (fun _ hset => by cases hset) transmitted
        rw [RemoteCall.command,hrequest,hpath]
  · exact h

theorem sound_step {action : Action lib} (hunmixed : s.Unmixed bus action)
    (hstep : s.step bus action = some s') : s'.Sound bus := by
  have hblocked {next : Option (RemoteAccess lib)} (hnext : (if s.call.isSome = true then none else next) = some s') :
      s.call = none ∧ next = some s' := by
    split at hnext
    · cases hnext
    · rename_i hnone
      exact ⟨Option.not_isSome_iff_eq_none.mp hnone,hnext⟩
  cases action with
  | setRemotePropertyValue strElementName strPropPath value tmTimeout transmitted =>
    obtain ⟨hnone,hcall⟩ := hblocked hstep
    obtain ⟨⟨after,nResult⟩,hafter,rfl⟩ := Option.map_eq_some_iff.mp hcall
    cases value with
    | none =>
      cases hafter
      exact h
    | some value =>
      refine sound_setRemotePropertyValues h hnone
        (fun htimeout element path values helement hpath hvalues => ?_) hafter
      obtain rfl := ArrayArgument.values.inj hvalues
      exact hunmixed htimeout element path value helement hpath rfl
  | setRemotePropertyValues strElementName strPropPath firstValue tmTimeout transmitted =>
    obtain ⟨hnone,hcall⟩ := hblocked hstep
    obtain ⟨⟨after,nResult⟩,hafter,rfl⟩ := Option.map_eq_some_iff.mp hcall
    exact sound_setRemotePropertyValues h hnone hunmixed hafter
  | getRemoteProperty strElementName strPropPath pProperty tmTimeout transmitted =>
    obtain ⟨-,hcall⟩ := hblocked hstep
    cases hcall
    exact sound_getRemoteProperty h hunmixed
  | foreignCommand sender receiver request =>
    cases hstep
    exact sound_foreignCommand h receiver hunmixed
  | changeTree participant root =>
    cases hstep
    exact sound_setTree h participant root
  | deliverCommand index notified => exact sound_deliverCommand h hunmixed hstep
  | deliverNotification index => exact sound_deliverNotification h hstep
  | waitFor => exact sound_waitFor h hstep
  | finish => exact sound_finish h hstep

end

/-- A check for `Settled`. -/
def settledCheck (bus : MessageBus) (s : RemoteAccess lib) (strElementName strPropPath : String) : Bool :=
  (s.commands.all fun entry => entry.1 != strElementName || entry.2.request.getPropertyPath != strPropPath ||
    !bus.fullMatch entry.2.sender bus.moduleName) &&
  s.notifications.all fun notification => notification.sender != strElementName ||
    notification.strPropPath != strPropPath

private theorem settled_of_check {strElementName strPropPath : String}
    (h : s.settledCheck bus strElementName strPropPath = true) : s.Settled bus strElementName strPropPath := by
  simp only [settledCheck,Bool.and_eq_true,all_eq_true,Bool.or_eq_true,bne_iff_ne,Bool.not_eq_true'] at h
  refine ⟨fun entry hentry hparticipant hpath => ?_,fun notification hmem hsender => ?_⟩
  · exact (h.1 entry hentry).resolve_left fun hother => hother.elim (· hparticipant) (· hpath)
  · exact (h.2 notification hmem).resolve_left (· hsender)

/-- A check for the condition on calls that set and get a truth value. -/
def unmixedCheck (bus : MessageBus) (s : RemoteAccess lib) : Action lib → Bool
  | .setRemotePropertyValue (some strElementName) (some strPropPath) (some (.boolean _)) _ _ =>
    s.settledCheck bus strElementName strPropPath
  | .getRemoteProperty (some strElementName) (some strPropPath) _ _ _ => s.settledCheck bus strElementName strPropPath
  | .deliverCommand index _ => s.commands[index]?.all fun entry => s.call.all fun call =>
    match call.request, (s.trees entry.1).getSubproperty (pathNames call.strPropPath) with
    | .set _, _ => true
    | .get, some (.mk name (.booleans _ []) []) => name != ""
    | .get, _ => false
  | .deliverNotification _ | .waitFor | .finish => true
  | _ => false

theorem unmixed_of_check {s : RemoteAccess decimalNodes} {action : Action decimalNodes}
    (h : s.unmixedCheck bus action = true) : s.Unmixed bus action := by
  have hflag (flag : Bool) (target : Values) : (jsonToValues decimalNodes target
      (valuesToJSON decimalNodes (.booleans flag []))).2 = .booleans flag [] := by
    rfl
  cases action with
  | setRemotePropertyValue strElementName strPropPath value tmTimeout transmitted =>
    rintro - element path value rfl rfl rfl
    cases value with
    | boolean flag => exact ⟨settled_of_check h,hflag flag⟩
    | _ => cases h
  | setRemotePropertyValues strElementName strPropPath firstValue tmTimeout transmitted => cases h
  | getRemoteProperty strElementName strPropPath pProperty tmTimeout transmitted =>
    rintro element path rfl rfl
    exact settled_of_check h
  | deliverCommand index notified =>
    rintro call participant command property hcall hentry - hget hfound
    rw [unmixedCheck,hentry,Option.all_some,hcall,Option.all_some,hget,hfound] at h
    split at h
    · rename_i hset
      cases hset
    · rename_i name flag hkind hsame
      cases hsame
      have hnames : ∀ sub ∈ (Property.mk name (.booleans flag []) []).nodes, sub.name ≠ "" := by
        simpa [Property.nodes,Property.nodesBelow,Property.name] using h
      rw [jsonToProperty_propertyToJSON decimalNodes_lawful _ hnames]
      rfl
    · cases h
  | foreignCommand sender receiver request => cases h
  | _ => trivial

/-- In every run in which synchronous calls are made only when nothing could be taken for their answers, a call that
returns successfully was answered by its own request. -/
theorem remote_access_answered (bus : MessageBus) (trees : String → Property)
    (hreach : Reaches (step bus) (Unmixed bus) (start lib trees) s) :
    ∀ returned ∈ s.returned, returned.nResult = .errNoError → returned.Answered := by
  have hstart : (start lib trees).Sound bus := by
    constructor
    · intro returned hmem
      cases hmem
    · intro call hcall
      cases hcall
  have hsound : s.Sound bus :=
    hreach.invariant hstart fun _ _ _ hbefore hunmixed hstep => sound_step hbefore hunmixed hstep
  exact hsound.returned

def twoParticipants : MessageBus := ⟨"caller",["caller","remote"],fun receiver name => receiver == name⟩

def emptyTrees : String → Property := fun _ => .create "" (.string "")

theorem remote_access_answered_set_and_get : ∃ s : RemoteAccess decimalNodes,
    Reaches (step twoParticipants) (Unmixed twoParticipants) (start decimalNodes emptyTrees) s ∧
      (s.returned.map fun returned => (returned.call.strElementName,returned.nResult)) =
        [("remote",.errNoError),("remote",.errNoError)] ∧
      ∀ returned ∈ s.returned, returned.nResult = .errNoError → returned.Answered := by
  let answered : List (Action decimalNodes) :=
    [.deliverCommand 0 fun _ => .errNoError,.deliverNotification 0,.waitFor,.finish]
  let run := runActions (fun s action => if unmixedCheck twoParticipants s action then step twoParticipants s action
    else none) (start decimalNodes emptyTrees)
    (.setRemotePropertyValue (some "remote") (some "speed.limit") (some (.boolean true)) 100 .errNoError::answered ++
      .getRemoteProperty (some "remote") (some "speed.limit") true 100 .errNoError::answered)
  have hrun : run.any (fun s => (s.returned.map fun returned => (returned.call.strElementName,returned.nResult)) ==
      [("remote",.errNoError),("remote",.errNoError)]) = true := by decide +kernel
  obtain ⟨s,hrun,hreturned⟩ := (Option.any_eq_true _ _).mp hrun
  have hreach := reaches_of_checked (fun _ _ => unmixed_of_check) hrun
  exact ⟨s,hreach,beq_iff_eq.mp hreturned,remote_access_answered twoParticipants emptyTrees hreach⟩

/-- A call with a timeout returns with the acknowledgement of an earlier one without, before its own value is set. -/
theorem earlier_acknowledgement_accepted : ∃ s : RemoteAccess decimalNodes,
    Reaches (step twoParticipants) anyAction (start decimalNodes emptyTrees) s ∧
      ¬∀ returned ∈ s.returned, returned.nResult = .errNoError → returned.Answered := by
  obtain ⟨s,hreach,hreturned⟩ : ∃ s, Reaches (step twoParticipants) anyAction (start decimalNodes emptyTrees) s ∧
      ∃ returned ∈ s.returned, returned.nResult = .errNoError ∧ returned.call.id = 1 ∧
      (returned.call.request matches .set _) = true ∧ ∀ value ∈ returned.applied, value.id ≠ 1 :=
    exists_of_runActions [.setRemotePropertyValue (some "remote") (some "speed.limit") (some (.boolean true)) 0
      .errNoError,.deliverCommand 0 fun _ => .errNoError,
      .setRemotePropertyValue (some "remote") (some "speed.limit") (some (.boolean false)) 100 .errNoError,
      .deliverNotification 0,.waitFor,.finish] (by decide +kernel)
  refine ⟨s,hreach,fun h => ?_⟩
  obtain ⟨returned,hmem,hok,hid,hset,hnone⟩ := hreturned
  have hanswered := h returned hmem hok
  rw [ReturnedCall.Answered,RemoteCall.Answered] at hanswered
  split at hset
  · rename_i values hrequest
    rw [hrequest] at hanswered
    exact hnone _ hanswered hid
  · cases hset

end RemoteAccess

end FepParticipant.PropertyTree
