import Mathlib.Data.List.Count
import FepParticipant.PropertyTree.ProxyDeletion

/-! The maps of the property tree point to properties of the tree, listeners have one owner, and participants receive
what they asked for, as long as no step takes away what the maps know. -/
namespace FepParticipant.PropertyTree
open Library List Nat ListenedTree Property
open PropertyNodes (joinPath)

namespace Subscriptions

def mirrors (s : Subscriptions) : List PropertyPointer :=
  s.mapMirroredProperties.map (·.property) ++ s.mapRemoteChangeListeners.map (·.property)

/-- The properties in the three maps. -/
def references (s : Subscriptions) : List PropertyPointer :=
  s.tree.mapProxyChangeListeners.map (·.subscription.property) ++ s.mirrors

def owners (s : Subscriptions) (listener : NotificationListener) : Nat :=
  s.mapRemoteChangeListeners.countP (fun entry => entry.listener = listener) +
    s.inProgress.countP fun call => call.listener = listener

/-- The maps point to properties of the tree, each listener has one owner, and a participant receives the changes at
a path if and only if it has registered there more often than unregistered since the property is there. -/
structure Bookkept (s : Subscriptions) : Prop where
  references : ∀ property ∈ s.references, s.tree.Alive property
  owned : ∀ listener ∈ s.registered, s.owners listener = 1
  receives (strRemoteModule strPath : String) (property : PropertyPointer) :
    s.tree.getLocalProperty strPath = some property →
      (s.tree.Receives ⟨property,strRemoteModule,strPath⟩ ↔
        s.tree.unregCommands.count ⟨property,strRemoteModule,strPath⟩ <
          s.tree.regCommands.count ⟨property,strRemoteModule,strPath⟩)

/-- A deletion that a notification asks for. With the mirrored property goes its own entry in the maps. -/
def CarefulDeletion (s : Subscriptions) (mirrored affected : PropertyPointer) (strSender strPath : String) : Prop :=
  if affected = mirrored then
    (∀ entry ∈ s.mapMirroredProperties, affected.names <+: entry.property.names →
      entry.info = ⟨strSender,strPath,pathText affected.names.dropLast⟩) ∧
    ∀ entry ∈ s.mapRemoteChangeListeners, affected.names <+: entry.property.names → entry.property = mirrored
  else ∀ property ∈ s.references, ¬affected.names <+: property.names

/-- The step deletes of the known properties only those it takes out of the maps, no failed transmission leaves a
listener behind, the local copy of a mirrored property is part of the tree and mirrors nothing else, and no
participant unregisters once too often before it registers. -/
def Careful (s : Subscriptions) : SubscriptionAction → Prop
  | .clearProperty strPropertyPath => ∀ pProperty ∈ s.tree.getLocalProperty strPropertyPath,
    ∀ property ∈ s.references, pProperty.names <+: property.names → property.names = pProperty.names
  | .deleteProperty strPropertyPath =>
    (∀ property ∈ s.mirrors, ¬ListenedTree.Deletes (pathNames strPropertyPath) property.names) ∧
      (pathNames strPropertyPath = [] →
        ∀ entry ∈ s.tree.mapProxyChangeListeners, entry.subscription.property.names ≠ [])
  | .regPropListener strSender strPath => ∀ pProperty ∈ s.tree.getLocalProperty strPath,
    s.tree.unregCommands.count ⟨pProperty,strSender,strPath⟩ ≤
      s.tree.regCommands.count ⟨pProperty,strSender,strPath⟩
  | .mirrorRemoteProperty info tmTimeout transmitted => 0 ≤ tmTimeout → info.strElementName ≠ "" →
    '*' ∉ info.strElementName.toList → '?' ∉ info.strElementName.toList → transmitted = true
  | .finish call poProperty => ∀ info ∈ call.mirrors, ∀ property ∈ poProperty, "" ∉ localNames info property ∧
    ∀ entry ∈ s.mapRemoteChangeListeners, entry.property.names ≠ localNames info property
  | .propertyChanged (.mirrored _ poInfo poProperty) strSender .delete strPath _ =>
    ∀ found ∈ s.findAffected poInfo poProperty strSender .delete strPath, ∀ affected ∈ found,
      s.CarefulDeletion poProperty affected.1 strSender strPath
  | _ => True

/-- What holds between the steps. -/
structure Consistent (s : Subscriptions) : Prop where
  proxies : s.tree.ProxiesCount fun _ => False
  mirrors : ∀ property ∈ s.mirrors, s.tree.Alive property
  registered : s.registered.Nodup
  owned : ∀ listener ∈ s.registered, s.owners listener = 1
  keys : (s.mapRemoteChangeListeners.map (·.property)).Nodup
  number : ∀ listener ∈ s.registered, listener.number < s.objects
  numberRemote : ∀ entry ∈ s.mapRemoteChangeListeners, entry.listener.number < s.objects
  numberWaiting : ∀ call ∈ s.inProgress, call.listener.number < s.objects
  mirrored : ∀ entry ∈ s.mapRemoteChangeListeners,
    ∃ number poInfo, entry.listener = .mirrored number poInfo entry.property
  waiting : ∀ call ∈ s.inProgress, ∃ number, call.listener = .acknowledgement number

variable {s s' : Subscriptions} {tree : ListenedTree} {root : Property} {property : PropertyPointer}
  {info : MirroredRemoteProperty} {listener : NotificationListener}

theorem consistent_start : start.Consistent :=
  ⟨proxiesCount_start,nofun,nodup_nil,nofun,nodup_nil,nofun,nofun,nofun,nofun,nofun⟩

theorem tree_removeMirroredPropertyLocalSubscription (poProperty : PropertyPointer) (poInfo : MirroredRemoteProperty) :
    (s.removeMirroredPropertyLocalSubscription poProperty poInfo).tree = s.tree := by
  rw [removeMirroredPropertyLocalSubscription]
  split <;> rfl

theorem removeMirroredPropertyLocalSubscription_withTree (poProperty : PropertyPointer)
    (poInfo : MirroredRemoteProperty) :
    removeMirroredPropertyLocalSubscription {s with tree := tree} poProperty poInfo =
      {s.removeMirroredPropertyLocalSubscription poProperty poInfo with tree := tree} := by
  rw [removeMirroredPropertyLocalSubscription,removeMirroredPropertyLocalSubscription]
  cases s.mapRemoteChangeListeners.find? fun entry => entry.property = poProperty <;> rfl

namespace Consistent

section
variable (h : s.Consistent)
include h

theorem references : ∀ property ∈ s.references, s.tree.Alive property := by
  intro property hproperty
  rcases mem_append.mp hproperty with hproxy | hmirror
  · obtain ⟨entry,hentry,rfl⟩ := mem_map.mp hproxy
    exact h.proxies.alive entry hentry
  · exact h.mirrors property hmirror

theorem bookkept : s.Bookkept :=
  ⟨h.references,h.owned,fun _ _ _ hfound => h.proxies.receives_iff (alive_of_pointerAt hfound).1⟩

theorem withTree (hproxies : tree.ProxiesCount fun _ => False)
    (hmirrors : ∀ property ∈ s.mirrors, tree.Alive property) : Consistent {s with tree := tree} :=
  {h with proxies := hproxies, mirrors := hmirrors}

theorem withRoot (hnamed : root.WellNamed)
    (hstay : ∀ property ∈ s.references, (root.content property.names).isSome = true) :
    Consistent {s with tree := s.tree.withRoot root} := by
  refine h.withTree (h.proxies.withRoot hnamed (fun entry hentry => ?_) fun _ _ h => h) fun property hproperty => ?_
  · exact hstay _ (mem_append_left _ (mem_map_of_mem hentry))
  · have halive := h.mirrors property hproperty
    rw [ListenedTree.Alive,pointerAt_withRoot_of_isSome (alive_iff.mp halive).1
      (hstay property (mem_append_right _ hproperty))]
    exact halive

theorem grows (hnamed : root.WellNamed) (hgrows : s.tree.root.Grows root) :
    Consistent {s with tree := s.tree.withRoot root} :=
  h.withRoot hnamed fun property hproperty => hgrows _ (alive_iff.mp (h.references property hproperty)).1

theorem deleteSubproperty {names : List String} (hnames : names ≠ [])
    (hcareful : ∀ property ∈ s.references, ¬names <+: property.names) :
    Consistent {s with tree := s.tree.deleteSubproperty names} := by
  refine h.withRoot (h.proxies.named.deleteSubproperty _ _) fun property hproperty => ?_
  exact (isSome_content_deleteSubproperty h.proxies.named.distinct hnames).mpr
    ⟨hcareful property hproperty,(alive_iff.mp (h.references property hproperty)).1⟩

theorem deleteProperty {names : List String}
    (hmirrors : ∀ property ∈ s.mirrors, ¬ListenedTree.Deletes names property.names)
    (hroot : names = [] → ∀ entry ∈ s.tree.mapProxyChangeListeners, entry.subscription.property.names ≠ []) :
    Consistent {s with tree := s.tree.deleteProperty names} := by
  obtain ⟨hproxies,hdeleted⟩ := deleteProperty_deleted h.proxies hroot
  refine h.withTree hproxies fun property hproperty => ?_
  rw [ListenedTree.Alive,hdeleted.kept _ (hmirrors property hproperty)]
  exact h.mirrors property hproperty

theorem clearProperty {strPropertyPath : String}
    (hcareful : ∀ pProperty ∈ s.tree.getLocalProperty strPropertyPath, ∀ property ∈ s.references,
      pProperty.names <+: property.names → property.names = pProperty.names) :
    Consistent {s with tree := s.tree.clearProperty strPropertyPath} := by
  rw [ListenedTree.clearProperty]
  cases hfound : s.tree.getLocalProperty strPropertyPath with
  | none => exact h
  | some pProperty =>
    have hcareful := hcareful pProperty hfound
    refine h.withRoot (h.proxies.named.clear _) fun property hproperty => ?_
    have hthere := (alive_iff.mp (h.references property hproperty)).1
    exact isSome_content_clear.mpr ⟨hthere,hcareful property hproperty⟩

theorem removeMirroredPropertyLocalSubscription (poProperty : PropertyPointer)
    (poInfo : MirroredRemoteProperty) : (s.removeMirroredPropertyLocalSubscription poProperty poInfo).Consistent := by
  rw [Subscriptions.removeMirroredPropertyLocalSubscription]
  cases hfound : s.mapRemoteChangeListeners.find? fun entry => entry.property = poProperty with
  | none => exact h
  | some itListener =>
    have hmem := mem_of_find?_eq_some hfound
    have hproperty : itListener.property = poProperty := by simpa using find?_some hfound
    refine { h with
      mirrors := fun property hproperty => h.mirrors property ?_
      registered := h.registered.erase _
      owned := fun listener hlistener => ?_
      keys := h.keys.sublist (filter_sublist.map _)
      number := fun listener hlistener => h.number listener (mem_of_mem_erase hlistener)
      numberRemote := fun entry hentry => h.numberRemote entry (mem_of_mem_filter hentry)
      mirrored := fun entry hentry => h.mirrored entry (mem_of_mem_filter hentry) }
    · exact (List.Sublist.append (filter_sublist.map _) (filter_sublist.map _)).subset hproperty
    · obtain ⟨hne,hlistener⟩ := h.registered.mem_erase_iff.mp hlistener
      rw [← h.owned listener hlistener,owners,owners]
      rw [countP_filter]
      refine congrArg (· + _) (countP_congr fun entry hentry => ?_)
      simp only [Bool.and_eq_true,decide_eq_true_iff]
      refine and_iff_left_of_imp fun hof hsame => hne ?_
      rw [← hof,inj_on_of_nodup_map h.keys hentry hmem (hsame.trans hproperty.symm)]

section
variable (hnumber : s.objects ≤ listener.number)
include hnumber

theorem owners_eq_zero : s.owners listener = 0 := by
  rw [owners,countP_eq_zero.mpr,countP_eq_zero.mpr]
  · intro call hcall heq
    exact (h.numberWaiting call hcall).not_ge (of_decide_eq_true heq ▸ hnumber)
  · intro entry hentry heq
    exact (h.numberRemote entry hentry).not_ge (of_decide_eq_true heq ▸ hnumber)

theorem not_registered : listener ∉ s.registered := fun hmem => (h.number listener hmem).not_ge hnumber

theorem nodup_registered : (s.registered ++ [listener]).Nodup := by
  rw [← concat_eq_append]
  exact List.Nodup.concat (h.not_registered hnumber) h.registered

theorem owned_append (howners : ∀ other, s'.owners other = s.owners other + if listener = other then 1 else 0) :
    ∀ other ∈ s.registered ++ [listener], s'.owners other = 1 := by
  rw [forall_mem_append,forall_mem_singleton]
  refine ⟨fun other hother => ?_,?_⟩
  · have hne : listener ≠ other := fun heq => h.not_registered hnumber (heq ▸ hother)
    rw [howners,if_neg hne]
    exact h.owned other hother
  · rw [howners,if_pos rfl,h.owners_eq_zero hnumber]

end

theorem wait (mirrors : Option MirroredRemoteProperty) : Consistent { s with
      registered := s.registered ++ [.acknowledgement s.objects]
      inProgress := s.inProgress ++ [⟨.acknowledgement s.objects,mirrors⟩]
      objects := s.objects + 1 } := by
  have hnumber : s.objects ≤ (NotificationListener.acknowledgement s.objects).number := le_refl s.objects
  refine { h with
    registered := h.nodup_registered hnumber
    owned := h.owned_append hnumber fun other => ?_
    number := ?_
    numberRemote := fun entry hentry => lt_succ_of_lt (h.numberRemote entry hentry)
    numberWaiting := ?_
    waiting := ?_ }
  · rw [owners,owners,add_assoc,countP_append,countP_singleton]
    simp only [decide_eq_true_iff]
  · rw [forall_mem_append,forall_mem_singleton]
    exact ⟨fun listener hlistener => lt_succ_of_lt (h.number listener hlistener),lt_succ_self _⟩
  · rw [forall_mem_append,forall_mem_singleton]
    exact ⟨fun call hcall => lt_succ_of_lt (h.numberWaiting call hcall),lt_succ_self _⟩
  · rw [forall_mem_append,forall_mem_singleton]
    exact ⟨h.waiting,s.objects,rfl⟩

theorem mirrorRemoteProperty {tmTimeout : Int} {transmitted : Bool}
    (hcareful : s.Careful (.mirrorRemoteProperty info tmTimeout transmitted)) :
    (s.mirrorRemoteProperty info tmTimeout transmitted).Consistent := by
  rw [Subscriptions.mirrorRemoteProperty]
  split
  · exact h
  · rename_i hvalid
    simp only [not_or,not_lt] at hvalid
    obtain rfl : transmitted = true := hcareful hvalid.1 hvalid.2.1 hvalid.2.2.1 hvalid.2.2.2
    cases s.findMirrored info with
    | none => exact h.wait _
    | some itMirrProp => exact (h.removeMirroredPropertyLocalSubscription _ _).wait _

theorem unmirrorRemoteProperty {tmTimeout : Int} {transmitted : Bool} :
    (s.unmirrorRemoteProperty info tmTimeout transmitted).Consistent := by
  rw [Subscriptions.unmirrorRemoteProperty]
  split
  · exact h
  · cases s.findMirrored info with
    | none => exact h
    | some itEntry =>
      have hremoved := h.removeMirroredPropertyLocalSubscription itEntry.property itEntry.info
      dsimp only
      split
      · exact hremoved.wait _
      · exact { hremoved with
          number := fun listener hlistener => lt_succ_of_lt (hremoved.number listener hlistener)
          numberRemote := fun entry hentry => lt_succ_of_lt (hremoved.numberRemote entry hentry)
          numberWaiting := fun call hcall => lt_succ_of_lt (hremoved.numberWaiting call hcall) }

theorem proceed (call : WaitingCall) :
    Consistent {s with registered := s.registered.erase call.listener, inProgress := s.inProgress.erase call} := by
  refine { h with
    registered := h.registered.erase _
    owned := fun listener hlistener => ?_
    number := fun listener hlistener => h.number listener (mem_of_mem_erase hlistener)
    numberWaiting := fun call hcall => h.numberWaiting call (mem_of_mem_erase hcall)
    waiting := fun call hcall => h.waiting call (mem_of_mem_erase hcall) }
  obtain ⟨hne,hlistener⟩ := h.registered.mem_erase_iff.mp hlistener
  rw [← h.owned listener hlistener,owners,owners]
  rw [countP_erase,if_neg fun heq => hne (of_decide_eq_true heq.2).symm,Nat.sub_zero]

theorem insertMirrored {poProperty : Property} (hnames : "" ∉ localNames info poProperty)
    (hnew : ∀ entry ∈ s.mapRemoteChangeListeners, entry.property.names ≠ localNames info poProperty) :
    (s.insertMirrored info poProperty).Consistent := by
  have hmerged := h.grows (h.proxies.named.mergeProperty (receivedProperty info poProperty) info.strLocalPath)
    (grows_mergeProperty _ _ _)
  have hthere := isSome_content_mergeProperty (receivedProperty info poProperty) s.tree.root hnames
  rw [Subscriptions.insertMirrored]
  generalize hpointer : PropertyPointer.mk (localNames info poProperty)
    ((s.tree.mergeProperty info.strLocalPath (receivedProperty info poProperty)).made (localNames info poProperty)) =
      poResProperty
  have halive : (s.tree.mergeProperty info.strLocalPath (receivedProperty info poProperty)).Alive poResProperty := by
    rw [← hpointer]
    exact alive_iff.mpr ⟨hthere,rfl⟩
  have hkey : poResProperty ∉ s.mapRemoteChangeListeners.map (·.property) := fun hmem => by
    obtain ⟨entry,hentry,heq⟩ := mem_map.mp hmem
    exact hnew entry hentry (by rw [heq,← hpointer])
  rw [if_neg hkey]
  generalize hlistener : NotificationListener.mirrored (s.objects + 1)
    (((s.findMirrored info).map (·.key)).getD s.objects) poResProperty = poListener
  have hnumber : poListener.number = s.objects + 1 := by
    rw [← hlistener]
    rfl
  have hfresh : s.objects ≤ poListener.number := hnumber ▸ le_succ _
  refine ⟨hmerged.proxies,fun property hproperty => ?_,h.nodup_registered hfresh,
    h.owned_append hfresh fun other => ?_,?_,?_,?_,fun call hcall => Nat.lt_add_right 2
    (h.numberWaiting call hcall),?_,h.waiting⟩
  · have hcases : property ∈ s.mirrors ∨ property = poResProperty := by
      rw [Subscriptions.mirrors,map_append,mem_append,mem_append] at hproperty
      rw [Subscriptions.mirrors,mem_append]
      rcases hproperty with hmirrored | hremote | hnew
      · split at hmirrored
        · exact .inl (.inl hmirrored)
        · rw [map_append,mem_append] at hmirrored
          exact hmirrored.imp .inl mem_singleton.mp
      · exact .inl (.inr hremote)
      · exact .inr (mem_singleton.mp hnew)
    rcases hcases with hold | rfl
    · exact hmerged.mirrors property hold
    · exact halive
  · rw [owners,owners,add_right_comm,countP_append,countP_singleton]
    simp only [decide_eq_true_iff]
  · rw [map_append,map_singleton,← concat_eq_append]
    exact List.Nodup.concat hkey h.keys
  · rw [forall_mem_append,forall_mem_singleton,hnumber]
    exact ⟨fun listener hmem => Nat.lt_add_right 2 (h.number listener hmem),lt_succ_self _⟩
  · rw [forall_mem_append,forall_mem_singleton,hnumber]
    exact ⟨fun entry hentry => Nat.lt_add_right 2 (h.numberRemote entry hentry),lt_succ_self _⟩
  · rw [forall_mem_append,forall_mem_singleton]
    exact ⟨h.mirrored,_,_,hlistener.symm⟩

theorem finish {call : WaitingCall} {poProperty : Option Property}
    (hcareful : s.Careful (.finish call poProperty)) : (s.finish call poProperty).Consistent := by
  have hproceed := h.proceed call
  rw [Subscriptions.finish]
  cases hmirrors : call.mirrors with
  | none => exact hproceed
  | some info =>
    cases poProperty with
    | none => exact hproceed
    | some property =>
      obtain ⟨hnames,hnew⟩ := hcareful info hmirrors property rfl
      exact hproceed.insertMirrored hnames hnew

private theorem find?_mirrored {number poInfo : Nat} {poProperty : PropertyPointer}
    (hregistered : .mirrored number poInfo poProperty ∈ s.registered) :
    ∃ entry, (s.mapRemoteChangeListeners.find? fun entry => entry.property = poProperty) = some entry := by
  have howned := h.owned _ hregistered
  have hnone : s.inProgress.countP (fun call => call.listener = .mirrored number poInfo poProperty) = 0 := by
    rw [countP_eq_zero]
    intro call hcall heq
    obtain ⟨other,hother⟩ := h.waiting call hcall
    rw [hother] at heq
    exact absurd (of_decide_eq_true heq) nofun
  rw [owners,hnone,add_zero] at howned
  obtain ⟨entry,hentry,heq⟩ := countP_pos_iff.mp (howned.symm ▸ one_pos)
  obtain ⟨_,_,hown⟩ := h.mirrored entry hentry
  rw [← Option.isSome_iff_exists,find?_isSome]
  refine ⟨entry,hentry,?_⟩
  rw [of_decide_eq_true heq] at hown
  injection hown with _ _ hproperty
  simpa using hproperty.symm

theorem changeAffected {number poInfo : Nat} {poProperty : PropertyPointer}
    (hregistered : .mirrored number poInfo poProperty ∈ s.registered) {affected : PropertyPointer × String}
    {strSender strPath : String} {event : ChangeEvent} {values : Values}
    (hcareful : event = .delete → s.CarefulDeletion poProperty affected.1 strSender strPath)
    (hstep : s.changeAffected poProperty affected.1 affected.2 strSender event strPath values = some s') :
    s'.Consistent := by
  cases event with
  | change =>
    cases hstep
    exact h.grows (h.proxies.named.setValues _ _) (grows_setValues _ _ _)
  | new =>
    cases hstep
    refine h.grows ((h.proxies.named.setSubproperty _ _ _).setValues _ _) ?_
    exact (grows_updateAt (name_setSubproperty _ _) (grows_setSubproperty _ _) _ _).trans
      (grows_setValues _ _ _)
  | delete =>
    rw [Subscriptions.changeAffected] at hstep
    have hcareful := hcareful rfl
    rw [CarefulDeletion] at hcareful
    split at hstep
    · cases hstep
    · rename_i hnames
      split at hstep
      · rename_i hself
        cases hstep
        rw [if_pos hself] at hcareful
        -- the entry of the property is taken out after the deletion, which does not read it
        rw [removeMirroredPropertyLocalSubscription_withTree]
        have hremoved := h.removeMirroredPropertyLocalSubscription poProperty
          ⟨strSender,strPath,pathText affected.1.names.dropLast⟩
        rw [← tree_removeMirroredPropertyLocalSubscription (s := s) poProperty
          ⟨strSender,strPath,pathText affected.1.names.dropLast⟩]
        refine hremoved.deleteProperty (fun property hproperty hdeletes => ?_) fun hempty => absurd hempty hnames
        obtain ⟨entry,hfound⟩ := h.find?_mirrored hregistered
        rw [Subscriptions.removeMirroredPropertyLocalSubscription,hfound] at hproperty
        rcases mem_append.mp hproperty with hmirrored | hremote
        · obtain ⟨entry,hentry,rfl⟩ := mem_map.mp hmirrored
          obtain ⟨hentry,hother⟩ := mem_filter.mp hentry
          exact of_decide_eq_true hother (hcareful.1 entry hentry hdeletes.1)
        · obtain ⟨entry,hentry,rfl⟩ := mem_map.mp hremote
          obtain ⟨hentry,hother⟩ := mem_filter.mp hentry
          exact of_decide_eq_true hother (hcareful.2 entry hentry hdeletes.1)
      · rename_i hother
        cases hstep
        rw [if_neg hother] at hcareful
        exact h.deleteSubproperty hnames hcareful

private theorem update (hregistered : listener ∈ s.registered) {strSender strPath : String}
    {event : ChangeEvent} {values : Values}
    (hcareful : s.Careful (.propertyChanged listener strSender event strPath values))
    (hstep : s.update listener strSender event strPath values = some s') : s'.Consistent := by
  cases listener with
  | acknowledgement number =>
    cases hstep
    exact h
  | mirrored number poInfo poProperty =>
    obtain ⟨found,hfound,hstep⟩ := Option.bind_eq_some_iff.mp hstep
    cases found with
    | none =>
      cases hstep
      exact h
    | some found => exact h.changeAffected hregistered (fun hdelete => by
        subst hdelete
        exact hcareful found hfound found rfl) hstep

end

end Consistent

theorem consistent_step {action : SubscriptionAction} (h : s.Consistent) (hcareful : s.Careful action)
    (hstep : s.step action = some s') : s'.Consistent := by
  cases action with
  | setPropertyValue strPropPath value =>
    cases hstep
    refine h.grows ?_ ((grows_getOrMakeSubproperty _ _ _).trans (grows_setValues _ _ _))
    exact (h.proxies.named.getOrMakeSubproperty _ _).setValues _ _
  | mergeProperty strPath poProperty =>
    cases hstep
    exact h.grows (h.proxies.named.mergeProperty _ _) (grows_mergeProperty _ _ _)
  | clearProperty strPropertyPath =>
    cases hstep
    exact h.clearProperty hcareful
  | deleteProperty strPropertyPath =>
    cases hstep
    exact h.deleteProperty hcareful.1 hcareful.2
  | regPropListener strSender strPath =>
    cases hstep
    exact h.withTree (h.proxies.regPropListener hcareful) fun property hproperty =>
      alive_regPropListener.mpr (h.mirrors property hproperty)
  | unregPropListener strSender strPath =>
    cases hstep
    exact h.withTree h.proxies.unregPropListener fun property hproperty =>
      alive_unregPropListener.mpr (h.mirrors property hproperty)
  | mirrorRemoteProperty info tmTimeout transmitted =>
    cases hstep
    exact h.mirrorRemoteProperty hcareful
  | unmirrorRemoteProperty info tmTimeout transmitted =>
    cases hstep
    exact h.unmirrorRemoteProperty
  | finish call poProperty =>
    rw [step] at hstep
    split at hstep
    · cases hstep
      exact h.finish hcareful
    · cases hstep
  | propertyChanged listener strSender event strPath values =>
    rw [step] at hstep
    split at hstep
    · rename_i hregistered
      exact h.update hregistered hcareful hstep
    · cases hstep

end Subscriptions
end FepParticipant.PropertyTree
