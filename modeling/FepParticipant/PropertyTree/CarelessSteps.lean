import FepParticipant.PropertyTree.SubscriptionBookkeeping

/-! A step that is not careful leaves the maps of the property tree in disorder at once, so that they are in order
throughout a run exactly if each of its steps is careful. -/
namespace FepParticipant.PropertyTree
open Library List Nat Option ListenedTree
open PropertyNodes (joinPath)

namespace Subscriptions

variable {s s' : Subscriptions} {property : PropertyPointer} {info : MirroredRemoteProperty}
  {listener : NotificationListener} {action : SubscriptionAction}

theorem Bookkept.content (h : s.Bookkept) (hproperty : property ∈ s.references) :
    (s.tree.root.content property.names).isSome = true :=
  (alive_iff.mp (h.references property hproperty)).1

theorem careful_clearProperty {strPropertyPath : String}
    (h : Bookkept {s with tree := s.tree.clearProperty strPropertyPath}) :
    s.Careful (.clearProperty strPropertyPath) := by
  intro pProperty hfound property hproperty hbelow
  rw [ListenedTree.clearProperty,mem_def.mp hfound] at h
  exact (Property.isSome_content_clear.mp (h.content hproperty)).2 hbelow

section
variable (hconsistent : s.Consistent)
include hconsistent

private theorem no_root_proxy (h : Bookkept {s with tree := s.tree.deleteProperty []}) :
    ∀ entry ∈ s.tree.mapProxyChangeListeners, entry.subscription.property.names ≠ [] := by
  intro entry hentry hroot
  have hproxies := hconsistent.proxies
  have halive := hproxies.alive entry hentry
  have hself : entry.subscription.property = ⟨[],s.tree.made []⟩ := by
    rw [ListenedTree.Alive,hroot] at halive
    exact (pointerAt_eq_some.mp halive).2
  obtain ⟨hproxies',hdeleted⟩ := deleteRoot_deleted
    (hproxies.deletePropertyFromMap ⟨[],s.tree.made []⟩ fun _ h => h)
  have hfound : (s.tree.deleteProperty []).getLocalProperty entry.subscription.strPath =
      some entry.subscription.property := by
    rw [ListenedTree.getLocalProperty,hproxies.path entry hentry,hroot,hdeleted.kept [] fun h => h.2 rfl,← hroot]
    exact halive
  have hless := (hproxies.receives_iff halive).mp
    ⟨entry,hentry,(hproxies.listens _ _).mpr ⟨entry,hentry,rfl,rfl⟩,rfl,rfl⟩
  have hreceives := (h.receives entry.subscription.strRemoteModule entry.subscription.strPath _ hfound).mpr
    (by rw [hdeleted.commands.1,hdeleted.commands.2]; exact hless)
  obtain ⟨_,_,hlistens,-⟩ := hreceives
  obtain ⟨other,hother,hof,-⟩ := (hproxies'.listens _ _).mp hlistens
  exact of_decide_eq_true (mem_filter.mp (hdeleted.entries other hother)).2 (hof.trans hself)

theorem careful_deleteProperty {strPropertyPath : String}
    (h : Bookkept {s with tree := s.tree.deleteProperty (pathNames strPropertyPath)}) :
    s.Careful (.deleteProperty strPropertyPath) := by
  have hroot : pathNames strPropertyPath = [] → ∀ entry ∈ s.tree.mapProxyChangeListeners,
      entry.subscription.property.names ≠ [] := by
    intro hnil
    rw [hnil] at h
    exact no_root_proxy hconsistent h
  obtain ⟨-,hdeleted⟩ := deleteProperty_deleted hconsistent.proxies hroot
  refine ⟨fun property hproperty hdeletes => ?_,hroot⟩
  have halive := h.references property (mem_append_right _ hproperty)
  rw [ListenedTree.Alive,hdeleted.missing _ hdeletes] at halive
  cases halive

theorem careful_regPropListener {strSender strPath : String}
    (h : Bookkept {s with tree := s.tree.regPropListener strSender strPath}) :
    s.Careful (.regPropListener strSender strPath) := by
  intro pProperty hfound
  have hproxies := hconsistent.proxies
  by_cases hmem : ⟨pProperty,strSender,strPath⟩ ∈ s.tree.mapProxyChangeListeners.map (·.subscription)
  · obtain ⟨entry,hentry,heq⟩ := mem_map.mp hmem
    obtain ⟨hpos,hcount⟩ := hproxies.counted entry hentry
    rw [heq] at hcount
    omega
  · have hnone := (@findExistingProxyListener_eq_none
      {s.tree with regCommands := s.tree.regCommands ++ [⟨pProperty,strSender,strPath⟩]} _).mpr hmem
    have hreceives := h.receives strSender strPath pProperty
    rw [ListenedTree.regPropListener,mem_def.mp hfound] at hreceives
    dsimp only at hreceives
    rw [hnone] at hreceives
    have hless := (hreceives hfound).mp ⟨⟨⟨pProperty,strSender,strPath⟩,s.tree.proxies,1⟩,
      mem_append_right _ (mem_singleton_self _),by
        dsimp only
        rw [Function.update_self]
        exact mem_append_right _ (mem_singleton_self _),rfl,rfl⟩
    rw [count_append,count_singleton_self] at hless
    exact le_of_lt_succ hless

theorem careful_mirrorRemoteProperty {tmTimeout : Int} {transmitted : Bool}
    (h : (s.mirrorRemoteProperty info tmTimeout transmitted).Bookkept) :
    s.Careful (.mirrorRemoteProperty info tmTimeout transmitted) := by
  intro htimeout hname hstar hquestion
  cases transmitted with
  | true => rfl
  | false =>
    have hvalid : ¬(tmTimeout < 0 ∨ info.strElementName = "" ∨ '*' ∈ info.strElementName.toList ∨
        '?' ∈ info.strElementName.toList) := by
      simp only [not_or]
      exact ⟨htimeout.not_gt,hname,hstar,hquestion⟩
    -- the listener on the stack of the call is registered and nobody's
    have hleaks (s : Subscriptions) (hconsistent : s.Consistent) (h : Bookkept { s with
        registered := s.registered ++ [.acknowledgement s.objects], objects := s.objects + 1 }) : False := by
      have howned := h.owned (.acknowledgement s.objects) (mem_append_right _ (mem_singleton_self _))
      have hzero := hconsistent.owners_eq_zero (le_refl (NotificationListener.acknowledgement s.objects).number)
      exact absurd (howned.symm.trans hzero) one_ne_zero
    rw [Subscriptions.mirrorRemoteProperty,if_neg hvalid] at h
    cases hfound : s.findMirrored info with
    | none =>
      rw [hfound] at h
      exact (hleaks s hconsistent h).elim
    | some itMirrProp =>
      rw [hfound] at h
      exact (hleaks _ (hconsistent.removeMirroredPropertyLocalSubscription _ _) h).elim

theorem careful_insertMirrored {poProperty : Property}
    (h : (s.insertMirrored info poProperty).Bookkept) : "" ∉ localNames info poProperty ∧
      ∀ entry ∈ s.mapRemoteChangeListeners, entry.property.names ≠ localNames info poProperty := by
  rw [Subscriptions.insertMirrored] at h
  generalize hpointer : PropertyPointer.mk (localNames info poProperty)
    ((s.tree.mergeProperty info.strLocalPath (receivedProperty info poProperty)).made (localNames info poProperty)) =
      poResProperty at h
  constructor
  · intro hempty
    have hmissing {root : Property} (hnamed : root.WellNamed) :
        ¬(root.content poResProperty.names).isSome = true := by
      rw [← hpointer,hnamed.content_eq_none hempty]
      exact Bool.false_ne_true
    have hnew : poResProperty ∉ s.mapRemoteChangeListeners.map (·.property) := fun hmem =>
      hmissing hconsistent.proxies.named (alive_iff.mp (hconsistent.mirrors _ (mem_append_right _ hmem))).1
    rw [if_neg hnew] at h
    refine hmissing (hconsistent.proxies.named.mergeProperty _ _) (h.content ?_)
    refine mem_append_right _ (mem_append_right _ ?_)
    rw [map_append]
    exact mem_append_right _ (mem_singleton_self _)
  · intro entry hentry hnames
    have halive := hconsistent.mirrors _ (mem_append_right _ (mem_map_of_mem hentry))
    obtain ⟨hthere,hmade⟩ := alive_iff.mp halive
    have hkey : poResProperty ∈ s.mapRemoteChangeListeners.map (·.property) := by
      refine mem_map.mpr ⟨entry,hentry,?_⟩
      rw [← hpointer,← hnames,ListenedTree.mergeProperty,ListenedTree.withRoot]
      dsimp only
      rw [if_pos hthere,← hmade]
    rw [if_pos hkey] at h
    have howned := h.owned _ (mem_append_right _ (mem_singleton_self _))
    have hzero : s.owners (.mirrored (s.objects + 1) (((s.findMirrored info).map (·.key)).getD s.objects)
      poResProperty) = 0 := hconsistent.owners_eq_zero (le_succ _)
    exact absurd (howned.symm.trans hzero) one_ne_zero

end

private theorem mem_mapMirroredProperties_remove {entry : MirroredEntry} (hentry : entry ∈ s.mapMirroredProperties)
    (hother : entry.info ≠ info) :
    entry ∈ (s.removeMirroredPropertyLocalSubscription property info).mapMirroredProperties := by
  rw [Subscriptions.removeMirroredPropertyLocalSubscription]
  split
  · exact hentry
  · exact mem_filter.mpr ⟨hentry,decide_eq_true hother⟩

private theorem mem_mapRemoteChangeListeners_remove {entry : RemoteChangeEntry}
    (hentry : entry ∈ s.mapRemoteChangeListeners)
    (hother : entry.property ≠ property) :
    entry ∈ (s.removeMirroredPropertyLocalSubscription property info).mapRemoteChangeListeners := by
  rw [Subscriptions.removeMirroredPropertyLocalSubscription]
  split
  · exact hentry
  · exact mem_filter.mpr ⟨hentry,decide_eq_true hother⟩

theorem careful_changeAffected (hconsistent : s.Consistent) {poProperty : PropertyPointer}
    {affected : PropertyPointer × String} {strSender strPath : String} {values : Values}
    (hstep : s.changeAffected poProperty affected.1 affected.2 strSender .delete strPath values = some s')
    (h : s'.Bookkept) : s.CarefulDeletion poProperty affected.1 strSender strPath := by
  rw [Subscriptions.changeAffected] at hstep
  rw [CarefulDeletion]
  split at hstep
  · cases hstep
  · rename_i hnames
    split at hstep
    · rename_i hself
      cases hstep
      rw [if_pos hself]
      rw [removeMirroredPropertyLocalSubscription_withTree] at h
      obtain ⟨-,hdeleted⟩ := deleteProperty_deleted hconsistent.proxies fun hnil => absurd hnil hnames
      -- what stays in a map is not below the property
      have hgone {property : PropertyPointer} (hbelow : affected.1.names <+: property.names)
          (halive : (s.tree.deleteProperty affected.1.names).Alive property) : False := by
        have hdeletes : ListenedTree.Deletes affected.1.names property.names :=
          ⟨hbelow,fun hnil => hnames (prefix_nil.mp (hnil ▸ hbelow))⟩
        rw [ListenedTree.Alive,hdeleted.missing _ hdeletes] at halive
        cases halive
      constructor
      · intro entry hentry hbelow
        by_contra hother
        refine hgone hbelow (h.references _ (mem_append_right _ (mem_append_left _ ?_)))
        exact mem_map_of_mem (mem_mapMirroredProperties_remove hentry hother)
      · intro entry hentry hbelow
        by_contra hother
        refine hgone hbelow (h.references _ (mem_append_right _ (mem_append_right _ ?_)))
        exact mem_map_of_mem (mem_mapRemoteChangeListeners_remove hentry hother)
    · rename_i hother
      cases hstep
      rw [if_neg hother]
      intro property hproperty
      exact ((isSome_content_deleteSubproperty hconsistent.proxies.named.distinct hnames).mp
        (h.content hproperty)).1

theorem careful_of_bookkept (hconsistent : s.Consistent) (hstep : s.step action = some s') (h : s'.Bookkept) :
    s.Careful action := by
  cases action with
  | setPropertyValue | mergeProperty | unregPropListener | unmirrorRemoteProperty => trivial
  | clearProperty strPropertyPath =>
    cases hstep
    exact careful_clearProperty h
  | deleteProperty strPropertyPath =>
    cases hstep
    exact careful_deleteProperty hconsistent h
  | regPropListener strSender strPath =>
    cases hstep
    exact careful_regPropListener hconsistent h
  | mirrorRemoteProperty info tmTimeout transmitted =>
    cases hstep
    exact careful_mirrorRemoteProperty hconsistent h
  | finish call poProperty =>
    intro info hinfo property hproperty
    rw [step] at hstep
    split at hstep
    · cases hstep
      rw [Subscriptions.finish,mem_def.mp hinfo,mem_def.mp hproperty] at h
      exact careful_insertMirrored (hconsistent.proceed call) h
    · cases hstep
  | propertyChanged listener strSender event strPath values =>
    cases listener with
    | acknowledgement number => trivial
    | mirrored number poInfo poProperty =>
      cases event with
      | change | new => trivial
      | delete =>
        intro found hfound affected haffected
        obtain rfl := mem_def.mp haffected
        rw [step] at hstep
        split at hstep
        · rw [Subscriptions.update,mem_def.mp hfound] at hstep
          have hchange : s.changeAffected poProperty affected.1 affected.2 strSender .delete strPath values = some s' :=
            hstep
          exact careful_changeAffected hconsistent hchange h
        · cases hstep

/-- The maps are in order in every state of a run. -/
def RunBookkept (actions : List SubscriptionAction) : Prop :=
  ∀ front s, front <+: actions → runActions step start front = some s → s.Bookkept

def RunCareful (actions : List SubscriptionAction) : Prop :=
  ∀ front action s s', front ++ [action] <+: actions → runActions step start front = some s →
    s.step action = some s' → s.Careful action

private theorem consistent_run {actions : List SubscriptionAction}
    (hcareful : ∀ front action s s', front ++ [action] <+: actions → runActions step start front = some s →
      s.Consistent → s.step action = some s' → runActions step start (front ++ [action]) = some s' → s.Careful action)
    (front : List SubscriptionAction) (hfront : front <+: actions)
    (hrun : runActions step start front = some s) : s.Consistent := by
  induction front using List.reverseRecOn generalizing s with
  | nil =>
    cases hrun
    exact consistent_start
  | append_singleton front action ih =>
    have happend := hrun
    rw [runActions_append_singleton] at hrun
    obtain ⟨before,hbefore,hstep⟩ := bind_eq_some_iff.mp hrun
    have hconsistent := ih ((prefix_append front [action]).trans hfront) hbefore
    exact consistent_step hconsistent (hcareful front action before s hfront hbefore hconsistent hstep happend) hstep

/-- In every order of calls, commands and notifications no map points to a property that is gone, no listener is
without an owner and the participants receive what they asked for, exactly if each step is careful. -/
theorem bookkept_iff_careful (actions : List SubscriptionAction) : RunBookkept actions ↔ RunCareful actions := by
  constructor
  · intro h front action s s' hfront hrun hstep
    have hconsistent : s.Consistent := by
      refine consistent_run (fun front action s s' hfront _ hconsistent hstep hrun => ?_) front
        ((prefix_append front [action]).trans hfront) hrun
      exact careful_of_bookkept hconsistent hstep (h _ s' hfront hrun)
    refine careful_of_bookkept hconsistent hstep (h _ s' hfront ?_)
    rw [runActions_append_singleton,hrun]
    exact hstep
  · intro h front s hfront hrun
    refine (consistent_run (fun front action s s' hfront hrun _ hstep _ => ?_) front hfront hrun).bookkept
    exact h front action s s' hfront hrun hstep

/-- The parent of a property with a proxy is cleared. -/
theorem cleared_dangles : ¬∀ actions, RunBookkept actions := by
  intro h
  have hdangles : (runActions step start [.setPropertyValue "camera.format" (.integer 1),
      .regPropListener "viewer" "camera.format",.clearProperty "camera"]).any
        (fun s => decide (∃ property ∈ s.references, ¬s.tree.Alive property)) = true := by decide +kernel
  obtain ⟨s,hrun,hfacts⟩ := (any_eq_true _ _).mp hdangles
  obtain ⟨property,hproperty,hgone⟩ := of_decide_eq_true hfacts
  exact hgone ((h _ _ s prefix_rfl hrun).references property hproperty)

end Subscriptions
end FepParticipant.PropertyTree
