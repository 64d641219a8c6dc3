import FepParticipant.PropertyTree.TreeGrowth

/-! The proxies of a tree belong to its properties and count the commands of the participants. -/
namespace FepParticipant.PropertyTree
open Library List Nat Function

namespace ListenedTree

variable {tree : ListenedTree} {root : Property} {names other : List String} {property : PropertyPointer}
  {except except' : List String → Prop}

theorem isSome_pointerAt : (tree.pointerAt names).isSome = (tree.root.content names).isSome := by
  rw [pointerAt]
  split
  · rename_i hthere
    rw [hthere]
    rfl
  · rename_i hmissing
    rw [Bool.not_eq_true] at hmissing
    rw [hmissing]
    rfl

theorem pointerAt_eq_some : tree.pointerAt names = some property ↔
    (tree.root.content names).isSome = true ∧ property = ⟨names,tree.made names⟩ := by
  rw [pointerAt]
  split
  · rename_i hthere
    rw [Option.some.injEq,eq_comm]
    exact (and_iff_right hthere).symm
  · rename_i hmissing
    exact iff_of_false nofun fun h => hmissing h.1

theorem pointerAt_eq_none : tree.pointerAt names = none ↔ ¬(tree.root.content names).isSome = true := by
  rw [← isSome_pointerAt,Option.not_isSome_iff_eq_none]

theorem alive_iff : tree.Alive property ↔
    (tree.root.content property.names).isSome = true ∧ property.made = tree.made property.names := by
  rw [Alive,pointerAt_eq_some]
  refine and_congr_right fun _ => ⟨fun h => congrArg PropertyPointer.made h,fun h => ?_⟩
  obtain ⟨names,made⟩ := property
  exact congrArg (PropertyPointer.mk names) h

theorem alive_of_pointerAt (h : tree.pointerAt names = some property) :
    tree.Alive property ∧ property.names = names := by
  obtain ⟨hthere,rfl⟩ := pointerAt_eq_some.mp h
  exact ⟨alive_iff.mpr ⟨hthere,rfl⟩,rfl⟩

theorem pointerAt_withRoot_of_isSome (hthere : (tree.root.content names).isSome = true)
    (hstays : (root.content names).isSome = true) : (tree.withRoot root).pointerAt names = tree.pointerAt names := by
  rw [pointerAt_eq_some.mpr ⟨hthere,rfl⟩,pointerAt_eq_some]
  exact ⟨hstays,congrArg (PropertyPointer.mk names) (if_pos hthere).symm⟩

theorem alive_withRoot (h : (tree.withRoot root).Alive property) :
    tree.Alive property ∨ tree.root.content property.names = none ∧ property.made = tree.calls := by
  obtain ⟨-,hmade⟩ := alive_iff.mp h
  rw [withRoot] at hmade
  dsimp only at hmade
  split at hmade
  · rename_i hthere
    exact .inl (alive_iff.mpr ⟨hthere,hmade⟩)
  · rename_i hmissing
    exact .inr ⟨Option.not_isSome_iff_eq_none.mp hmissing,hmade⟩

/-- The proxies belong to properties of the tree, are in the lists of these only, and count the commands; proxies of
excepted ones may be gone. -/
structure ProxiesCount (tree : ListenedTree) (except : List String → Prop) : Prop where
  named : tree.root.WellNamed
  made (names : List String) : (tree.root.content names).isSome = true → tree.made names < tree.calls
  alive : ∀ entry ∈ tree.mapProxyChangeListeners, tree.Alive entry.subscription.property
  path : ∀ entry ∈ tree.mapProxyChangeListeners,
    pathNames entry.subscription.strPath = entry.subscription.property.names
  listens (property : PropertyPointer) (listener : Nat) : listener ∈ tree.vecListeners property ↔
    ∃ entry ∈ tree.mapProxyChangeListeners, entry.subscription.property = property ∧ entry.listener = listener
  numbered : ∀ entry ∈ tree.mapProxyChangeListeners, entry.listener < tree.proxies
  listeners : (tree.mapProxyChangeListeners.map (·.listener)).Nodup
  subscriptions : (tree.mapProxyChangeListeners.map (·.subscription)).Nodup
  counted : ∀ entry ∈ tree.mapProxyChangeListeners, 0 < entry.nRefCount ∧ entry.nRefCount =
    (tree.regCommands.count entry.subscription : Int) - tree.unregCommands.count entry.subscription
  uncounted (subscription : Subscription) : tree.Alive subscription.property →
    ¬except subscription.property.names → subscription ∉ tree.mapProxyChangeListeners.map (·.subscription) →
      tree.regCommands.count subscription ≤ tree.unregCommands.count subscription
  commanded (subscription : Subscription) :
    subscription ∈ tree.regCommands ∨ subscription ∈ tree.unregCommands → subscription.property.made < tree.calls

theorem proxiesCount_start : start.ProxiesCount except where
  named := Property.namesMeet_mk.mpr ⟨⟨nodup_nil,not_mem_nil⟩,nofun⟩
  made _ _ := zero_lt_one
  alive := nofun
  path := nofun
  listens property listener := by simp [start]
  numbered := nofun
  listeners := nodup_nil
  subscriptions := nodup_nil
  counted := nofun
  uncounted subscription _ _ _ := le_refl _
  commanded subscription h := by simp [start] at h

namespace ProxiesCount

theorem withRoot (h : tree.ProxiesCount except) (hnamed : root.WellNamed)
    (hstay : ∀ entry ∈ tree.mapProxyChangeListeners, (root.content entry.subscription.property.names).isSome = true)
    (hexcept : ∀ names, (root.content names).isSome = true → except names → except' names) :
    (tree.withRoot root).ProxiesCount except' where
  named := hnamed
  made names _ := by
    rw [ListenedTree.withRoot]
    dsimp only
    split
    · rename_i hthere
      exact lt_succ_of_lt (h.made names hthere)
    · exact lt_succ_self _
  alive entry hentry := by
    have halive := h.alive entry hentry
    rw [Alive,pointerAt_withRoot_of_isSome (alive_iff.mp halive).1 (hstay entry hentry)]
    exact halive
  path := h.path
  listens := h.listens
  numbered := h.numbered
  listeners := h.listeners
  subscriptions := h.subscriptions
  counted := h.counted
  uncounted subscription halive hnot hmissing := by
    rcases alive_withRoot halive with hold | ⟨-,hnew⟩
    · exact h.uncounted subscription hold (fun hbefore => hnot (hexcept _ (alive_iff.mp halive).1 hbefore)) hmissing
    · have hnone : subscription ∉ tree.regCommands := fun hmem => by
        have hmade := h.commanded subscription (.inl hmem)
        omega
      have hzero : tree.regCommands.count subscription = 0 := count_eq_zero_of_not_mem hnone
      exact hzero.trans_le (zero_le _)
  commanded subscription hmem := lt_succ_of_lt (h.commanded subscription hmem)

end ProxiesCount

variable {subscription : Subscription}
variable {proxy : ProxyPropertyChangedListener}

theorem count_append_other {commands : List Subscription} {other : Subscription}
    (hne : other ≠ subscription) : (commands ++ [subscription]).count other = commands.count other := by
  rw [count_append,count_eq_zero_of_not_mem fun hmem => hne (mem_singleton.mp hmem),add_zero]

theorem mem_addToRefCount {entry proxy : ProxyPropertyChangedListener} {change : Int} :
    entry ∈ (tree.addToRefCount proxy change).mapProxyChangeListeners ↔ ∃ old ∈ tree.mapProxyChangeListeners,
      (if old.listener = proxy.listener then {old with nRefCount := old.nRefCount + change} else old) = entry :=
  mem_map

theorem map_addToRefCount {β : Type} (change : Int) (field : ProxyPropertyChangedListener → β)
    (hfield : ∀ entry nRefCount, field {entry with nRefCount := nRefCount} = field entry) :
    (tree.addToRefCount proxy change).mapProxyChangeListeners.map field = tree.mapProxyChangeListeners.map field := by
  rw [addToRefCount,map_map]
  refine map_congr_left fun entry _ => ?_
  rw [comp_apply]
  split
  · exact hfield entry _
  · rfl

theorem findExistingProxyListener_eq_none : tree.findExistingProxyListener subscription = none ↔
      subscription ∉ tree.mapProxyChangeListeners.map (·.subscription) := by
  rw [findExistingProxyListener,find?_eq_none,mem_map]
  refine ⟨fun h ⟨entry,hentry,heq⟩ => h entry hentry (decide_eq_true heq),fun h entry hentry heq => ?_⟩
  exact h ⟨entry,hentry,of_decide_eq_true heq⟩

theorem mem_of_findExistingProxyListener (h : tree.findExistingProxyListener subscription = some proxy) :
    proxy ∈ tree.mapProxyChangeListeners ∧ proxy.subscription = subscription :=
  ⟨mem_of_find?_eq_some h,by simpa using find?_some h⟩

theorem alive_regPropListener {strSender strPath : String} :
    (tree.regPropListener strSender strPath).Alive property ↔ tree.Alive property := by
  rw [regPropListener]
  split
  · rfl
  · dsimp only
    split <;> rfl

theorem alive_unregPropListener {strSender strPath : String} :
    (tree.unregPropListener strSender strPath).Alive property ↔ tree.Alive property := by
  rw [unregPropListener]
  split
  · rfl
  · dsimp only
    split
    · rfl
    · split <;> rfl

namespace ProxiesCount

theorem addToRefCount (h : tree.ProxiesCount except) {proxy : ProxyPropertyChangedListener}
    (hproxy : proxy ∈ tree.mapProxyChangeListeners) {change : Int} (hpos : 0 < proxy.nRefCount + change)
    {regs unregs : List Subscription} (hself : (regs.count proxy.subscription : Int) - unregs.count proxy.subscription =
      tree.regCommands.count proxy.subscription - tree.unregCommands.count proxy.subscription + change)
    (hother : ∀ subscription, subscription ≠ proxy.subscription →
      regs.count subscription = tree.regCommands.count subscription ∧
        unregs.count subscription = tree.unregCommands.count subscription)
    (hcommanded : ∀ subscription, subscription ∈ regs ∨
      subscription ∈ unregs → subscription.property.made < tree.calls) :
    ({tree with regCommands := regs, unregCommands := unregs}.addToRefCount proxy change).ProxiesCount except := by
  refine ⟨h.named,h.made,fun entry hentry => ?_,fun entry hentry => ?_,fun property listener => ?_,
    fun entry hentry => ?_,?_,?_,fun entry hentry => ?_,fun subscription halive hnot hmissing => ?_,hcommanded⟩
  · obtain ⟨old,hold,rfl⟩ := mem_addToRefCount.mp hentry
    have halive := h.alive old hold
    split <;> exact halive
  · obtain ⟨old,hold,rfl⟩ := mem_addToRefCount.mp hentry
    have hpath := h.path old hold
    split <;> exact hpath
  · refine (h.listens property listener).trans ⟨fun ⟨entry,hentry,hof,hlistener⟩ =>
      ⟨_,mem_addToRefCount.mpr ⟨entry,hentry,rfl⟩,?_⟩,fun ⟨entry,hentry,hof⟩ => ?_⟩
    · split <;> exact ⟨hof,hlistener⟩
    · obtain ⟨old,hold,rfl⟩ := mem_addToRefCount.mp hentry
      refine ⟨old,hold,?_⟩
      split at hof <;> exact hof
  · obtain ⟨old,hold,rfl⟩ := mem_addToRefCount.mp hentry
    have hless := h.numbered old hold
    split <;> exact hless
  · rw [map_addToRefCount _ (·.listener) fun _ _ => rfl]
    exact h.listeners
  · rw [map_addToRefCount _ (·.subscription) fun _ _ => rfl]
    exact h.subscriptions
  · obtain ⟨old,hold,rfl⟩ := mem_addToRefCount.mp hentry
    have hcount := h.counted old hold
    split
    · rename_i hsame
      obtain rfl := inj_on_of_nodup_map h.listeners hold hproxy hsame
      refine ⟨hpos,?_⟩
      rw [hcount.2]
      exact hself.symm
    · rename_i hne
      have hsub : old.subscription ≠ proxy.subscription := fun heq =>
        hne (congrArg _ (inj_on_of_nodup_map h.subscriptions hold hproxy heq))
      obtain ⟨hregs,hunregs⟩ := hother _ hsub
      exact ⟨hcount.1,by rw [hcount.2]; exact congrArg₂ (fun a b : Nat => (a : Int) - b) hregs.symm hunregs.symm⟩
  · rw [map_addToRefCount _ (·.subscription) fun _ _ => rfl] at hmissing
    have hsub : subscription ≠ proxy.subscription := fun heq => hmissing (heq ▸ mem_map_of_mem hproxy)
    obtain ⟨hregs,hunregs⟩ := hother _ hsub
    exact hregs.trans_le ((h.uncounted subscription halive hnot hmissing).trans_eq hunregs.symm)

variable {subscription : Subscription}

section
variable (h : tree.ProxiesCount except)
include h

private theorem made_lt (halive : tree.Alive property) : property.made < tree.calls := by
  obtain ⟨hthere,hmade⟩ := alive_iff.mp halive
  exact hmade ▸ h.made _ hthere

theorem commanded_append (halive : tree.Alive subscription.property)
    {other : Subscription} (hmem : other ∈ tree.regCommands ∨ other ∈ tree.unregCommands ∨ other = subscription) :
    other.property.made < tree.calls := by
  rcases hmem with hreg | hunreg | rfl
  · exact h.commanded other (.inl hreg)
  · exact h.commanded other (.inr hunreg)
  · exact h.made_lt halive

theorem addProxy (halive : tree.Alive subscription.property)
    (hpath : pathNames subscription.strPath = subscription.property.names)
    (hnone : subscription ∉ tree.mapProxyChangeListeners.map (·.subscription))
    (hsent : tree.regCommands.count subscription = tree.unregCommands.count subscription) : ProxiesCount { tree with
      regCommands := tree.regCommands ++ [subscription]
      vecListeners := Function.update tree.vecListeners subscription.property
        (tree.vecListeners subscription.property ++ [tree.proxies])
      mapProxyChangeListeners := tree.mapProxyChangeListeners ++ [⟨subscription,tree.proxies,1⟩]
      proxies := tree.proxies + 1 } except where
  named := h.named
  made := h.made
  alive := by
    rw [forall_mem_append,forall_mem_singleton]
    exact ⟨h.alive,halive⟩
  path := by
    rw [forall_mem_append,forall_mem_singleton]
    exact ⟨h.path,hpath⟩
  listens property listener := by
    simp only [mem_append,mem_singleton,or_and_right,exists_or,exists_eq_left,← h.listens]
    by_cases hproperty : property = subscription.property
    · subst hproperty
      rw [update_self,mem_append,mem_singleton,eq_comm,and_iff_right rfl]
    · rw [update_of_ne hproperty]
      exact (or_iff_left fun hnew => hproperty hnew.1.symm).symm
  numbered := by
    rw [forall_mem_append,forall_mem_singleton]
    exact ⟨fun entry hentry => lt_succ_of_lt (h.numbered entry hentry),lt_succ_self _⟩
  listeners := by
    rw [map_append,map_singleton,← concat_eq_append]
    refine List.Nodup.concat (fun hmem => ?_) h.listeners
    obtain ⟨entry,hentry,hsame⟩ := mem_map.mp hmem
    exact (h.numbered entry hentry).ne hsame
  subscriptions := by
    rw [map_append,map_singleton,← concat_eq_append]
    exact List.Nodup.concat hnone h.subscriptions
  counted := by
    rw [forall_mem_append,forall_mem_singleton]
    refine ⟨fun entry hentry => ?_,Int.one_pos,?_⟩
    · have hne : entry.subscription ≠ subscription := fun heq => hnone (heq ▸ mem_map_of_mem hentry)
      rw [count_append_other hne]
      exact h.counted entry hentry
    · dsimp only
      rw [count_append,count_singleton_self,hsent]
      omega
  uncounted other hother hnot hmissing := by
    rw [map_append,mem_append,not_or] at hmissing
    have hne : other ≠ subscription := fun heq => hmissing.2 (mem_singleton.mpr heq)
    rw [count_append_other hne]
    exact h.uncounted other hother hnot hmissing.1
  commanded other hmem := by
    refine h.commanded_append halive ?_
    rw [mem_append,mem_singleton] at hmem
    rcases hmem with (hreg | hself) | hunreg
    · exact .inl hreg
    · exact .inr (.inr hself)
    · exact .inr (.inl hunreg)

theorem removeProxy (hproxy : proxy ∈ tree.mapProxyChangeListeners) (hlast : proxy.nRefCount - 1 ≤ 0) :
    ProxiesCount { tree with
      unregCommands := tree.unregCommands ++ [proxy.subscription]
      vecListeners := Function.update tree.vecListeners proxy.subscription.property
        ((tree.vecListeners proxy.subscription.property).filter fun listener => listener ≠ proxy.listener)
      mapProxyChangeListeners := tree.mapProxyChangeListeners.filter fun entry => entry.listener ≠ proxy.listener }
      except where
  named := h.named
  made := h.made
  alive entry hentry := h.alive entry (mem_of_mem_filter hentry)
  path entry hentry := h.path entry (mem_of_mem_filter hentry)
  listens property listener := by
    dsimp only
    by_cases hproperty : property = proxy.subscription.property
    · subst hproperty
      rw [update_self,mem_filter,decide_eq_true_iff,h.listens]
      refine ⟨fun ⟨⟨entry,hentry,hof,hlistener⟩,hne⟩ => ⟨entry,mem_filter.mpr ⟨hentry,?_⟩,hof,hlistener⟩,
        fun ⟨entry,hentry,hof,hlistener⟩ => ?_⟩
      · rw [decide_eq_true_iff,hlistener]
        exact hne
      · obtain ⟨hentry,hne⟩ := mem_filter.mp hentry
        exact ⟨⟨entry,hentry,hof,hlistener⟩,hlistener ▸ of_decide_eq_true hne⟩
    · rw [update_of_ne hproperty,h.listens]
      refine exists_congr fun entry => and_congr_left fun hof => ?_
      rw [mem_filter,decide_eq_true_iff]
      refine ⟨fun hentry => ⟨hentry,fun hsame => hproperty ?_⟩,And.left⟩
      rw [← hof.1,inj_on_of_nodup_map h.listeners hentry hproxy hsame]
  numbered entry hentry := h.numbered entry (mem_of_mem_filter hentry)
  listeners := h.listeners.sublist (filter_sublist.map _)
  subscriptions := h.subscriptions.sublist (filter_sublist.map _)
  counted entry hentry := by
    obtain ⟨hentry,hne⟩ := mem_filter.mp hentry
    have hother : entry.subscription ≠ proxy.subscription := fun heq => of_decide_eq_true hne
      (congrArg _ (inj_on_of_nodup_map h.subscriptions hentry hproxy heq))
    rw [count_append_other hother]
    exact h.counted entry hentry
  uncounted subscription halive hnot hmissing := by
    dsimp only
    rw [count_append]
    by_cases hself : subscription = proxy.subscription
    · subst hself
      obtain ⟨-,hcount⟩ := h.counted proxy hproxy
      rw [count_singleton_self]
      omega
    · refine le_add_right_of_le (h.uncounted subscription halive hnot fun hmem => hmissing ?_)
      obtain ⟨entry,hentry,rfl⟩ := mem_map.mp hmem
      refine mem_map_of_mem (mem_filter.mpr ⟨hentry,decide_eq_true fun hsame => hself ?_⟩)
      rw [inj_on_of_nodup_map h.listeners hentry hproxy hsame]
  commanded other hmem := by
    refine h.commanded_append (h.alive proxy hproxy) ?_
    rw [mem_append,mem_singleton] at hmem
    exact hmem

theorem unregUnknown (halive : tree.Alive subscription.property)
    (hnone : subscription ∉ tree.mapProxyChangeListeners.map (·.subscription)) :
    ProxiesCount {tree with unregCommands := tree.unregCommands ++ [subscription]} except where
  named := h.named
  made := h.made
  alive := h.alive
  path := h.path
  listens := h.listens
  numbered := h.numbered
  listeners := h.listeners
  subscriptions := h.subscriptions
  counted entry hentry := by
    have hne : entry.subscription ≠ subscription := fun heq => hnone (heq ▸ mem_map_of_mem hentry)
    rw [count_append_other hne]
    exact h.counted entry hentry
  uncounted other hother hnot hmissing := by
    rw [count_append]
    exact le_add_right_of_le (h.uncounted other hother hnot hmissing)
  commanded other hmem := by
    refine h.commanded_append halive ?_
    rw [mem_append,mem_singleton] at hmem
    exact hmem

end

variable {strSender strPath : String}

theorem regPropListener (h : tree.ProxiesCount fun _ => False)
    (hsent : ∀ pProperty, tree.getLocalProperty strPath = some pProperty →
      tree.unregCommands.count ⟨pProperty,strSender,strPath⟩ ≤ tree.regCommands.count ⟨pProperty,strSender,strPath⟩) :
    (tree.regPropListener strSender strPath).ProxiesCount fun _ => False := by
  rw [ListenedTree.regPropListener]
  cases hfound : tree.getLocalProperty strPath with
  | none => exact h
  | some pProperty =>
    dsimp only
    have halive := (alive_of_pointerAt hfound).1
    generalize hsub : (⟨pProperty,strSender,strPath⟩ : Subscription) = subscription at *
    have hproperty : subscription.property = pProperty := hsub ▸ rfl
    subst hproperty
    cases hproxy : findExistingProxyListener {tree with regCommands := tree.regCommands ++ [subscription]}
      subscription with
    | some proxy =>
      obtain ⟨hmem,rfl⟩ := mem_of_findExistingProxyListener hproxy
      have hpos := (h.counted proxy hmem).1
      refine h.addToRefCount hmem (by omega) ?_ (fun other hne => ⟨?_,rfl⟩) fun other hmem => ?_
      · rw [count_append,count_singleton_self]
        omega
      · exact count_append_other hne
      · refine h.commanded_append halive ?_
        rw [mem_append,mem_singleton] at hmem
        tauto
    | none =>
      have hnone := findExistingProxyListener_eq_none.mp hproxy
      have hnotLess := hsent _ hfound
      rw [hsub] at hnotLess
      have hpath : pathNames subscription.strPath = subscription.property.names := by
        rw [(alive_of_pointerAt hfound).2,← hsub]
      exact h.addProxy halive hpath hnone (le_antisymm (h.uncounted _ halive not_false hnone) hnotLess)

theorem unregPropListener (h : tree.ProxiesCount except) :
    (tree.unregPropListener strSender strPath).ProxiesCount except := by
  rw [ListenedTree.unregPropListener]
  cases hfound : tree.getLocalProperty strPath with
  | none => exact h
  | some pProperty =>
    dsimp only
    have halive := (alive_of_pointerAt hfound).1
    generalize hsub : (⟨pProperty,strSender,strPath⟩ : Subscription) = subscription at *
    have hproperty : subscription.property = pProperty := hsub ▸ rfl
    subst hproperty
    cases hproxy : findExistingProxyListener {tree with unregCommands := tree.unregCommands ++ [subscription]}
      subscription with
    | none => exact h.unregUnknown halive (findExistingProxyListener_eq_none.mp hproxy)
    | some proxy =>
      obtain ⟨hmem,rfl⟩ := mem_of_findExistingProxyListener hproxy
      dsimp only
      split
      · rename_i hpos
        refine h.addToRefCount hmem (by omega) ?_ (fun other hne => ⟨rfl,?_⟩) fun other hmem => ?_
        · rw [count_append,count_singleton_self]
          omega
        · exact count_append_other hne
        · refine h.commanded_append halive ?_
          rw [mem_append,mem_singleton] at hmem
          exact hmem
      · rename_i hlast
        exact h.removeProxy hmem (by omega)

theorem receives_iff (h : tree.ProxiesCount fun _ => False) (halive : tree.Alive subscription.property) :
    tree.Receives subscription ↔ tree.unregCommands.count subscription < tree.regCommands.count subscription := by
  constructor
  · rintro ⟨entry,hentry,hlistens,hmodule,hpath⟩
    obtain ⟨other,hother,hof,hsame⟩ := (h.listens _ _).mp hlistens
    obtain rfl := inj_on_of_nodup_map h.listeners hother hentry hsame
    obtain ⟨hpos,hcount⟩ := h.counted other hentry
    have hself : other.subscription = subscription := by
      cases hsub : other.subscription
      cases subscription
      simp_all
    rw [hself] at hcount
    omega
  · intro hless
    by_contra hnot
    refine absurd (h.uncounted subscription halive not_false fun hmem => hnot ?_) (Nat.not_le_of_lt hless)
    obtain ⟨entry,hentry,rfl⟩ := mem_map.mp hmem
    exact ⟨entry,hentry,(h.listens _ _).mpr ⟨entry,hentry,rfl,rfl⟩,rfl,rfl⟩

end ProxiesCount

end ListenedTree

end FepParticipant.PropertyTree
