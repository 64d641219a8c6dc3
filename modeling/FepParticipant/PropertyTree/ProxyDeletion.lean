import FepParticipant.PropertyTree.ProxyBookkeeping

/-! `DeleteProperty` takes the proxies of all properties away that it deletes. -/
namespace FepParticipant.PropertyTree
open Library List Property

namespace ListenedTree

variable {tree tree' : ListenedTree} {root : Property} {names other : List String} {property : PropertyPointer}
  {except except' : List String → Prop}

namespace ProxiesCount

theorem deletePropertyFromMap (h : tree.ProxiesCount except) (poProp : PropertyPointer)
    (hexcept : ∀ names, except names ∨ names = poProp.names → except' names) :
    (tree.deletePropertyFromMap poProp).ProxiesCount except' where
  named := h.named
  made := h.made
  alive entry hentry := h.alive entry (mem_of_mem_filter hentry)
  path entry hentry := h.path entry (mem_of_mem_filter hentry)
  listens property listener := by
    rw [ListenedTree.deletePropertyFromMap]
    dsimp only
    by_cases hproperty : property = poProp
    · subst hproperty
      rw [Function.update_self,mem_filter,decide_eq_true_iff,mem_map,h.listens]
      refine iff_of_false ?_ ?_
      · rintro ⟨⟨entry,hentry,hof,hlistener⟩,hnot⟩
        exact hnot ⟨entry,mem_filter.mpr ⟨hentry,decide_eq_true hof⟩,hlistener⟩
      · rintro ⟨entry,hentry,hof,-⟩
        exact of_decide_eq_true (mem_filter.mp hentry).2 hof
    · rw [Function.update_of_ne hproperty,h.listens]
      refine exists_congr fun entry => and_congr_left fun hof => ?_
      rw [mem_filter,hof.1,decide_eq_true_iff]
      exact (and_iff_left hproperty).symm
  numbered entry hentry := h.numbered entry (mem_of_mem_filter hentry)
  listeners := h.listeners.sublist (filter_sublist.map _)
  subscriptions := h.subscriptions.sublist (filter_sublist.map _)
  counted entry hentry := h.counted entry (mem_of_mem_filter hentry)
  uncounted subscription halive hnot hmissing := by
    refine h.uncounted subscription halive (fun hbefore => hnot (hexcept _ (.inl hbefore))) fun hmem => hmissing ?_
    obtain ⟨entry,hentry,rfl⟩ := mem_map.mp hmem
    refine mem_map_of_mem (mem_filter.mpr ⟨hentry,decide_eq_true fun hof => ?_⟩)
    exact hnot (hexcept _ (.inr (congrArg PropertyPointer.names hof)))
  commanded := h.commanded

end ProxiesCount

/-- The subproperties that a loop runs over are those of the tree. -/
def Snapshot (names : List String) (property : Property) (root : Property) : Prop :=
  ∀ rel, (property.content rel).isSome = (root.content (names ++ rel)).isSome

private theorem dropLast_append_getLastD (hnames : names ≠ []) : names.dropLast ++ [names.getLastD ""] = names := by
  rw [getLastD_eq_getLast?,getLast?_eq_getLast_of_ne_nil hnames,Option.getD_some,dropLast_append_getLast hnames]

section
variable (hdistinct : tree.root.DistinctNames)
include hdistinct

private theorem content_deleteSubproperty (hnames : names ≠ []) :
    (tree.deleteSubproperty names).root.content = (TreeEvent.drop names).apply tree.root.content := by
  rw [deleteSubproperty,withRoot,Property.content_deleteSubproperty hdistinct,dropLast_append_getLastD hnames]

theorem isSome_content_deleteSubproperty (hnames : names ≠ []) :
    ((tree.deleteSubproperty names).root.content other).isSome = true ↔
      ¬names <+: other ∧ (tree.root.content other).isSome = true := by
  rw [content_deleteSubproperty hdistinct hnames]
  simp only [TreeEvent.apply]
  split
  · rename_i hbelow
    exact iff_of_false Bool.false_ne_true fun h => h.1 hbelow
  · rename_i hnot
    exact (and_iff_right hnot).symm

theorem pointerAt_deleteSubproperty (hnames : names ≠ []) :
    (tree.deleteSubproperty names).pointerAt other = if names <+: other then none else tree.pointerAt other := by
  have hthere := @isSome_content_deleteSubproperty tree names other hdistinct hnames
  split
  · rename_i hbelow
    exact pointerAt_eq_none.mpr fun h => (hthere.mp h).1 hbelow
  · rename_i hnot
    by_cases hold : (tree.root.content other).isSome = true
    · exact pointerAt_withRoot_of_isSome hold (hthere.mpr ⟨hnot,hold⟩)
    · rw [pointerAt_eq_none.mpr hold,pointerAt_eq_none]
      exact fun h => hold (hthere.mp h).2

end

/-- What a call of `DeleteProperty` leaves: no proxy is new, and nothing is left where it deletes. -/
structure Deleted (gone : List String → Prop) (tree tree' : ListenedTree) : Prop where
  missing (names : List String) : gone names → tree'.pointerAt names = none
  kept (names : List String) : ¬gone names → tree'.pointerAt names = tree.pointerAt names
  entries : ∀ entry ∈ tree'.mapProxyChangeListeners, entry ∈ tree.mapProxyChangeListeners
  commands : tree'.regCommands = tree.regCommands ∧ tree'.unregCommands = tree.unregCommands

theorem deleteEach_deleted {properties : List Property}
    (hdelete : ∀ sub ∈ properties, ∀ tree : ListenedTree, tree.ProxiesCount except →
      Snapshot (names ++ [sub.name]) sub tree.root → ∃ tree',
        deleteFound (names ++ [sub.name]) sub tree = (true,tree') ∧ tree'.ProxiesCount except ∧
          Deleted (fun other => names ++ [sub.name] <+: other) tree tree')
    (h : tree.ProxiesCount except) (hnodup : (properties.map Property.name).Nodup)
    (hsnapshot : ∀ sub ∈ properties, Snapshot (names ++ [sub.name]) sub tree.root) :
    ∃ tree', deleteEach names properties tree = (true,tree') ∧ tree'.ProxiesCount except ∧
      Deleted (fun other => ∃ sub ∈ properties, names ++ [sub.name] <+: other) tree tree' := by
  induction properties generalizing tree with
  | nil =>
    refine ⟨tree,rfl,h,⟨fun other hgone => ?_,fun _ _ => rfl,fun _ hentry => hentry,rfl,rfl⟩⟩
    obtain ⟨_,hmem,-⟩ := hgone
    cases hmem
  | cons sub properties ih =>
    rw [map_cons,nodup_cons] at hnodup
    rw [forall_mem_cons] at hdelete hsnapshot
    obtain ⟨tree₁,hfirst,h₁,hdeleted⟩ := hdelete.1 tree h hsnapshot.1
    -- the other subproperties have other names and are still there
    have hsnapshot₁ : ∀ other ∈ properties, Snapshot (names ++ [other.name]) other tree₁.root := by
      intro other hother rel
      have hnot : ¬names ++ [sub.name] <+: names ++ [other.name] ++ rel := by
        rw [append_assoc,prefix_append_right_inj,singleton_append,cons_prefix_cons]
        rintro ⟨hsame,-⟩
        exact hnodup.1 (hsame ▸ mem_map_of_mem hother)
      rw [hsnapshot.2 other hother,← isSome_pointerAt,← isSome_pointerAt,hdeleted.kept _ hnot]
    obtain ⟨tree₂,hrest,h₂,hdeleted₂⟩ := ih hdelete.2 h₁ hnodup.2 hsnapshot₁
    refine ⟨tree₂,?_,h₂,⟨fun other hgone => ?_,fun other hnot => ?_,fun entry hentry => ?_,
      hdeleted₂.commands.1.trans hdeleted.commands.1,hdeleted₂.commands.2.trans hdeleted.commands.2⟩⟩
    · rw [deleteEach,hfirst]
      exact hrest
    · by_cases hlater : ∃ sub ∈ properties, names ++ [sub.name] <+: other
      · exact hdeleted₂.missing other hlater
      · rw [hdeleted₂.kept other hlater]
        obtain ⟨found,hfound,hbelow⟩ := hgone
        rcases mem_cons.mp hfound with rfl | hfound
        · exact hdeleted.missing other hbelow
        · exact absurd ⟨found,hfound,hbelow⟩ hlater
    · rw [hdeleted₂.kept other fun ⟨found,hfound,hbelow⟩ => hnot ⟨found,mem_cons_of_mem _ hfound,hbelow⟩]
      exact hdeleted.kept other fun hbelow => hnot ⟨sub,mem_cons_self,hbelow⟩
    · exact hdeleted.entries entry (hdeleted₂.entries entry hentry)

theorem Snapshot.sub {name : String} {values : Values} {subproperties : List Property}
    (h : Snapshot names (.mk name values subproperties) root) (hnodup : (subproperties.map Property.name).Nodup)
    {sub : Property} (hsub : sub ∈ subproperties) : Snapshot (names ++ [sub.name]) sub root := by
  intro rel
  have hrel := h (sub.name::rel)
  rw [content_cons,Property.findSubproperty,Property.getSubProperties,
    (OrderedMap.find?_key_eq_some_iff hnodup).mpr ⟨hsub,rfl⟩,Option.bind_some] at hrel
  rw [hrel,append_assoc,singleton_append]

theorem Snapshot.below {name : String} {values : Values} {subproperties : List Property}
    (h : Snapshot names (.mk name values subproperties) root) {first : String} {rel : List String}
    (hthere : (root.content (names ++ first::rel)).isSome = true) :
    ∃ sub ∈ subproperties, names ++ [sub.name] <+: names ++ first::rel := by
  rw [← h,content_cons,Property.findSubproperty,Property.getSubProperties] at hthere
  cases hfound : subproperties.find? fun sub => sub.name == first with
  | none =>
    rw [hfound] at hthere
    cases hthere
  | some sub =>
    have hname : sub.name = first := by simpa using find?_some hfound
    refine ⟨sub,mem_of_find?_eq_some hfound,?_⟩
    rw [prefix_append_right_inj,hname]
    exact cons_prefix_cons.mpr ⟨rfl, nil_prefix⟩

theorem deleteFound_deleted (property : Property) (hnames : names ≠ []) (h : tree.ProxiesCount except)
    (hdistinct : property.DistinctNames) (hsnapshot : Snapshot names property tree.root) :
    ∃ tree', deleteFound names property tree = (true,tree') ∧ tree'.ProxiesCount except ∧
      Deleted (fun other => names <+: other) tree tree' := by
  induction property using Property.induction generalizing names tree except with
  | mk name values subproperties ih =>
    obtain ⟨hnodup,hsubs⟩ := namesMeet_mk.mp hdistinct
    have hthere : (tree.root.content names).isSome = true := by
      have hself := hsnapshot []
      rw [append_nil] at hself
      exact hself.symm
    -- the first step takes the proxies of the property away, which nothing asks for when it is gone
    have h₁ : (tree.deletePropertyFromMap ⟨names,tree.made names⟩).ProxiesCount
        (fun other => except other ∨ other = names) := h.deletePropertyFromMap _ fun _ h => h
    obtain ⟨tree₂,heach,h₂,hdeleted⟩ := deleteEach_deleted
      (fun sub hsub tree h hsnapshot => ih sub hsub (append_ne_nil_of_right_ne_nil _ (cons_ne_nil _ _)) h
        (hsubs sub hsub) hsnapshot) h₁ hnodup fun sub hsub => hsnapshot.sub hnodup hsub
    have hself : ¬∃ sub ∈ subproperties, names ++ [sub.name] <+: names := by
      rintro ⟨sub,-,hbelow⟩
      simpa using hbelow.length_le
    have hthere₂ : (tree₂.root.content names).isSome = true := by
      rw [← isSome_pointerAt,hdeleted.kept names hself,isSome_pointerAt]
      exact hthere
    have hkept {other : List String} (hnot : ¬names <+: other) : tree₂.pointerAt other = tree.pointerAt other :=
      hdeleted.kept other fun ⟨sub,_,hbelow⟩ => hnot ((prefix_append _ _).trans hbelow)
    -- no proxy is left at the property or below it
    have hproxies : ∀ entry ∈ tree₂.mapProxyChangeListeners, ¬names <+: entry.subscription.property.names := by
      rintro entry hentry ⟨rel,hrel⟩
      have halive := h₂.alive entry hentry
      cases rel with
      | nil =>
        rw [append_nil] at hrel
        have hmem := mem_filter.mp (hdeleted.entries entry hentry)
        refine of_decide_eq_true hmem.2 ?_
        have hsame := h.alive entry hmem.1
        rw [Alive,← hrel] at hsame
        exact (pointerAt_eq_some.mp hsame).2
      | cons first rel =>
        rw [Alive,← hrel] at halive
        by_cases hbelow : ∃ sub ∈ subproperties, names ++ [sub.name] <+: names ++ first::rel
        · rw [hdeleted.missing _ hbelow] at halive
          cases halive
        · have hbefore : tree.pointerAt (names ++ first::rel) = _ := (hdeleted.kept _ hbelow).symm.trans halive
          exact hbelow (hsnapshot.below (pointerAt_eq_some.mp hbefore).1)
    have hpointer {other : List String} := @pointerAt_deleteSubproperty tree₂ names other h₂.named.distinct hnames
    refine ⟨tree₂.deleteSubproperty names,?_,?_,⟨fun other hgone => ?_,fun other hnot => ?_,
      fun entry hentry => ?_,hdeleted.commands⟩⟩
    · rw [deleteFound,heach]
      dsimp only
      rw [deleteInTree,if_neg hnames,if_pos hthere₂]
    · refine h₂.withRoot (h₂.named.deleteSubproperty _ _) (fun entry hentry => ?_) fun other hother hexcept => ?_
      · exact (isSome_content_deleteSubproperty h₂.named.distinct hnames).mpr
          ⟨hproxies entry hentry,(alive_iff.mp (h₂.alive entry hentry)).1⟩
      · have hnot := ((isSome_content_deleteSubproperty h₂.named.distinct hnames).mp hother).1
        exact hexcept.resolve_right fun hsame => hnot (hsame ▸ prefix_rfl)
    · rw [hpointer,if_pos hgone]
    · rw [hpointer,if_neg hnot]
      exact hkept hnot
    · exact (mem_filter.mp (hdeleted.entries entry hentry)).1

theorem snapshot_of_getSubproperty {found : Property} (hfound : tree.root.getSubproperty names = some found) :
    Snapshot names found tree.root := by
  intro rel
  rw [content_append,hfound,Option.bind_some]

theorem deletePropertyFromMap_of_none (property : PropertyPointer)
    (h : ∀ entry ∈ tree.mapProxyChangeListeners, entry.subscription.property ≠ property) :
    tree.deletePropertyFromMap property = tree := by
  have hnone := filter_eq_nil_iff.mpr fun entry hentry heq => h entry hentry (of_decide_eq_true heq)
  have hall := filter_eq_self.mpr fun entry hentry => decide_eq_true (h entry hentry)
  have hlisteners : (tree.vecListeners property).filter (fun listener => listener ∉ ([] : List Nat)) =
      tree.vecListeners property := filter_eq_self.mpr fun _ _ => decide_eq_true not_mem_nil
  rw [deletePropertyFromMap,hnone,hall,map_nil,hlisteners,Function.update_eq_self]

/-- The properties that a call of `DeleteProperty` deletes: the root stays. -/
def Deletes (names other : List String) : Prop := names <+: other ∧ other ≠ []

instance (names other : List String) : Decidable (Deletes names other) := inferInstanceAs (Decidable (_ ∧ _))

theorem deleteRoot_deleted (h : (tree.deletePropertyFromMap ⟨[],tree.made []⟩).ProxiesCount except) :
    (tree.deleteProperty []).ProxiesCount except ∧
      Deleted (Deletes []) (tree.deletePropertyFromMap ⟨[],tree.made []⟩) (tree.deleteProperty []) := by
  have hsnapshot : Snapshot [] tree.root tree.root := fun _ => rfl
  rw [deleteProperty,Property.getSubproperty]
  dsimp only
  cases hroot : tree.root with
  | mk name values subproperties =>
    have hdistinct : tree.root.DistinctNames := h.named.distinct
    rw [hroot] at hdistinct hsnapshot
    obtain ⟨hnodup,hsubs⟩ := namesMeet_mk.mp hdistinct
    have hsnapshot' : Snapshot [] (.mk name values subproperties)
        (tree.deletePropertyFromMap ⟨[],tree.made []⟩).root := hroot.symm ▸ hsnapshot
    obtain ⟨tree',heach,h',hdeleted⟩ := deleteEach_deleted
      (fun sub hsub tree h hsnapshot => deleteFound_deleted sub (cons_ne_nil _ _) h (hsubs sub hsub) hsnapshot)
      h hnodup fun sub hsub => hsnapshot'.sub hnodup hsub
    rw [deleteFound,heach]
    dsimp only
    rw [deleteInTree,if_pos rfl]
    refine ⟨h',⟨fun other hgone => ?_,fun other hnot => ?_,hdeleted.entries,hdeleted.commands⟩⟩
    · by_cases hbelow : ∃ sub ∈ subproperties, [] ++ [sub.name] <+: other
      · exact hdeleted.missing other hbelow
      · obtain ⟨first,rel,rfl⟩ := exists_cons_of_ne_nil hgone.2
        rw [hdeleted.kept _ hbelow,pointerAt_eq_none]
        exact fun hthere => hbelow (hsnapshot'.below hthere)
    · apply hdeleted.kept
      rintro ⟨sub,-,hbelow⟩
      refine hnot ⟨ nil_prefix,?_⟩
      rintro rfl
      simpa using hbelow.length_le

theorem deleteProperty_deleted (h : tree.ProxiesCount except)
    (hroot : names = [] → ∀ entry ∈ tree.mapProxyChangeListeners, entry.subscription.property.names ≠ []) :
    (tree.deleteProperty names).ProxiesCount except ∧ Deleted (Deletes names) tree (tree.deleteProperty names) := by
  by_cases hnames : names = []
  · subst hnames
    have hunchanged := @deletePropertyFromMap_of_none tree ⟨[],tree.made []⟩ fun entry hentry heq =>
      hroot rfl entry hentry (congrArg PropertyPointer.names heq)
    obtain ⟨hproxies,hdeleted⟩ := @deleteRoot_deleted tree except (hunchanged.symm ▸ h)
    rw [hunchanged] at hdeleted
    exact ⟨hproxies,hdeleted⟩
  · rw [deleteProperty]
    cases hfound : tree.root.getSubproperty names with
    | none =>
      refine ⟨h,⟨fun other hgone => ?_,fun _ _ => rfl,fun _ hentry => hentry,rfl,rfl⟩⟩
      obtain ⟨⟨rel,rfl⟩,-⟩ := hgone
      rw [pointerAt_eq_none,content_below_none (content_eq_none.mpr hfound)]
      exact Bool.false_ne_true
    | some property =>
      obtain ⟨tree',hdelete,h',hdeleted⟩ := deleteFound_deleted property hnames h
        (Property.NamesMeet.getSubproperty h.named.distinct hfound) (snapshot_of_getSubproperty hfound)
      dsimp only
      rw [hdelete]
      refine ⟨h',⟨fun other hgone => hdeleted.missing other hgone.1,fun other hnot => ?_,hdeleted.entries,
        hdeleted.commands⟩⟩
      refine hdeleted.kept other fun hbelow => hnot ⟨hbelow,?_⟩
      rintro rfl
      exact hnames (prefix_nil.mp hbelow)

end ListenedTree
end FepParticipant.PropertyTree
