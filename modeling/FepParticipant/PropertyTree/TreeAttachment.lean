import FepParticipant.PropertyTree.TreeShape

/-! Coherent property trees, and that they stay coherent when a root is attached to a node that does
not lie below it, and when a node is created. -/
namespace FepParticipant.PropertyTree
open Library List Option Nat Function

namespace PropertyNodes

variable {nodes : PropertyNodes} {paths : Nat → String} {notified : Result} {self id parent child : Nat}
  {node : PropertyNode}

/-- The nodes form a forest and every stored path belongs to the path of the parent. -/
structure Coherent (nodes : PropertyNodes) : Prop where
  forest : nodes.Forest
  path : ∀ id, nodes.RightPath nodes.pathOf id

private theorem coherent_withPaths (hforest : nodes.Forest) (hright : ∀ id, nodes.RightPath paths id) :
    (nodes.withPaths paths).Coherent := by
  have hpath {id : Nat} {node : PropertyNode} (h : nodes.node id = some node) :
      (nodes.withPaths paths).pathOf id = paths id := by
    rw [pathOf,node_withPaths h]
    rfl
  refine ⟨hforest.of_shape rfl shape_withPaths,fun id node h => ?_⟩
  obtain ⟨old,hold,rfl⟩ := map_eq_some_iff.mp h
  rw [hpath hold,hright id old hold]
  cases hpo : old.poParent with
  | none => rfl
  | some parent =>
    obtain ⟨up,hup,-⟩ := hforest.child ((parentOf_eq hold).trans hpo)
    dsimp only
    rw [hpath hup]

theorem coherent_of_updates {paths' : Nat → String} (hforest : nodes.Forest)
    (hrest : ∀ id, id ≠ child → nodes.RightPath paths id) (hupdates : nodes.Updates [child] paths paths') :
    (nodes.withPaths paths').Coherent := by
  refine coherent_withPaths hforest fun id => ?_
  by_cases hid : Below nodes.parentOf child id
  · exact hupdates.right child (mem_singleton_self _) id hid
  · have hstays {other : Nat} (hother : ¬Below nodes.parentOf child other) : paths' other = paths other :=
      hupdates.other other fun root hroot => by
        rw [mem_singleton.mp hroot]
        exact hother
    refine (hrest id fun h => hid (h ▸ .refl)).congr (hstays hid) fun parent hparent => hstays fun hbelow => ?_
    exact hid (hbelow.step hparent)

theorem Coherent.pathFromRoot (h : nodes.Coherent) (hnode : nodes.node id = some node) :
    PathFromRoot nodes id node.strPath := by
  have hpathOf {id : Nat} {node : PropertyNode} (hnode : nodes.node id = some node) :
      nodes.pathOf id = node.strPath := by
    rw [pathOf,hnode]
    rfl
  obtain ⟨depth,hdepth⟩ := h.forest.grounded
  induction hn : depth id using Nat.strong_induction_on generalizing id node with
  | _ n ih =>
    have hright := h.path id node hnode
    rw [hpathOf hnode] at hright
    cases hpo : node.poParent with
    | none =>
      rw [hpo] at hright
      rw [hright]
      exact .root hnode hpo
    | some parent =>
      have hparent := (parentOf_eq hnode).trans hpo
      obtain ⟨up,hup,-⟩ := h.forest.child hparent
      rw [hpo] at hright
      dsimp only at hright
      rw [hright,hpathOf hup]
      exact .joined hnode hpo (ih _ (hn ▸ hdepth id parent hparent) hup rfl)

theorem updatePath_coherent (h : nodes.Coherent) (hnode : nodes.node self = some node)
    (setParent : PropertyNodes → Nat → Option Nat → Option (PropertyNodes × Result)) :
    updatePath setParent nodes self node.poParent = some (nodes,.errNoError) := by
  have hright := h.path self node hnode
  have hpath : nodes.pathOf self = node.strPath := by
    rw [pathOf,hnode]
    rfl
  rw [hpath] at hright
  rw [updatePath,hnode]
  cases hpo : node.poParent with
  | none =>
    rw [hpo] at hright
    simp [hright]
  | some parent =>
    obtain ⟨up,hup,-⟩ := h.forest.child ((parentOf_eq hnode).trans hpo)
    rw [hpo] at hright
    simp only [pathOf,hup,map_some,getD_some] at hright
    simp [hup,hright]

/-- A root in the list of its new parent, with the pointer to it. -/
def attached (nodes : PropertyNodes) (parent child : Nat) : PropertyNodes :=
  { nodes with node := fun id => (nodes.node id).map fun node =>
      { node with
        poParent := if id = child then some parent else node.poParent
        lstSubproperties := if id = parent then node.lstSubproperties ++ [child] else node.lstSubproperties } }

theorem node_attached (h : nodes.node id = some node) : (nodes.attached parent child).node id = some { node with
        poParent := if id = child then some parent else node.poParent
        lstSubproperties := if id = parent then node.lstSubproperties ++ [child] else node.lstSubproperties } := by
  simp [attached,h]

theorem modify_comm {f g : PropertyNode → PropertyNode} (hne : parent ≠ child) :
    (nodes.modify parent f).modify child g = (nodes.modify child g).modify parent f := by
  simp only [modify,PropertyNodes.mk.injEq,and_true]
  funext id
  by_cases hchild : id = child
  · subst hchild
    simp [Ne.symm hne]
  · by_cases hparent : id = parent
    · subst hparent
      simp [hne]
    · simp [hchild,hparent]

theorem modify_list_parent (hne : parent ≠ child) :
    (nodes.modify parent fun node => {node with lstSubproperties := node.lstSubproperties ++ [child]}).modify child
      (fun node => {node with poParent := some parent}) = nodes.attached parent child := by
  simp only [modify,attached,PropertyNodes.mk.injEq,and_true]
  funext id
  by_cases hchild : id = child
  · subst hchild
    cases nodes.node id <;> simp [Ne.symm hne]
  · by_cases hparent : id = parent
    · subst hparent
      cases nodes.node id <;> simp [hne]
    · cases nodes.node id <;> simp [hchild,hparent]

theorem modify_parent_list (hne : parent ≠ child) :
    (nodes.modify child fun node => {node with poParent := some parent}).modify parent
      (fun node => {node with lstSubproperties := node.lstSubproperties ++ [child]}) = nodes.attached parent child :=
  (modify_comm (Ne.symm hne)).trans (modify_list_parent hne)

section
variable {up : PropertyNode} (hforest : nodes.Forest) (hup : nodes.node parent = some up)
  (hchild : nodes.node child = some node) (hroot : node.poParent = none)
  (hbelow : ¬Below nodes.parentOf child parent)
variable {fuel : Nat}

include hchild in
theorem parentOf_attached :
    (nodes.attached parent child).parentOf = Function.update nodes.parentOf child (some parent) := by
  funext id
  by_cases h : id = child
  · subst h
    rw [update_self,parentOf_eq (node_attached hchild)]
    simp
  · rw [update_of_ne h]
    cases hnode : nodes.node id with
    | none => simp [parentOf,attached,hnode]
    | some node =>
      rw [parentOf_eq (node_attached hnode),parentOf_eq hnode]
      simp [h]

include hforest hup hchild hroot hbelow in
theorem forest_attached : (nodes.attached parent child).Forest := by
  have hnone : nodes.parentOf child = none := (parentOf_eq hchild).trans hroot
  have hback {id : Nat} {new : PropertyNode} (h : (nodes.attached parent child).node id = some new) :
      ∃ old, nodes.node id = some old ∧ new.lstSubproperties =
        if id = parent then old.lstSubproperties ++ [child] else old.lstSubproperties := by
    obtain ⟨old,hold,rfl⟩ := map_eq_some_iff.mp h
    exact ⟨old,hold,rfl⟩
  have hnotin {id : Nat} {old : PropertyNode} (hold : nodes.node id = some old) : child ∉ old.lstSubproperties :=
    fun hmem => by rw [hforest.listed hold hmem] at hnone; cases hnone
  have hother {id other : Nat} {old : PropertyNode} (hold : nodes.node id = some old)
      (hmem : other ∈ old.lstSubproperties) : other ≠ child := by
    rintro rfl
    exact hnotin hold hmem
  refine ⟨fun h => ?_,fun h hmem => ?_,fun h => ?_,fun h => ?_,?_⟩
  · obtain ⟨old,hold,-⟩ := hback h
    exact hforest.fresh hold
  · obtain ⟨old,hold,hlist⟩ := hback h
    rw [parentOf_attached hchild]
    rw [hlist] at hmem
    split at hmem
    · rename_i hid
      subst hid
      rcases mem_append.mp hmem with hmem | hmem
      · rw [update_of_ne (hother hold hmem)]
        exact hforest.listed hold hmem
      · rw [mem_singleton.mp hmem,update_self]
    · rw [update_of_ne (hother hold hmem)]
      exact hforest.listed hold hmem
  · rename_i id other
    rw [parentOf_attached hchild] at h
    by_cases hid : id = child
    · subst hid
      rw [update_self] at h
      cases h
      exact ⟨_,node_attached hup,by simp⟩
    · rw [update_of_ne hid] at h
      obtain ⟨old,hold,hmem⟩ := hforest.child h
      refine ⟨_,node_attached hold,?_⟩
      dsimp only
      split
      · exact mem_append_left _ hmem
      · exact hmem
  · obtain ⟨old,hold,hlist⟩ := hback h
    rw [hlist]
    split
    · refine List.nodup_append.mpr ⟨hforest.nodup hold,nodup_singleton _,fun other hmem last hlast => ?_⟩
      rw [mem_singleton.mp hlast]
      exact hother hold hmem
    · exact hforest.nodup hold
  · rw [parentOf_attached hchild]
    exact hforest.grounded.attach hnone hbelow

include hforest hup hchild hroot hbelow in
theorem updatePath_attached {fuel : Nat} (hfuel : nodes.next ≤ fuel)
    (hright : ∀ id, id ≠ child → nodes.RightPath nodes.pathOf id) :
    ∃ paths, updatePath (setParent notified fuel) (nodes.attached parent child) child (some parent) =
      some ((nodes.attached parent child).withPaths paths,.errNoError) ∧
        ((nodes.attached parent child).withPaths paths).Coherent := by
  have hattached := forest_attached hforest hup hchild hroot hbelow
  have hnode : (nodes.attached parent child).node child = _ := node_attached hchild
  have hpathOf : (nodes.attached parent child).pathOf = nodes.pathOf := by
    funext id
    simp only [pathOf,attached]
    cases nodes.node id <;> rfl
  -- only for the child itself the stored path may not belong to the parent
  have hrest (id : Nat) (hid : id ≠ child) : (nodes.attached parent child).RightPath nodes.pathOf id := by
    intro new hnew
    obtain ⟨old,hold,rfl⟩ := map_eq_some_iff.mp hnew
    rw [hright id hid old hold]
    simp [hid]
  have hpo : (if child = child then some parent else node.poParent) = some parent := if_pos rfl
  have hupdate := updatePath_updates (setParent notified fuel) nodes.pathOf hattached hnode
    (fun sub hmem paths hbelow => by
      obtain ⟨subNode,hsub,hparent⟩ := exists_of_parentOf (hattached.listed hnode hmem)
      rw [← hparent]
      refine setParent_same hattached hsub (le_trans (card_belowIn_le ..) ?_) hbelow
      rwa [Finset.card_range])
    fun id _ hid => hrest id hid
  obtain ⟨paths,hcall,hupdates⟩ := hupdate
  rw [← hpathOf,withPaths_pathOf] at hcall
  rw [hpo] at hcall
  exact ⟨_,hcall,coherent_of_updates hattached hrest hupdates⟩

include hforest hup hchild hroot in
theorem not_listed_of_root : child ∉ up.lstSubproperties := fun hmem => by
  have hparent := hforest.listed hup hmem
  rw [parentOf_eq hchild,hroot] at hparent
  cases hparent

include hup hchild in
theorem addSubproperty_pointed {after : PropertyNodes} (hname : node.strName ≠ "")
    (hnotin : child ∉ up.lstSubproperties) (hne : parent ≠ child)
    (hset : setParent notified fuel (nodes.attached parent child) child (some parent) = some (after,.errNoError)) :
    addSubproperty notified (fuel + 1) (nodes.modify child fun node => {node with poParent := some parent}) parent
      child = some (after,notified) := by
  have hparent := (node_modify_of_ne (f := fun node => {node with poParent := some parent}) hne).trans hup
  have hself := node_modify_self (f := fun node => {node with poParent := some parent}) hchild
  rw [addSubproperty,hparent,hself]
  simp only [bind_eq_bind,bind_some,if_neg hname,if_neg hnotin,modify_parent_list hne,hset]
  rfl

include hforest hup hchild hroot hbelow in
theorem addSubproperty_attached {fuel : Nat} (hfuel : nodes.next ≤ fuel) (hname : node.strName ≠ "")
    (hright : ∀ id, id ≠ child → nodes.RightPath nodes.pathOf id) :
    ∃ nodes', addSubproperty notified (fuel + 3) nodes parent child = some (nodes',notified) ∧ nodes'.Coherent := by
  have hne : parent ≠ child := fun h => hbelow (h ▸ .refl)
  have hnotin := not_listed_of_root hforest hup hchild hroot
  have hlisted : (nodes.modify parent fun node =>
      {node with lstSubproperties := node.lstSubproperties ++ [child]}).node child = some node :=
    (node_modify_of_ne (Ne.symm hne)).trans hchild
  obtain ⟨paths,hupdate,hcoherent⟩ := @updatePath_attached nodes notified parent child node up hforest hup hchild
    hroot hbelow (fuel + 1) (le_succ_of_le hfuel) hright
  have hadd : addSubproperty notified (fuel + 1) (nodes.attached parent child) parent child =
      some (nodes.attached parent child,.errNoError) := by
    rw [addSubproperty,node_attached hup,node_attached hchild]
    simp [hname]
  have hset : setParent notified (fuel + 2) (nodes.modify parent fun node =>
      {node with lstSubproperties := node.lstSubproperties ++ [child]}) child (some parent) =
        some ((nodes.attached parent child).withPaths paths,.errNoError) := by
    rw [setParent,hlisted]
    simp only [bind_eq_bind,bind_some,takeParent,hroot,reduceCtorEq,if_false,modify_list_parent hne,hadd,hupdate]
    rfl
  refine ⟨_,?_,hcoherent⟩
  rw [addSubproperty,hup,hchild]
  simp only [bind_eq_bind,bind_some,if_neg hname,if_neg hnotin,hset]
  rfl

include hforest hup hchild hroot hbelow in
theorem setParent_attached {fuel : Nat} (hfuel : nodes.next ≤ fuel) (hname : node.strName ≠ "")
    (hright : ∀ id, id ≠ child → nodes.RightPath nodes.pathOf id) :
    ∃ nodes' result, setParent notified (fuel + 3) nodes child (some parent) = some (nodes',result) ∧
      nodes'.Coherent := by
  have hne : parent ≠ child := fun h => hbelow (h ▸ .refl)
  have hnotin := not_listed_of_root hforest hup hchild hroot
  obtain ⟨paths,hupdate,hcoherent⟩ := @updatePath_attached nodes notified parent child node up hforest hup hchild
    hroot hbelow fuel hfuel hright
  have hset : setParent notified (fuel + 1) (nodes.attached parent child) child (some parent) =
      some ((nodes.attached parent child).withPaths paths,.errNoError) := by
    rw [setParent,node_attached hchild]
    simp only [bind_eq_bind,bind_some,takeParent,if_true,hupdate]
    rfl
  have hadd := addSubproperty_pointed hup hchild hname hnotin hne hset
  have hagain := updatePath_coherent hcoherent (node_withPaths (node_attached hchild)) (setParent notified (fuel + 2))
  rw [if_pos rfl] at hagain
  rw [setParent,hchild]
  simp only [bind_eq_bind,bind_some,takeParent,hroot,reduceCtorEq,if_false,hadd]
  split
  · exact ⟨_,_,hagain,hcoherent⟩
  · exact ⟨_,_,rfl,hcoherent⟩

end

section
variable (h : nodes.Coherent) (strName : String)

theorem node_newNode_next : (nodes.newNode strName).node nodes.next = some ⟨none,strName,"",[]⟩ := if_pos rfl

include h in
theorem node_newNode (hnode : nodes.node id = some node) : (nodes.newNode strName).node id = some node :=
  (if_neg (Nat.ne_of_lt (h.forest.fresh hnode))).trans hnode

theorem newNode_cases {new : PropertyNode} (hnew : (nodes.newNode strName).node id = some new) :
    id = nodes.next ∧ new = ⟨none,strName,"",[]⟩ ∨ nodes.node id = some new := by
  by_cases hid : id = nodes.next
  · subst hid
    exact .inl ⟨rfl,some.inj (hnew.symm.trans (node_newNode_next strName))⟩
  · exact .inr ((if_neg hid).symm.trans hnew)

include h in
private theorem parentOf_newNode : (nodes.newNode strName).parentOf = nodes.parentOf := by
  funext id
  by_cases hid : id = nodes.next
  · subst hid
    have hnone : nodes.node nodes.next = none := by
      by_contra hsome
      obtain ⟨node,hnode⟩ := ne_none_iff_exists'.mp hsome
      exact lt_irrefl _ (h.forest.fresh hnode)
    rw [parentOf_eq (node_newNode_next strName),parentOf,hnone]
    rfl
  · simp [parentOf,newNode,hid]

include h in
theorem forest_newNode : (nodes.newNode strName).Forest := by
  refine ⟨fun hnew => ?_,fun hnew hmem => ?_,fun hparent => ?_,fun hnew => ?_,?_⟩
  · rcases newNode_cases strName hnew with ⟨rfl,-⟩ | hnode
    · exact lt_succ_self _
    · exact lt_succ_of_lt (h.forest.fresh hnode)
  · rw [parentOf_newNode h]
    rcases newNode_cases strName hnew with ⟨-,rfl⟩ | hnode
    · cases hmem
    · exact h.forest.listed hnode hmem
  · rw [parentOf_newNode h] at hparent
    obtain ⟨up,hup,hmem⟩ := h.forest.child hparent
    exact ⟨up,node_newNode h strName hup,hmem⟩
  · rcases newNode_cases strName hnew with ⟨-,rfl⟩ | hnode
    · exact nodup_nil
    · exact h.forest.nodup hnode
  · rw [parentOf_newNode h]
    exact h.forest.grounded

include h in
theorem rightPath_newNode (hid : id ≠ nodes.next) :
    (nodes.newNode strName).RightPath (nodes.newNode strName).pathOf id := by
  have hpathOf {other : Nat} (hother : other ≠ nodes.next) :
      (nodes.newNode strName).pathOf other = nodes.pathOf other := by
    simp [pathOf,newNode,hother]
  intro new hnew
  rcases newNode_cases strName hnew with ⟨hnext,-⟩ | hnode
  · exact absurd hnext hid
  · rw [hpathOf hid,h.path id new hnode]
    cases hpo : new.poParent with
    | none => rfl
    | some parent =>
      obtain ⟨up,hup,-⟩ := h.forest.child ((parentOf_eq hnode).trans hpo)
      dsimp only
      rw [hpathOf (Nat.ne_of_lt (h.forest.fresh hup))]

include h in
private theorem eq_of_below_newNode (hbelow : Below (nodes.newNode strName).parentOf nodes.next id) :
    id = nodes.next := by
  rcases hbelow.head with rfl | ⟨child,hchild,-⟩
  · rfl
  · obtain ⟨up,hup,hmem⟩ := (forest_newNode h strName).child hchild
    obtain rfl := some.inj (hup.symm.trans (node_newNode_next strName))
    cases hmem

include h in
theorem coherent_create {poParent : Option Nat}
    (hparent : ∀ parent, poParent = some parent → strName ≠ "" ∧ ∃ up, nodes.node parent = some up) :
    ∃ nodes' result, nodes.create notified (nodes.next + 4) strName poParent = some (nodes',result) ∧
      nodes'.Coherent := by
  have hforest := forest_newNode h strName
  cases poParent with
  | none =>
    obtain ⟨paths,hset,hupdates⟩ := @setParent_same (nodes.newNode strName) (nodes.newNode strName).pathOf notified
      nodes.next _ hforest (nodes.next + 4) (node_newNode_next strName) (le_trans (card_belowIn_le ..) (by
        rw [Finset.card_range]
        exact Nat.add_le_add_left (by decide) _)) fun id hbelow hne => absurd (eq_of_below_newNode h strName hbelow) hne
    rw [withPaths_pathOf] at hset
    exact ⟨_,_,hset,coherent_of_updates hforest (fun id hid => rightPath_newNode h strName hid) hupdates⟩
  | some parent =>
    obtain ⟨hname,up,hup⟩ := hparent parent rfl
    have hbelow : ¬Below (nodes.newNode strName).parentOf nodes.next parent := fun hbelow =>
      Nat.ne_of_lt (h.forest.fresh hup) (eq_of_below_newNode h strName hbelow)
    exact setParent_attached hforest (node_newNode h strName hup) (node_newNode_next strName) rfl hbelow
      (le_refl _) hname fun id hid => rightPath_newNode h strName hid

end

end PropertyNodes
end FepParticipant.PropertyTree
