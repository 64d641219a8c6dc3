import FepParticipant.PropertyTree.PropertyNodes
import FepParticipant.Library.ParentForest

/-! The shape of property trees, the paths that belong to it, and how `SetParent` brings the stored
paths of all descendants up to date. -/
namespace FepParticipant.PropertyTree
open Library List Option Function

namespace PropertyNodes
variable {nodes' : PropertyNodes}

def parentOf (nodes : PropertyNodes) (id : Nat) : Option Nat := (nodes.node id).bind (·.poParent)

def pathOf (nodes : PropertyNodes) (id : Nat) : String := ((nodes.node id).map (·.strPath)).getD ""

/-- A node is in the list of its parent and in no other one, once, and no node lies below itself. -/
structure Forest (nodes : PropertyNodes) : Prop where
  fresh {id : Nat} {node : PropertyNode} : nodes.node id = some node → id < nodes.next
  listed {id child : Nat} {node : PropertyNode} : nodes.node id = some node → child ∈ node.lstSubproperties →
    nodes.parentOf child = some id
  child {id parent : Nat} : nodes.parentOf id = some parent →
    ∃ node, nodes.node parent = some node ∧ id ∈ node.lstSubproperties
  nodup {id : Nat} {node : PropertyNode} : nodes.node id = some node → node.lstSubproperties.Nodup
  grounded : Grounded nodes.parentOf

def withPaths (nodes : PropertyNodes) (paths : Nat → String) : PropertyNodes :=
  {nodes with node := fun id => (nodes.node id).map fun node => {node with strPath := paths id}}

def RightPath (nodes : PropertyNodes) (paths : Nat → String) (id : Nat) : Prop :=
  ∀ node, nodes.node id = some node →
    paths id = match node.poParent with
      | none => node.strName
      | some parent => joinPath (paths parent) node.strName

/-- The names from the root to a node, with points between them. -/
inductive PathFromRoot (nodes : PropertyNodes) : Nat → String → Prop
  | root {id : Nat} {node : PropertyNode} : nodes.node id = some node → node.poParent = none →
      PathFromRoot nodes id node.strName
  | joined {id parent : Nat} {node : PropertyNode} {path : String} : nodes.node id = some node →
      node.poParent = some parent → PathFromRoot nodes parent path →
      PathFromRoot nodes id (joinPath path node.strName)

variable {nodes : PropertyNodes} {paths paths' : Nat → String} {notified : Result} {self id : Nat}
  {node : PropertyNode}

theorem parentOf_eq (h : nodes.node id = some node) : nodes.parentOf id = node.poParent := by
  rw [parentOf,h]
  rfl

theorem exists_of_parentOf {parent : Nat} (h : nodes.parentOf id = some parent) :
    ∃ node, nodes.node id = some node ∧ node.poParent = some parent := bind_eq_some_iff.mp h

theorem node_withPaths (h : nodes.node id = some node) :
    (nodes.withPaths paths).node id = some {node with strPath := paths id} := by
  simp [withPaths,h]

theorem withPaths_pathOf : nodes.withPaths nodes.pathOf = nodes := by
  obtain ⟨node,next⟩ := nodes
  rw [withPaths,PropertyNodes.mk.injEq]
  refine ⟨?_,rfl⟩
  funext id
  cases h : node id with
  | none => simp [h]
  | some n => simp [pathOf,h]

theorem node_modify_self {f : PropertyNode → PropertyNode} (h : nodes.node self = some node) :
    (nodes.modify self f).node self = some (f node) := by
  rw [modify]
  dsimp only
  rw [if_pos rfl,h,map_some]

theorem node_modify_of_ne {f : PropertyNode → PropertyNode} (hne : id ≠ self) :
    (nodes.modify self f).node id = nodes.node id := by
  rw [modify]
  dsimp only
  rw [if_neg hne]

theorem modify_withPaths (path : String) :
    (nodes.withPaths paths).modify self (fun node => {node with strPath := path}) =
      nodes.withPaths (Function.update paths self path) := by
  rw [modify,withPaths,withPaths,PropertyNodes.mk.injEq]
  refine ⟨?_,rfl⟩
  funext id
  by_cases h : id = self
  · subst h
    simp [comp_def]
  · simp [h]

/-- The parent and the list of a node, which make up the shape of the forest. -/
def shape (nodes : PropertyNodes) (id : Nat) : Option (Option Nat × List Nat) :=
  (nodes.node id).map fun node => (node.poParent,node.lstSubproperties)

private theorem exists_of_shape (hshape : nodes'.shape = nodes.shape)
    (h : nodes'.node id = some node) : ∃ old, nodes.node id = some old ∧ old.poParent = node.poParent ∧
      old.lstSubproperties = node.lstSubproperties := by
  have hid := congrFun hshape id
  rw [shape,shape,h,map_some] at hid
  obtain ⟨old,hold,heq⟩ := map_eq_some_iff.mp hid.symm
  exact ⟨old,hold,congrArg Prod.fst heq,congrArg Prod.snd heq⟩

theorem parentOf_of_shape (hshape : nodes'.shape = nodes.shape) : nodes'.parentOf = nodes.parentOf := by
  funext id
  have hparent (nodes : PropertyNodes) : nodes.parentOf id = (nodes.shape id).bind (·.1) := by
    rw [parentOf,shape,bind_map]
    rfl
  rw [hparent,hparent,hshape]

theorem Forest.of_shape (h : nodes.Forest) (hnext : nodes'.next = nodes.next)
    (hshape : nodes'.shape = nodes.shape) : nodes'.Forest := by
  have hparentOf := parentOf_of_shape hshape
  refine ⟨fun hnode => ?_,fun hnode hmem => ?_,fun hparent => ?_,fun hnode => ?_,?_⟩
  · obtain ⟨old,hold,-⟩ := exists_of_shape hshape hnode
    exact hnext ▸ h.fresh hold
  · obtain ⟨old,hold,-,hlist⟩ := exists_of_shape hshape hnode
    rw [hparentOf]
    exact h.listed hold (hlist ▸ hmem)
  · rw [hparentOf] at hparent
    obtain ⟨up,hup,hmem⟩ := h.child hparent
    obtain ⟨new,hnew,-,hlist⟩ := exists_of_shape hshape.symm hup
    exact ⟨new,hnew,hlist ▸ hmem⟩
  · obtain ⟨old,hold,-,hlist⟩ := exists_of_shape hshape hnode
    exact hlist ▸ h.nodup hold
  · rw [hparentOf]
    exact h.grounded

theorem shape_withPaths : (nodes.withPaths paths).shape = nodes.shape := by
  funext id
  simp only [shape,withPaths]
  cases nodes.node id <;> rfl

theorem RightPath.congr (h : RightPath nodes paths id) (hself : paths' id = paths id)
    (hparent : ∀ parent, nodes.parentOf id = some parent → paths' parent = paths parent) :
    RightPath nodes paths' id := by
  intro node hnode
  rw [hself,h node hnode]
  cases hpo : node.poParent with
  | none => rfl
  | some parent =>
    dsimp only
    rw [hparent parent ((parentOf_eq hnode).trans hpo)]

/-- What a call for a subproperty does to the paths: those below the node get right, all others stay. -/
structure Updates (nodes : PropertyNodes) (roots : List Nat) (paths paths' : Nat → String) : Prop where
  right : ∀ root ∈ roots, ∀ id, Below nodes.parentOf root id → RightPath nodes paths' id
  other : ∀ id, (∀ root ∈ roots, ¬Below nodes.parentOf root id) → paths' id = paths id

theorem eachSubproperty_updates (call : PropertyNodes → Nat → Option (PropertyNodes × Result))
    (hforest : nodes.Forest) {children : List Nat} (hchildren : ∀ child ∈ children, nodes.parentOf child = some self)
    (hnodup : children.Nodup)
    (hcall : ∀ child ∈ children, ∀ paths,
      (∀ id, Below nodes.parentOf child id → id ≠ child → RightPath nodes paths id) →
      ∃ paths', call (nodes.withPaths paths) child = some (nodes.withPaths paths',.errNoError) ∧
        Updates nodes [child] paths paths')
    (hbelow : ∀ child ∈ children, ∀ id, Below nodes.parentOf child id → id ≠ child → RightPath nodes paths id) :
    ∃ paths', eachSubproperty call children (nodes.withPaths paths) = some (nodes.withPaths paths',.errNoError) ∧
      Updates nodes children paths paths' := by
  induction children generalizing paths with
  | nil => exact ⟨paths,rfl,by simp,fun _ _ => rfl⟩
  | cons child children ih =>
    have hchild := hchildren child mem_cons_self
    obtain ⟨hnotin,hnodup⟩ := nodup_cons.mp hnodup
    obtain ⟨paths₁,hfirst,hright,hother⟩ := hcall child mem_cons_self paths (hbelow child mem_cons_self)
    -- the subtrees of the children have no node in common
    have hapart (sibling : Nat) (hmem : sibling ∈ children) {id : Nat} (hid : Below nodes.parentOf sibling id) :
        ¬Below nodes.parentOf child id := fun hid' =>
      hnotin (hforest.grounded.siblings hchild (hchildren sibling (mem_cons_of_mem _ hmem)) hid' hid ▸ hmem)
    have hkept (sibling : Nat) (hmem : sibling ∈ children) {id : Nat} (hid : Below nodes.parentOf sibling id) :
        paths₁ id = paths id := hother id fun root hroot => mem_singleton.mp hroot ▸ hapart sibling hmem hid
    obtain ⟨paths₂,hrest,hright₂,hother₂⟩ := ih (fun sibling hmem => hchildren sibling (mem_cons_of_mem _ hmem))
      hnodup (fun sibling hmem => hcall sibling (mem_cons_of_mem _ hmem)) fun sibling hmem id hid hne =>
        (hbelow sibling (mem_cons_of_mem _ hmem) id hid hne).congr (hkept sibling hmem hid)
          fun parent hparent => hkept sibling hmem (hid.parent_below hne hparent)
    refine ⟨paths₂,?_,fun root hroot id hid => ?_,fun id hid => ?_⟩
    · rw [eachSubproperty,hfirst]
      exact hrest
    · rcases mem_cons.mp hroot with rfl | hroot
      · have hstays {other : Nat} (hbelow : Below nodes.parentOf root other ∨ other = self) :
            paths₂ other = paths₁ other := hother₂ other fun sibling hmem hsibling => by
          rcases hbelow with hbelow | rfl
          · exact hapart sibling hmem hsibling hbelow
          · exact hforest.grounded.not_below (hchildren sibling (mem_cons_of_mem _ hmem)) hsibling
        refine (hright root (mem_singleton_self _) id hid).congr (hstays (.inl hid)) fun parent hparent => hstays ?_
        by_cases hne : id = root
        · subst hne
          exact .inr (some.inj (hparent.symm.trans hchild))
        · exact .inl (hid.parent_below hne hparent)
      · exact hright₂ root hroot id hid
    · rw [hother₂ id fun root hroot => hid root (mem_cons_of_mem _ hroot),hother id fun root hroot =>
        mem_singleton.mp hroot ▸ hid child mem_cons_self]

theorem updatePath_eq (setParent : PropertyNodes → Nat → Option Nat → Option (PropertyNodes × Result))
    (hforest : nodes.Forest) (hnode : nodes.node self = some node) :
    ∃ path, (∀ paths', paths' self = path → (∀ parent, node.poParent = some parent → paths' parent = paths parent) →
        RightPath nodes paths' self) ∧
      updatePath setParent (nodes.withPaths paths) self node.poParent =
        if path = paths self then some (nodes.withPaths paths,.errNoError)
        else eachSubproperty (fun nodes child => setParent nodes child (some self)) node.lstSubproperties
          (nodes.withPaths (Function.update paths self path)) := by
  have hself : (nodes.withPaths paths).node self = _ := node_withPaths hnode
  cases hpo : node.poParent with
  | none =>
    refine ⟨node.strName,fun paths' hpath _ node' hnode' => ?_,?_⟩
    · obtain rfl := some.inj (hnode.symm.trans hnode')
      rw [hpath,hpo]
    · rw [updatePath,hself]
      simp only [bind_eq_bind,bind_some,modify_withPaths]
      rfl
  | some parent =>
    obtain ⟨up,hup,-⟩ := hforest.child ((parentOf_eq hnode).trans hpo)
    refine ⟨joinPath (paths parent) node.strName,fun paths' hpath hparent node' hnode' => ?_,?_⟩
    · obtain rfl := some.inj (hnode.symm.trans hnode')
      rw [hpath,hpo]
      dsimp only
      rw [hparent parent rfl]
    · rw [updatePath,hself]
      simp only [bind_eq_bind,bind_some,node_withPaths hup,map_some,modify_withPaths]
      rfl

/-- The end of `SetParent` brings the paths below a node up to date, if those of its descendants
belong to the path it has had. -/
theorem updatePath_updates (setParent : PropertyNodes → Nat → Option Nat → Option (PropertyNodes × Result))
    (paths : Nat → String) (hforest : nodes.Forest) (hnode : nodes.node self = some node)
    (hcall : ∀ child ∈ node.lstSubproperties, ∀ paths,
      (∀ id, Below nodes.parentOf child id → id ≠ child → RightPath nodes paths id) →
      ∃ paths', setParent (nodes.withPaths paths) child (some self) = some (nodes.withPaths paths',.errNoError) ∧
        Updates nodes [child] paths paths')
    (hbelow : ∀ id, Below nodes.parentOf self id → id ≠ self → RightPath nodes paths id) :
    ∃ paths', updatePath setParent (nodes.withPaths paths) self node.poParent =
        some (nodes.withPaths paths',.errNoError) ∧ Updates nodes [self] paths paths' := by
  obtain ⟨path,hpath,heq⟩ := updatePath_eq setParent hforest hnode
  have hnotSelf (parent : Nat) (hparent : node.poParent = some parent) : parent ≠ self := fun h =>
    hforest.grounded.not_below ((parentOf_eq hnode).trans hparent) (h ▸ .refl)
  have hchildren : ∀ child ∈ node.lstSubproperties, nodes.parentOf child = some self := fun child hmem =>
    hforest.listed hnode hmem
  rw [heq]
  split
  · rename_i hsame
    refine ⟨paths,rfl,fun root hroot id hid => ?_,fun _ _ => rfl⟩
    obtain rfl := mem_singleton.mp hroot
    by_cases hne : id = root
    · exact hne ▸ hpath paths hsame.symm fun _ _ => rfl
    · exact hbelow id hid hne
  · -- below a child nothing but the path of this node has changed
    have hstrict : ∀ child ∈ node.lstSubproperties, ∀ id, Below nodes.parentOf child id → id ≠ child →
        RightPath nodes (Function.update paths self path) id := fun child hmem id hid hne => by
      have hnot {other : Nat} (hother : Below nodes.parentOf child other) : other ≠ self := fun h =>
        hforest.grounded.not_below (hchildren child hmem) (h ▸ hother)
      refine (hbelow id ((Below.child (hchildren child hmem)).trans hid) (hnot hid)).congr
        (update_of_ne (hnot hid) ..) fun parent hparent =>
          update_of_ne (hnot (hid.parent_below hne hparent)) ..
    obtain ⟨paths',hloop,hright,hother⟩ := eachSubproperty_updates
      (fun nodes child => setParent nodes child (some self)) hforest hchildren (hforest.nodup hnode) hcall hstrict
    have hstays {id : Nat} (hid : ¬Below nodes.parentOf self id ∨ id = self) :
        paths' id = Function.update paths self path id := hother id fun child hmem hchild => by
      rcases hid with hid | rfl
      · exact hid ((Below.child (hchildren child hmem)).trans hchild)
      · exact hforest.grounded.not_below (hchildren child hmem) hchild
    refine ⟨paths',hloop,fun root hroot id hid => ?_,fun id hid => ?_⟩
    · obtain rfl := mem_singleton.mp hroot
      rcases hid.head with rfl | ⟨child,hchild,hid⟩
      · refine hpath paths' ((hstays (.inr rfl)).trans (update_self ..)) fun parent hparent => ?_
        rw [hstays (.inl (hforest.grounded.not_below ((parentOf_eq hnode).trans hparent))),
          update_of_ne (hnotSelf parent hparent)]
      · obtain ⟨up,hup,hmem⟩ := hforest.child hchild
        obtain rfl := some.inj (hnode.symm.trans hup)
        exact hright child hmem id hid
    · have hid := hid self (mem_singleton_self _)
      have hne : id ≠ self := fun h => hid (by rw [h]; exact .refl)
      rw [hstays (.inl hid),update_of_ne hne]

theorem setParent_same (hforest : nodes.Forest) {fuel : Nat} (hnode : nodes.node self = some node)
    (hfuel : (belowIn (Finset.range nodes.next) nodes.parentOf self).card ≤ fuel)
    (hbelow : ∀ id, Below nodes.parentOf self id → id ≠ self → RightPath nodes paths id) :
    ∃ paths', setParent notified fuel (nodes.withPaths paths) self node.poParent =
        some (nodes.withPaths paths',.errNoError) ∧ Updates nodes [self] paths paths' := by
  induction fuel generalizing self node paths with
  | zero =>
    have hmem := self_mem_belowIn nodes.parentOf (Finset.mem_range.mpr (hforest.fresh hnode))
    rw [Finset.card_eq_zero.mp (Nat.le_zero.mp hfuel)] at hmem
    cases hmem
  | succ fuel ih =>
    have hcall : ∀ child ∈ node.lstSubproperties, ∀ paths,
        (∀ id, Below nodes.parentOf child id → id ≠ child → RightPath nodes paths id) →
        ∃ paths', setParent notified fuel (nodes.withPaths paths) child (some self) =
          some (nodes.withPaths paths',.errNoError) ∧ Updates nodes [child] paths paths' := by
      intro child hmem paths hbelow
      obtain ⟨sub,hsub,hparent⟩ := exists_of_parentOf (hforest.listed hnode hmem)
      have hlt := card_belowIn_child hforest.grounded (Finset.mem_range.mpr (hforest.fresh hnode))
        (hforest.listed hnode hmem)
      rw [← hparent]
      exact ih hsub (by omega) hbelow
    obtain ⟨paths',hupdate,hupdates⟩ := updatePath_updates (setParent notified fuel) paths hforest hnode hcall hbelow
    refine ⟨paths',?_,hupdates⟩
    rw [setParent,node_withPaths hnode]
    simp only [bind_eq_bind,bind_some,takeParent,if_true]
    exact hupdate

end PropertyNodes
end FepParticipant.PropertyTree
