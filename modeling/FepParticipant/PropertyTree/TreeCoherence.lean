import FepParticipant.PropertyTree.TreeAttachment

/-! Which operations keep property trees coherent: nodes may be created, deleted with all that lies below them, and
attached once, and only nodes without subproperties may be renamed. -/
namespace FepParticipant.PropertyTree
open Library Option String List

namespace PropertyNodes

variable {nodes base : PropertyNodes} {self id child : Nat} {node : PropertyNode}

structure Without (base : PropertyNodes) (roots : List Nat) (nodes nodes' : PropertyNodes) : Prop where
  next : nodes'.next = nodes.next
  gone : ∀ root ∈ roots, ∀ id, Below base.parentOf root id → nodes'.node id = none
  other : ∀ id, (∀ root ∈ roots, ¬Below base.parentOf root id) → nodes'.node id = nodes.node id

theorem foldlM_without {destroy : PropertyNodes → Nat → Option PropertyNodes} (hforest : base.Forest)
    {children : List Nat} (hchildren : ∀ child ∈ children, base.parentOf child = some self) (hnodup : children.Nodup)
    (hdestroy : ∀ child ∈ children, ∀ nodes : PropertyNodes,
      (∀ id, Below base.parentOf child id → nodes.node id = base.node id) →
      ∃ nodes', destroy nodes child = some nodes' ∧ Without base [child] nodes nodes')
    (hagree : ∀ child ∈ children, ∀ id, Below base.parentOf child id → nodes.node id = base.node id) :
    ∃ nodes', children.foldlM destroy nodes = some nodes' ∧ Without base children nodes nodes' := by
  induction children generalizing nodes with
  | nil => exact ⟨nodes,rfl,rfl,by simp,fun _ _ => rfl⟩
  | cons child children ih =>
    have hchild := hchildren child mem_cons_self
    obtain ⟨hnotin,hnodup⟩ := nodup_cons.mp hnodup
    obtain ⟨nodes₁,hfirst,hnext,hgone,hother⟩ := hdestroy child mem_cons_self nodes (hagree child mem_cons_self)
    have hapart (sibling : Nat) (hmem : sibling ∈ children) {id : Nat} (hid : Below base.parentOf sibling id) :
        ¬Below base.parentOf child id := fun hid' =>
      hnotin (hforest.grounded.siblings hchild (hchildren sibling (mem_cons_of_mem _ hmem)) hid' hid ▸ hmem)
    obtain ⟨nodes₂,hrest,hnext₂,hgone₂,hother₂⟩ := ih
      (fun sibling hmem => hchildren sibling (mem_cons_of_mem _ hmem)) hnodup
      (fun sibling hmem => hdestroy sibling (mem_cons_of_mem _ hmem)) fun sibling hmem id hid => by
        rw [hother id fun root hroot => mem_singleton.mp hroot ▸ hapart sibling hmem hid]
        exact hagree sibling (mem_cons_of_mem _ hmem) id hid
    refine ⟨nodes₂,?_,hnext₂.trans hnext,fun root hroot id hid => ?_,fun id hid => ?_⟩
    · rw [foldlM_cons,hfirst]
      exact hrest
    · rcases mem_cons.mp hroot with rfl | hroot
      · rw [hother₂ id fun sibling hmem hsibling => hapart sibling hmem hsibling hid]
        exact hgone root (mem_singleton_self _) id hid
      · exact hgone₂ root hroot id hid
    · rw [hother₂ id fun root hroot => hid root (mem_cons_of_mem _ hroot),hother id fun root hroot =>
        mem_singleton.mp hroot ▸ hid child mem_cons_self]

theorem destroy_without (hforest : base.Forest) {fuel : Nat} (hnode : base.node self = some node)
    (hfuel : (belowIn (Finset.range base.next) base.parentOf self).card ≤ fuel)
    (hagree : ∀ id, Below base.parentOf self id → nodes.node id = base.node id) :
    ∃ nodes', destroy fuel nodes self = some nodes' ∧ Without base [self] nodes nodes' := by
  induction fuel generalizing self node nodes with
  | zero =>
    have hmem := self_mem_belowIn base.parentOf (Finset.mem_range.mpr (hforest.fresh hnode))
    rw [Finset.card_eq_zero.mp (Nat.le_zero.mp hfuel)] at hmem
    cases hmem
  | succ fuel ih =>
    have hchildren : ∀ child ∈ node.lstSubproperties, base.parentOf child = some self := fun child hmem =>
      hforest.listed hnode hmem
    obtain ⟨nodes₁,hloop,hnext,hgone,hother⟩ := foldlM_without hforest hchildren (hforest.nodup hnode)
      (fun child hmem nodes hagree => by
        obtain ⟨sub,hsub,-⟩ := exists_of_parentOf (hchildren child hmem)
        have hlt := card_belowIn_child hforest.grounded (Finset.mem_range.mpr (hforest.fresh hnode))
          (hchildren child hmem)
        exact ih hsub (by omega) hagree)
      fun child hmem id hid => hagree id ((Below.child (hchildren child hmem)).trans hid)
    refine ⟨nodes₁.remove self,?_,hnext,fun root hroot id hid => ?_,fun id hid => ?_⟩
    · rw [destroy,hagree self .refl,hnode]
      simp only [bind_eq_bind,bind_some,hloop]
      rfl
    · obtain rfl := mem_singleton.mp hroot
      rw [remove]
      dsimp only
      split
      · rfl
      · rename_i hne
        rcases hid.head with rfl | ⟨child,hchild,hid⟩
        · exact absurd rfl hne
        · obtain ⟨up,hup,hmem⟩ := hforest.child hchild
          obtain rfl := some.inj (hnode.symm.trans hup)
          exact hgone child hmem id hid
    · have hid := hid self (mem_singleton_self _)
      have hne : id ≠ self := fun h => hid (by rw [h]; exact .refl)
      rw [remove]
      dsimp only
      rw [if_neg hne]
      exact hother id fun child hmem hchild => hid ((Below.child (hchildren child hmem)).trans hchild)

structure Deleted (nodes : PropertyNodes) (parent child : Nat) (nodes' : PropertyNodes) : Prop where
  next : nodes'.next = nodes.next
  gone {id : Nat} : Below nodes.parentOf child id → nodes'.node id = none
  kept {id : Nat} : ¬Below nodes.parentOf child id → nodes'.node id = (nodes.node id).map fun node =>
    { node with
      lstSubproperties := if id = parent then node.lstSubproperties.erase child else node.lstSubproperties }

namespace Deleted

variable {nodes' : PropertyNodes} {new : PropertyNode}

section
variable (h : Deleted nodes self child nodes')
include h

theorem back (hnew : nodes'.node id = some new) :
    ¬Below nodes.parentOf child id ∧ ∃ old, nodes.node id = some old ∧ new = { old with
      lstSubproperties := if id = self then old.lstSubproperties.erase child else old.lstSubproperties } := by
  by_cases hid : Below nodes.parentOf child id
  · rw [h.gone hid] at hnew
    cases hnew
  · rw [h.kept hid] at hnew
    obtain ⟨old,hold,heq⟩ := map_eq_some_iff.mp hnew
    exact ⟨hid,old,hold,heq.symm⟩

theorem parentOf (hid : ¬Below nodes.parentOf child id) : nodes'.parentOf id = nodes.parentOf id := by
  rw [PropertyNodes.parentOf,PropertyNodes.parentOf,h.kept hid]
  cases nodes.node id <;> rfl

private theorem pathOf (hid : ¬Below nodes.parentOf child id) : nodes'.pathOf id = nodes.pathOf id := by
  rw [PropertyNodes.pathOf,PropertyNodes.pathOf,h.kept hid]
  cases nodes.node id <;> rfl

private theorem of_parentOf {parent : Nat} (hparent : nodes'.parentOf id = some parent) :
    ¬Below nodes.parentOf child id ∧ nodes.parentOf id = some parent := by
  obtain ⟨new,hnew,-⟩ := exists_of_parentOf hparent
  obtain ⟨hid,-⟩ := h.back hnew
  exact ⟨hid,(h.parentOf hid).symm.trans hparent⟩

theorem coherent (hcoherent : nodes.Coherent) (hchild : nodes.parentOf child = some self) : nodes'.Coherent := by
  have hforest := hcoherent.forest
  -- what is left lies below no child of a deleted node
  have hup {id parent : Nat} (hid : ¬Below nodes.parentOf child id) (hparent : nodes.parentOf id = some parent) :
      ¬Below nodes.parentOf child parent := fun hbelow => hid (hbelow.step hparent)
  refine ⟨⟨fun hnew => ?_,fun hnew hmem => ?_,fun hparent => ?_,fun hnew => ?_,?_⟩,fun id new hnew => ?_⟩
  · obtain ⟨-,old,hold,-⟩ := h.back hnew
    rw [h.next]
    exact hforest.fresh hold
  · rename_i id other new
    obtain ⟨hid,old,hold,rfl⟩ := h.back hnew
    have hkept : other ∈ old.lstSubproperties ∧ other ≠ child := by
      split at hmem
      · exact (List.Nodup.mem_erase_iff (hforest.nodup hold)).mp hmem |>.symm
      · rename_i hne
        refine ⟨hmem,?_⟩
        rintro rfl
        exact hne (some.inj ((hforest.listed hold hmem).symm.trans hchild))
    have hother := hforest.listed hold hkept.1
    rw [h.parentOf fun hbelow => hid (hbelow.parent_below hkept.2 hother)]
    exact hother
  · rename_i id parent
    obtain ⟨hid,hparent⟩ := h.of_parentOf hparent
    obtain ⟨up,hup',hmem⟩ := hforest.child hparent
    refine ⟨_,by rw [h.kept (hup hid hparent),hup']; rfl,?_⟩
    split
    · refine (List.Nodup.mem_erase_iff (hforest.nodup hup')).mpr ⟨?_,hmem⟩
      rintro rfl
      exact hid .refl
    · exact hmem
  · obtain ⟨-,old,hold,rfl⟩ := h.back hnew
    split
    · exact (hforest.nodup hold).erase _
    · exact @Forest.nodup nodes hforest _ old hold
  · exact hforest.grounded.mono fun id parent hparent => (h.of_parentOf hparent).2
  · obtain ⟨hid,old,hold,rfl⟩ := h.back hnew
    rw [h.pathOf hid,hcoherent.path id old hold]
    cases hpo : old.poParent with
    | none => rfl
    | some parent =>
      dsimp only
      rw [h.pathOf (hup hid ((parentOf_eq hold).trans hpo))]

end

end Deleted

theorem coherent_deleteListed (h : nodes.Coherent) (hnode : nodes.node self = some node)
    (hmem : child ∈ node.lstSubproperties) :
    ∃ nodes' result, nodes.deleteListed (nodes.next + 1) self child = some (nodes',result) ∧ nodes'.Coherent := by
  have hchild := h.forest.listed hnode hmem
  obtain ⟨sub,hsub,-⟩ := exists_of_parentOf hchild
  obtain ⟨nodes₁,hdestroy,hnext,hgone,hother⟩ := @destroy_without nodes nodes child sub h.forest
    (nodes.next + 1) hsub (Nat.le_trans (card_belowIn_le ..) (by rw [Finset.card_range]; exact Nat.le_succ _))
    fun _ _ => rfl
  have hself : ¬Below nodes.parentOf child self := h.forest.grounded.not_below hchild
  refine ⟨nodes₁.modify self fun node => {node with lstSubproperties := node.lstSubproperties.erase child},
    .errNoError,by rw [deleteListed,hdestroy]; rfl,Deleted.coherent ⟨hnext,fun hid => ?_,fun hid => ?_⟩ h hchild⟩
  · rename_i id
    have hne : id ≠ self := fun heq => hself (heq ▸ hid)
    rw [node_modify_of_ne hne]
    exact hgone child (mem_singleton_self _) id hid
  · rename_i id
    have hid' := hother id fun root hroot => by
      rw [mem_singleton.mp hroot]
      exact hid
    rw [modify]
    dsimp only
    by_cases hne : id = self
    · subst hne
      rw [if_pos rfl,hid']
      simp
    · rw [if_neg hne,hid']
      cases nodes.node id <;> simp [hne]

variable {nodes' : PropertyNodes} {parent : Nat}

/-- The pieces of a path contain no points and give the path when they are joined. -/
structure Splits (split : String → List String) : Prop where
  joined (path : String) : joinPieces (split path) = path
  points (path : String) : ∀ piece ∈ split path, '.' ∉ piece.toList

theorem joinPieces_append (pieces : List String) (last : String) :
    joinPieces (pieces ++ [last]) = if pieces = [] then last else joinPieces pieces ++ "." ++ last := by
  cases pieces with
  | nil => rfl
  | cons piece pieces => simp [joinPieces,foldl_append]

private theorem point_mem (before after : String) : '.' ∈ (before ++ "." ++ after).toList := by
  simp [toList_append]

private theorem append_point_inj {before before' after after' : List Char} (hafter : '.' ∉ after)
    (hafter' : '.' ∉ after') (h : before ++ '.' :: after = before' ++ '.' :: after') : before = before' := by
  rcases append_eq_append_iff.mp h with ⟨more,rfl,hmore⟩ | ⟨more,rfl,hmore⟩
  · cases more with
    | nil => rw [append_nil]
    | cons c more =>
      rw [(List.cons.inj hmore).2] at hafter
      simp at hafter
  · cases more with
    | nil => rw [append_nil]
    | cons c more =>
      rw [(List.cons.inj hmore).2] at hafter'
      simp at hafter'

variable {split : String → List String}

theorem joinPieces_dropLast (hsplit : Splits split) (parentPath : String)
    {old : String} (hold : '.' ∉ old.toList) (new : String) :
    joinPieces ((split (joinPath parentPath old)).dropLast ++ [new]) = joinPath parentPath new := by
  have hjoined := hsplit.joined (joinPath parentPath old)
  have hpoints := hsplit.points (joinPath parentPath old)
  generalize split (joinPath parentPath old) = pieces at hjoined hpoints ⊢
  rcases eq_nil_or_concat pieces with rfl | ⟨front,last,rfl⟩
  · by_cases hempty : parentPath = ""
    · rw [joinPath,if_pos hempty]
      rfl
    · rw [joinPath,if_neg hempty] at hjoined
      have hpoint := point_mem parentPath old
      rw [← hjoined] at hpoint
      cases hpoint
  · rw [concat_eq_append] at hjoined hpoints ⊢
    have hlast := hpoints last (by simp)
    rw [joinPieces_append] at hjoined
    rw [dropLast_concat,joinPieces_append]
    by_cases hempty : parentPath = ""
    · rw [joinPath,if_pos hempty] at hjoined ⊢
      by_cases hfront : front = []
      · rw [if_pos hfront]
      · rw [if_neg hfront] at hjoined
        exact absurd (hjoined ▸ point_mem _ _) hold
    · rw [joinPath,if_neg hempty] at hjoined ⊢
      by_cases hfront : front = []
      · rw [if_pos hfront] at hjoined
        exact absurd (hjoined ▸ point_mem _ _) hlast
      · rw [if_neg hfront] at hjoined ⊢
        have hchars := congrArg String.toList hjoined
        simp only [toList_append,List.append_assoc] at hchars
        rw [toList_injective (append_point_inj hlast hold hchars)]

theorem setName_renamed (h : nodes.Coherent) (hsplit : Splits split)
    (hnode : nodes.node self = some node) (hold : '.' ∉ node.strName.toList) (name : String) :
    joinPieces ((split node.strPath).dropLast ++ [name]) = match node.poParent with
      | none => name
      | some parent => joinPath (nodes.pathOf parent) name := by
  have hright := h.path self node hnode
  have hpath : nodes.pathOf self = node.strPath := by
    rw [pathOf,hnode]
    rfl
  rw [hpath] at hright
  cases hpo : node.poParent with
  | none =>
    rw [hpo] at hright
    have hempty (name : String) : joinPath "" name = name := if_pos rfl
    have hpieces := joinPieces_dropLast hsplit "" hold name
    rwa [hempty,hempty,← show node.strPath = node.strName from hright] at hpieces
  | some parent =>
    rw [hpo] at hright
    rw [hright]
    exact joinPieces_dropLast hsplit _ hold name

theorem coherent_rename (h : nodes.Coherent) (hnode : nodes.node self = some node)
    (hleaf : node.lstSubproperties = []) {name path : String} (hpath : path = match node.poParent with
      | none => name
      | some parent => joinPath (nodes.pathOf parent) name) (hnext : nodes'.next = nodes.next)
    (hself : nodes'.node self = some {node with strName := name, strPath := path})
    (hother : ∀ id, id ≠ self → nodes'.node id = nodes.node id) : nodes'.Coherent := by
  have hshape : nodes'.shape = nodes.shape := by
    funext id
    by_cases hid : id = self
    · subst hid
      rw [shape,shape,hself,hnode]
      rfl
    · rw [shape,shape,hother id hid]
  -- nobody has the renamed node as parent
  have hnotParent {id parent : Nat} (hparent : nodes.parentOf id = some parent) : parent ≠ self := by
    rintro rfl
    obtain ⟨up,hup,hmem⟩ := h.forest.child hparent
    obtain rfl := some.inj (hnode.symm.trans hup)
    rw [hleaf] at hmem
    cases hmem
  have hpathOf {id : Nat} (hid : id ≠ self) : nodes'.pathOf id = nodes.pathOf id := by
    rw [pathOf,pathOf,hother id hid]
  refine ⟨h.forest.of_shape hnext hshape,fun id new hnew => ?_⟩
  by_cases hid : id = self
  · subst hid
    obtain rfl := some.inj (hself.symm.trans hnew)
    rw [pathOf,hself,map_some,getD_some,hpath]
    cases hpo : node.poParent with
    | none => rfl
    | some parent =>
      dsimp only
      rw [hpathOf (hnotParent ((parentOf_eq hnode).trans hpo))]
  · rw [hother id hid] at hnew
    rw [hpathOf hid,h.path id new hnew]
    cases hpo : new.poParent with
    | none => rfl
    | some parent =>
      dsimp only
      rw [hpathOf (hnotParent ((parentOf_eq hnew).trans hpo))]

private theorem modify_eq_self {f : PropertyNode → PropertyNode} (hnode : nodes.node self = some node)
    (hf : f node = node) : nodes.modify self f = nodes := by
  obtain ⟨lookup,next⟩ := nodes
  simp only [modify,PropertyNodes.mk.injEq,and_true]
  funext id
  by_cases hid : id = self
  · subst hid
    rw [if_pos rfl,show lookup id = some node from hnode,map_some,hf]
  · rw [if_neg hid]

/-- `SetName` is right for a node whose old name has no point, if it has no subproperties or the name
stays. -/
theorem coherent_setName (h : nodes.Coherent) (hsplit : Splits split)
    (hnode : nodes.node self = some node) (hold : '.' ∉ node.strName.toList) (name : String)
    (hkept : node.lstSubproperties = [] ∨ name = node.strName) : (nodes.modify self fun node =>
      { node with
        strName := name
        strPath := joinPieces ((split node.strPath).dropLast ++ [name]) }).Coherent := by
  have hpath := setName_renamed h hsplit hnode hold name
  rcases hkept with hleaf | rfl
  · refine coherent_rename h hnode hleaf hpath rfl ?_ fun id hid => if_neg hid
    exact node_modify_self hnode
  · rw [modify_eq_self hnode]
    · exact h
    · have hright := h.path self node hnode
      rw [pathOf,hnode,map_some,getD_some] at hright
      have hsame := hpath.trans hright.symm
      rw [hsame]

/-- Roots with names are attached to nodes not below them, only nodes without subproperties are renamed, and
replaced names contain no point. -/
def Keeps (nodes : PropertyNodes) : PropertyAction → Prop
  | .create strName poParent _ => ∀ parent, poParent = some parent → strName ≠ "" ∧ ∃ up, nodes.node parent = some up
  | .addSubproperty self poSubproperty _ => ∃ node child sub, nodes.node self = some node ∧
    poSubproperty = some child ∧ nodes.node child = some sub ∧
      (sub.strName = "" ∨ child ∈ node.lstSubproperties ∨ sub.poParent = none ∧ ¬Below nodes.parentOf child self)
  | .deleteSubproperty self _ | .deleteNamed self _ => ∃ node, nodes.node self = some node
  | .setParent self poParent _ => ∃ node, nodes.node self = some node ∧
    (node.poParent = poParent ∨ node.poParent = none ∧ node.strName ≠ "" ∧
      ∃ parent up, poParent = some parent ∧ nodes.node parent = some up ∧ ¬Below nodes.parentOf self parent)
  | .setName self strName => ∃ node, nodes.node self = some node ∧ ∀ name, strName = some name →
    name = "" ∧ node.lstSubproperties ≠ [] ∨
      '.' ∉ node.strName.toList ∧ (node.lstSubproperties = [] ∨ name = node.strName)

theorem coherent_call (hsplit : Splits split) (h : nodes.Coherent)
    {action : PropertyAction} (hkeeps : nodes.Keeps action) :
    ∃ nodes' result, nodes.call split action = some (nodes',result) ∧ nodes'.Coherent := by
  cases action with
  | create strName poParent notified => exact coherent_create h strName hkeeps
  | addSubproperty self poSubproperty notified =>
    obtain ⟨node,child,sub,hnode,rfl,hsub,hcases⟩ := hkeeps
    by_cases hname : sub.strName = ""
    · refine ⟨nodes,.errEmpty,?_,h⟩
      simp [call,addSubproperty,hnode,hsub,hname]
    · by_cases hlisted : child ∈ node.lstSubproperties
      · refine ⟨nodes,.errNoError,?_,h⟩
        simp [call,addSubproperty,hnode,hsub,hname,hlisted]
      · obtain ⟨hroot,hbelow⟩ := (hcases.resolve_left hname).resolve_left hlisted
        obtain ⟨nodes',hadd,hcoherent⟩ :=
          @addSubproperty_attached nodes notified self child sub node h.forest hnode hsub
          hroot hbelow (nodes.next + 1) (Nat.le_succ _) hname fun id _ => h.path id
        exact ⟨nodes',notified,hadd,hcoherent⟩
  | deleteSubproperty self poSubproperty =>
    obtain ⟨node,hnode⟩ := hkeeps
    by_cases hlisted : poSubproperty ∈ node.lstSubproperties
    · obtain ⟨nodes',result,hdelete,hcoherent⟩ := coherent_deleteListed h hnode hlisted
      refine ⟨nodes',result,?_,hcoherent⟩
      simp [call,deleteSubproperty,hnode,hlisted,hdelete]
    · refine ⟨nodes,.errNotFound,?_,h⟩
      simp [call,deleteSubproperty,hnode,hlisted]
  | deleteNamed self strName =>
    obtain ⟨node,hnode⟩ := hkeeps
    cases strName with
    | none => exact ⟨nodes,.errPointer,rfl,h⟩
    | some name =>
      cases hfind : node.lstSubproperties.find? (nodes.hasName name) with
      | none =>
        refine ⟨nodes,.errNotFound,?_,h⟩
        simp [call,deleteNamed,hnode,hfind]
      | some child =>
        obtain ⟨nodes',result,hdelete,hcoherent⟩ := coherent_deleteListed h hnode (mem_of_find?_eq_some hfind)
        refine ⟨nodes',result,?_,hcoherent⟩
        simp [call,deleteNamed,hnode,hfind,hdelete]
  | setParent self poParent notified =>
    obtain ⟨node,hnode,rfl | ⟨hroot,hname,parent,up,rfl,hup,hbelow⟩⟩ := hkeeps
    · refine ⟨nodes,.errNoError,?_,h⟩
      rw [call,setParent,hnode]
      simp only [bind_eq_bind,bind_some,takeParent,if_true]
      exact updatePath_coherent h hnode _
    · exact @setParent_attached nodes notified parent self node up h.forest hup hnode hroot hbelow
        (nodes.next + 1) (Nat.le_succ _) hname fun id _ => h.path id
  | setName self strName =>
    obtain ⟨node,hnode,hcases⟩ := hkeeps
    cases strName with
    | none => exact ⟨nodes,.errPointer,rfl,h⟩
    | some name =>
      by_cases hrefused : name = "" ∧ node.lstSubproperties ≠ []
      · refine ⟨nodes,.errEmpty,?_,h⟩
        simp [call,setName,hnode,hrefused.1,hrefused.2]
      · obtain ⟨hold,hkept⟩ := (hcases name rfl).resolve_left hrefused
        refine ⟨_,.errNoError,?_,coherent_setName h hsplit hnode hold name hkept⟩
        simp only [call,setName,hnode,bind_eq_bind,bind_some,if_neg hrefused]
        rfl

/-- The pieces between the points of a text. -/
def splitPoints : List Char → List (List Char)
  | [] => [[]]
  | c::rest =>
    if c = '.' then []::splitPoints rest
    else match splitPoints rest with
      | [] => [[c]]
      | piece::pieces => (c::piece)::pieces

def splitPath (path : String) : List String := (splitPoints path.toList).map String.ofList

private theorem splitPoints_ne_nil (text : List Char) : splitPoints text ≠ [] := by
  cases text with
  | nil => simp [splitPoints]
  | cons c rest =>
    rw [splitPoints]
    split
    · simp
    · split <;> simp

theorem joinPieces_before (before piece : String) (pieces : List String) :
    joinPieces ((before ++ piece)::pieces) = before ++ joinPieces (piece::pieces) := by
  simp only [joinPieces]
  induction pieces generalizing piece with
  | nil => rfl
  | cons next pieces ih =>
    rw [foldl_cons,foldl_cons,String.append_assoc,String.append_assoc,ih,String.append_assoc]

private theorem joinPieces_cons (piece : String) {pieces : List String} (hne : pieces ≠ []) :
    joinPieces (piece::pieces) = piece ++ "." ++ joinPieces pieces := by
  cases pieces with
  | nil => exact absurd rfl hne
  | cons second pieces => exact joinPieces_before (piece ++ ".") second pieces

theorem splitPath_splits : Splits splitPath where
  joined path := by
    have hjoined (text : List Char) : joinPieces ((splitPoints text).map String.ofList) = String.ofList text := by
      induction text with
      | nil => rfl
      | cons c rest ih =>
        rw [splitPoints]
        split
        · rename_i hpoint
          rw [map_cons,joinPieces_cons _ (by simpa using splitPoints_ne_nil rest),ih,hpoint]
          apply toList_injective
          simp [toList_append]
        · cases hpieces : splitPoints rest with
          | nil => exact absurd hpieces (splitPoints_ne_nil rest)
          | cons piece pieces =>
            rw [hpieces,map_cons] at ih
            have hfirst (text : List Char) : String.ofList (c::text) = String.ofList [c] ++ String.ofList text :=
              @ofList_append [c] text
            rw [map_cons,hfirst,joinPieces_before,ih,← hfirst]
    rw [splitPath,hjoined,ofList_toList]
  points path := by
    have hpoints (text : List Char) : ∀ piece ∈ splitPoints text, '.' ∉ piece := by
      induction text with
      | nil => simp [splitPoints]
      | cons c rest ih =>
        rw [splitPoints]
        split
        · simpa using ih
        · rename_i hpoint
          cases hpieces : splitPoints rest with
          | nil => simp [Ne.symm hpoint]
          | cons piece pieces =>
            rw [hpieces] at ih
            rw [forall_mem_cons] at ih ⊢
            refine ⟨fun hmem => ?_,ih.2⟩
            rcases mem_cons.mp hmem with heq | hmem
            · exact hpoint heq.symm
            · exact ih.1 hmem
    intro piece hpiece
    obtain ⟨text,htext,rfl⟩ := mem_map.mp hpiece
    rw [toList_ofList]
    exact hpoints _ text htext

theorem PathFromRoot.unique {path path' : String} (h : PathFromRoot nodes id path)
    (h' : PathFromRoot nodes id path') : path = path' := by
  induction h generalizing path' with
  | root hnode hroot =>
    cases h' with
    | root hnode' => rw [some.inj (hnode.symm.trans hnode')]
    | joined hnode' hparent' =>
      rw [some.inj (hnode.symm.trans hnode'),hparent'] at hroot
      cases hroot
  | joined hnode hparent _ ih =>
    cases h' with
    | root hnode' hroot' =>
      rw [some.inj (hnode.symm.trans hnode'),hroot'] at hparent
      cases hparent
    | joined hnode' hparent' hpath' =>
      obtain rfl := some.inj (hnode.symm.trans hnode')
      obtain rfl := some.inj (hparent.symm.trans hparent')
      rw [ih hpath']

/-- A check for the condition, which looks for a node on the way up from its new parent. -/
def keepsCheck (nodes : PropertyNodes) : PropertyAction → Bool
  | .create strName poParent _ => poParent.all fun parent => strName ≠ "" && (nodes.node parent).isSome
  | .addSubproperty self poSubproperty _ => (nodes.node self).any fun node => poSubproperty.any fun child =>
    (nodes.node child).any fun sub => sub.strName = "" || child ∈ node.lstSubproperties ||
      sub.poParent = none && avoids nodes.parentOf child nodes.next self
  | .deleteSubproperty self _ | .deleteNamed self _ => (nodes.node self).isSome
  | .setParent self poParent _ => (nodes.node self).any fun node => node.poParent = poParent ||
    node.poParent = none && node.strName ≠ "" && poParent.any fun parent => (nodes.node parent).isSome &&
      avoids nodes.parentOf self nodes.next parent
  | .setName self strName => (nodes.node self).any fun node => strName.all fun name =>
    name = "" && node.lstSubproperties ≠ [] || '.' ∉ node.strName.toList &&
      (node.lstSubproperties = [] || name = node.strName)

theorem keeps_of_check {action : PropertyAction} (h : nodes.keepsCheck action = true) : nodes.Keeps action := by
  cases action with
  | create strName poParent notified =>
    rintro parent rfl
    simpa [keepsCheck,isSome_iff_exists] using h
  | addSubproperty self poSubproperty notified =>
    simp only [keepsCheck,Option.any_eq_true,Bool.or_eq_true,Bool.and_eq_true,decide_eq_true_eq] at h
    obtain ⟨node,hnode,child,rfl,sub,hsub,hcases⟩ := h
    refine ⟨node,child,sub,hnode,rfl,hsub,?_⟩
    rcases hcases with (hname | hlisted) | ⟨hroot,havoids⟩
    · exact .inl hname
    · exact .inr (.inl hlisted)
    · exact .inr (.inr ⟨hroot,not_below_of_avoids havoids⟩)
  | deleteSubproperty self poSubproperty => exact Option.isSome_iff_exists.mp h
  | deleteNamed self strName => exact Option.isSome_iff_exists.mp h
  | setParent self poParent notified =>
    simp only [keepsCheck,Option.any_eq_true,Bool.or_eq_true,Bool.and_eq_true,decide_eq_true_eq] at h
    obtain ⟨node,hnode,hsame | ⟨⟨hroot,hname⟩,parent,rfl,hup,havoids⟩⟩ := h
    · exact ⟨node,hnode,.inl hsame⟩
    · obtain ⟨up,hup⟩ := Option.isSome_iff_exists.mp hup
      exact ⟨node,hnode,.inr ⟨hroot,hname,parent,up,rfl,hup,not_below_of_avoids havoids⟩⟩
  | setName self strName =>
    simp only [keepsCheck,Option.any_eq_true,Option.all_eq_true,Bool.or_eq_true,Bool.and_eq_true,
      decide_eq_true_eq] at h
    exact h

/-- The nodes form a forest, and every stored path gives the names from the root. -/
structure TreesCoherent (nodes : PropertyNodes) : Prop where
  forest : nodes.Forest
  path (id : Nat) (node : PropertyNode) : nodes.node id = some node → PathFromRoot nodes id node.strPath

private theorem coherent_empty : empty.Coherent := by
  refine ⟨⟨fun h => ?_,fun h => ?_,fun h => ?_,fun h => ?_,fun _ => 0,fun _ _ h => ?_⟩,fun _ _ h => ?_⟩ <;>
    cases h

theorem coherent_of_reaches (hsplit : Splits split) (hreach : Reaches (step split) Keeps empty nodes) :
    nodes.Coherent :=
  hreach.invariant coherent_empty fun before action after hinv hkeeps hstep => by
    obtain ⟨nodes',result,hcall,hcoherent⟩ := coherent_call hsplit hinv hkeeps
    rw [step,hcall] at hstep
    exact some.inj hstep ▸ hcoherent

/-- In every run of such operations the property trees are coherent and every further such operation returns. -/
theorem trees_stay_coherent {split : String → List String} (hsplit : Splits split)
    (hreach : Reaches (step split) Keeps empty nodes) :
    nodes.TreesCoherent ∧ ∀ action, nodes.Keeps action → ∃ nodes', nodes.step split action = some nodes' := by
  have h := coherent_of_reaches hsplit hreach
  refine ⟨⟨h.forest,fun id node hnode => h.pathFromRoot hnode⟩,fun action hkeeps => ?_⟩
  obtain ⟨nodes',result,hcall,-⟩ := coherent_call hsplit h hkeeps
  exact ⟨nodes',by rw [step,hcall]; rfl⟩

/-- A tree with a camera, a resolution that is attached to it and renamed, and a format that is deleted. -/
def cameraTree : List PropertyAction :=
  [.create "" none .errNoError,.create "camera" (some 0) .errNoError,.create "resolution" none .errNoError,
    .create "format" (some 2) .errNoError,.addSubproperty 1 (some 2) .errNoError]

theorem trees_stay_coherent_renamed_leaf : ∃ nodes : PropertyNodes, Reaches (step splitPath) Keeps empty nodes ∧
      nodes.node 2 = some ⟨some 1,"size","camera.size",[]⟩ ∧ nodes.TreesCoherent := by
  let run := runActions
    (fun nodes action => if keepsCheck nodes action then step splitPath nodes action else none) empty
    (cameraTree ++ [PropertyAction.deleteNamed 2 (some "format"),.setName 2 (some "size")])
  have hrun : run.any (fun nodes => nodes.node 2 == some ⟨some 1,"size","camera.size",[]⟩) = true := by
    decide +kernel
  obtain ⟨nodes,hrun,hsize⟩ := (any_eq_true _ _).mp hrun
  have hreach := reaches_of_checked (fun _ _ => keeps_of_check) hrun
  exact ⟨nodes,hreach,beq_iff_eq.mp hsize,(trees_stay_coherent splitPath_splits hreach).1⟩

/-- A node with a subproperty is renamed, which keeps its old path. -/
theorem renamed_parent_incoherent : ∃ nodes : PropertyNodes,
    Reaches (step splitPath) anyAction empty nodes ∧ ¬nodes.TreesCoherent := by
  obtain ⟨nodes,hreach,hnodes⟩ : ∃ nodes, Reaches (step splitPath) anyAction empty nodes ∧
      nodes.node 0 = some ⟨none,"","",[1]⟩ ∧ nodes.node 1 = some ⟨some 0,"lidar","lidar",[2]⟩ ∧
      nodes.node 2 = some ⟨some 1,"resolution","camera.resolution",[3]⟩ :=
    exists_of_runActions (cameraTree ++ [PropertyAction.setName 1 (some "lidar")]) (by decide +kernel)
  obtain ⟨hroot,hlidar,hresolution⟩ := hnodes
  refine ⟨nodes,hreach,fun h => ?_⟩
  have hnames : PathFromRoot nodes 2 "lidar.resolution" :=
    .joined hresolution rfl (.joined hlidar rfl (.root hroot rfl))
  exact absurd ((h.path 2 _ hresolution).unique hnames) (by decide)

end PropertyNodes
end FepParticipant.PropertyTree
