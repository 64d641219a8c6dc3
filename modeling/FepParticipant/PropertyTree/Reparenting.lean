import FepParticipant.PropertyTree.TreeCoherence

/-! `SetParent` for any two nodes of a forest: when it comes to an end, and when it moves the node with all that lies
below it. -/
namespace FepParticipant.PropertyTree
open Library List Option Nat

namespace PropertyNodes
variable {children : List Nat} {fuel : Nat}

/-- Another subproperty of the new parent has the name of the node. -/
def NameTaken (nodes : PropertyNodes) (self parent : Nat) : Prop :=
  ∃ up, nodes.node parent = some up ∧ ∃ child ∈ up.lstSubproperties, child ≠ self ∧
    (nodes.node child).map (·.strName) = (nodes.node self).map (·.strName)

/-- A node does not get a parent that lies below it, or that has a subproperty of its name. -/
def Refuses (nodes : PropertyNodes) (self parent : Nat) : Prop :=
  Below nodes.parentOf self parent ∨ nodes.NameTaken self parent

/-- A node is in the list of its new parent, once, and in no other; all else stays, and right paths stay right. -/
structure Moved (nodes after : PropertyNodes) (self parent : Nat) : Prop where
  parents : after.parentOf = Function.update nodes.parentOf self (some parent)
  kept (id : Nat) (node : PropertyNode) : nodes.node id = some node → ∃ new, after.node id = some new ∧
    new.strName = node.strName ∧ new.lstSubproperties.erase self = node.lstSubproperties.erase self ∧
    new.lstSubproperties.count self = if id = parent then 1 else 0
  coherent : nodes.Coherent → after.Coherent

/-- `SetParent` comes to an end, and it refuses and changes nothing, or it moves the node. -/
def Reparents (nodes : PropertyNodes) (notified : Result) (self parent : Nat) : Prop :=
  ∃ fuel after result, nodes.setParent notified fuel self (some parent) = some (after,result) ∧
    (nodes.Refuses self parent → isFailed result = true ∧ after = nodes) ∧
    (¬nodes.Refuses self parent → isOk result = true ∧ nodes.Moved after self parent)

variable {nodes middle after : PropertyNodes} {notified result : Result} {self id parent : Nat}
  {node up : PropertyNode} {paths : Nat → String}

/-- A call that only changes stored paths, if it comes to an end. -/
def OnlyPaths (nodes : PropertyNodes) (outcome : Option (PropertyNodes × Result)) : Prop :=
  ∀ after result, outcome = some (after,result) → result = .errNoError ∧ ∃ paths, after = nodes.withPaths paths

theorem onlyPaths_some (paths : Nat → String) : OnlyPaths nodes (some (nodes.withPaths paths,.errNoError)) := by
  intro after result h
  cases h
  exact ⟨rfl,paths,rfl⟩

variable {call : PropertyNodes → Nat → Option (PropertyNodes × Result)}

theorem eachSubproperty_onlyPaths
    {children : List Nat} (hcall : ∀ child ∈ children, ∀ paths, OnlyPaths nodes (call (nodes.withPaths paths) child))
    (paths : Nat → String) : OnlyPaths nodes (eachSubproperty call children (nodes.withPaths paths)) := by
  induction children generalizing paths with
  | nil => exact onlyPaths_some paths
  | cons child children ih =>
    intro after result h
    rw [forall_mem_cons] at hcall
    obtain ⟨⟨middle,first⟩,hfirst,hrest⟩ := bind_eq_some_iff.mp h
    obtain ⟨rfl,paths',rfl⟩ := hcall.1 paths middle first hfirst
    exact ih hcall.2 paths' after result hrest

theorem eachSubproperty_returns {children : List Nat} (hcall : ∀ child ∈ children, ∀ paths, ∃ paths',
      call (nodes.withPaths paths) child = some (nodes.withPaths paths',.errNoError)) (paths : Nat → String) :
    ∃ paths', eachSubproperty call children (nodes.withPaths paths) = some (nodes.withPaths paths',.errNoError) := by
  induction children generalizing paths with
  | nil => exact ⟨paths,rfl⟩
  | cons child children ih =>
    rw [forall_mem_cons] at hcall
    obtain ⟨middle,hfirst⟩ := hcall.1 paths
    obtain ⟨paths',hrest⟩ := ih hcall.2 middle
    refine ⟨paths',?_⟩
    rw [eachSubproperty,hfirst]
    exact hrest

theorem setParent_parent (hnode : nodes.node self = some node) (fuel : Nat) (paths : Nat → String) :
    setParent notified (fuel + 1) (nodes.withPaths paths) self node.poParent =
      updatePath (setParent notified fuel) (nodes.withPaths paths) self node.poParent := by
  rw [setParent,node_withPaths hnode]
  simp only [bind_eq_bind,bind_some,takeParent,if_true]
  rfl

theorem setParent_onlyPaths (hforest : nodes.Forest) (fuel : Nat) (hnode : nodes.node self = some node)
    (paths : Nat → String) : OnlyPaths nodes (setParent notified fuel (nodes.withPaths paths) self node.poParent) := by
  induction fuel generalizing self node paths with
  | zero => nofun
  | succ fuel ih =>
    obtain ⟨path,-,heq⟩ := updatePath_eq (setParent notified fuel) hforest hnode
    rw [setParent_parent hnode,heq]
    split
    · exact onlyPaths_some paths
    · apply eachSubproperty_onlyPaths
      intro child hmem paths
      obtain ⟨sub,hsub,hparent⟩ := exists_of_parentOf (hforest.listed hnode hmem)
      rw [← hparent]
      exact ih hsub paths

theorem setParent_returns (hforest : nodes.Forest) {fuel : Nat} (hnode : nodes.node self = some node)
    (hfuel : (belowIn (Finset.range nodes.next) nodes.parentOf self).card ≤ fuel) (paths : Nat → String) :
    ∃ paths', setParent notified fuel (nodes.withPaths paths) self node.poParent =
      some (nodes.withPaths paths',.errNoError) := by
  induction fuel generalizing self node paths with
  | zero =>
    have hmem := self_mem_belowIn nodes.parentOf (Finset.mem_range.mpr (hforest.fresh hnode))
    rw [Finset.card_eq_zero.mp (Nat.le_zero.mp hfuel)] at hmem
    cases hmem
  | succ fuel ih =>
    obtain ⟨path,-,heq⟩ := updatePath_eq (setParent notified fuel) hforest hnode
    rw [setParent_parent hnode,heq]
    split
    · exact ⟨paths,rfl⟩
    · apply eachSubproperty_returns
      intro child hmem paths
      obtain ⟨sub,hsub,hparent⟩ := exists_of_parentOf (hforest.listed hnode hmem)
      have hlt := card_belowIn_child hforest.grounded (Finset.mem_range.mpr (hforest.fresh hnode))
        (hforest.listed hnode hmem)
      rw [← hparent]
      exact ih hsub (by omega) paths

theorem takeParent_cases {add : PropertyNodes → Nat → Nat → Option (PropertyNodes × Result)}
    {poParent : Option Nat} {outcome : PropertyNodes × Result}
    (h : takeParent add nodes self node poParent = some outcome) :
    node.poParent = poParent ∧ outcome = (nodes,.errNoError) ∨
    node.poParent = none ∧ ∃ parent, poParent = some parent ∧
      add (nodes.modify self fun node => {node with poParent := some parent}) parent self = some outcome := by
  rw [takeParent.eq_def] at h
  by_cases hsame : node.poParent = poParent
  · rw [if_pos hsame] at h
    exact .inl ⟨hsame,(some.inj h).symm⟩
  · rw [if_neg hsame] at h
    cases hroot : node.poParent with
    | some other =>
      simp only [hroot] at h
      cases h
    | none =>
      cases poParent with
      | none => exact absurd hroot hsame
      | some parent =>
        simp only [hroot] at h
        exact .inr ⟨rfl,parent,rfl,h⟩

def KeepsParents (nodes after : PropertyNodes) : Prop :=
  ∀ id parent, nodes.parentOf id = some parent → after.parentOf id = some parent

theorem KeepsParents.trans (h : KeepsParents nodes middle) (k : KeepsParents middle after) :
    KeepsParents nodes after := fun id parent hparent => k id parent (h id parent hparent)

theorem keepsParents_modify {change : PropertyNode → PropertyNode}
    (h : ∀ node, nodes.node self = some node → ∀ parent, node.poParent = some parent →
      (change node).poParent = some parent) : KeepsParents nodes (nodes.modify self change) := by
  intro id parent hparent
  obtain ⟨node,hnode,hpo⟩ := exists_of_parentOf hparent
  rw [parentOf,modify]
  dsimp only
  split
  · rename_i hself
    subst hself
    rw [hnode]
    exact h node hnode parent hpo
  · rw [hnode]
    exact hpo

private theorem eachSubproperty_keeps
    (hcall : ∀ nodes child after result, call nodes child = some (after,result) → KeepsParents nodes after)
    (h : eachSubproperty call children nodes = some (after,result)) : KeepsParents nodes after := by
  induction children generalizing nodes with
  | nil =>
    cases h
    exact fun _ _ hparent => hparent
  | cons child children ih =>
    obtain ⟨⟨middle,first⟩,hfirst,hrest⟩ := bind_eq_some_iff.mp h
    dsimp only at hrest
    split at hrest
    · exact (hcall _ _ _ _ hfirst).trans (ih hrest)
    · cases hrest
      exact hcall _ _ _ _ hfirst

theorem updatePath_keeps {set : PropertyNodes → Nat → Option Nat → Option (PropertyNodes × Result)}
    (hset : ∀ nodes child poParent after result, set nodes child poParent = some (after,result) →
      KeepsParents nodes after) {poParent : Option Nat}
    (h : updatePath set nodes self poParent = some (after,result)) : KeepsParents nodes after := by
  obtain ⟨node,-,h⟩ := bind_eq_some_iff.mp h
  have hend : ∀ path, (if path = node.strPath then some (nodes,.errNoError)
      else eachSubproperty (fun nodes child => set nodes child (some self)) node.lstSubproperties
        (nodes.modify self fun node => {node with strPath := path})) = some (after,result) →
      KeepsParents nodes after := by
    intro path h
    split at h
    · cases h
      exact fun _ _ hparent => hparent
    · refine KeepsParents.trans ?_ (eachSubproperty_keeps (fun _ _ _ _ hcall => hset _ _ _ _ _ hcall) h)
      exact keepsParents_modify fun _ _ _ hpo => hpo
  cases poParent with
  | none => exact hend node.strName h
  | some parent =>
    obtain ⟨path,-,h⟩ := bind_eq_some_iff.mp h
    exact hend path h

theorem calls_keep :
    (∀ nodes self sub after result, addSubproperty notified fuel nodes self sub = some (after,result) →
      KeepsParents nodes after) ∧
    ∀ nodes self poParent after result, setParent notified fuel nodes self poParent = some (after,result) →
      KeepsParents nodes after := by
  induction fuel with
  | zero => exact ⟨nofun,nofun⟩
  | succ fuel ih =>
    obtain ⟨hadd,hset⟩ := ih
    constructor
    · intro nodes self sub after result h
      obtain ⟨node,-,h⟩ := bind_eq_some_iff.mp h
      obtain ⟨subNode,-,h⟩ := bind_eq_some_iff.mp h
      split at h
      · cases h
        exact fun _ _ hparent => hparent
      · split at h
        · cases h
          exact fun _ _ hparent => hparent
        · obtain ⟨⟨middle,first⟩,hfirst,h⟩ := bind_eq_some_iff.mp h
          cases h
          refine KeepsParents.trans ?_ (hset _ _ _ _ _ hfirst)
          exact keepsParents_modify fun _ _ _ hpo => hpo
    · intro nodes self poParent after result h
      obtain ⟨node,hnode,h⟩ := bind_eq_some_iff.mp h
      obtain ⟨⟨middle,first⟩,htake,h⟩ := bind_eq_some_iff.mp h
      have hmiddle : KeepsParents nodes middle := by
        rcases takeParent_cases htake with ⟨-,hsame⟩ | ⟨hroot,parent,-,hadded⟩
        · cases hsame
          exact fun _ _ hparent => hparent
        · refine KeepsParents.trans (keepsParents_modify fun found hfound other hpo => ?_) (hadd _ _ _ _ _ hadded)
          rw [hnode] at hfound
          rw [← some.inj hfound,hroot] at hpo
          cases hpo
      dsimp only at h
      split at h
      · exact hmiddle.trans (updatePath_keeps hset h)
      · cases h
        exact hmiddle

theorem setParent_root (hnode : nodes.node self = some node) (hroot : node.poParent = none)
    (h : setParent notified fuel nodes self (some parent) = some (after,result)) :
    ∃ fuel middle first, addSubproperty notified fuel
        (nodes.modify self fun node => {node with poParent := some parent}) parent self = some (middle,first) ∧
      (isOk result = true → isOk first = true) ∧ after.parentOf self = some parent := by
  cases fuel with
  | zero => cases h
  | succ fuel =>
    obtain ⟨found,hfound,h⟩ := bind_eq_some_iff.mp h
    obtain rfl := some.inj (hnode.symm.trans hfound)
    obtain ⟨⟨middle,first⟩,htake,h⟩ := bind_eq_some_iff.mp h
    have hadd : addSubproperty notified fuel
        (nodes.modify self fun node => {node with poParent := some parent}) parent self = some (middle,first) := by
      rcases takeParent_cases htake with ⟨hsame,-⟩ | ⟨-,other,hother,hadd⟩
      · rw [hroot] at hsame
        cases hsame
      · rw [some.inj hother]
        exact hadd
    have hparent : middle.parentOf self = some parent := by
      refine (calls_keep).1 _ _ _ _ _ hadd self parent ?_
      rw [parentOf_eq (node_modify_self hnode)]
    refine ⟨fuel,middle,first,hadd,?_⟩
    dsimp only at h
    split at h
    · rename_i hok
      exact ⟨fun _ => hok,updatePath_keeps (calls_keep).2 h self parent hparent⟩
    · rename_i hfailed
      cases h
      exact ⟨fun hok => absurd hok hfailed,hparent⟩

theorem addSubproperty_ok (hne : parent ≠ self) (hup : nodes.node parent = some up)
    (hnode : nodes.node self = some node) (hnotin : self ∉ up.lstSubproperties)
    (h : addSubproperty notified fuel (nodes.modify self fun node => {node with poParent := some parent}) parent
      self = some (after,result)) (hok : isOk result = true) : node.strName ≠ "" ∧ isOk notified = true := by
  cases fuel with
  | zero => cases h
  | succ fuel =>
    have hparent := (node_modify_of_ne (f := fun node => {node with poParent := some parent}) hne).trans hup
    have hself := node_modify_self (f := fun node => {node with poParent := some parent}) hnode
    rw [addSubproperty,hparent,hself] at h
    simp only [bind_eq_bind,bind_some,if_neg hnotin] at h
    split at h
    · cases h
      cases hok
    · rename_i hname
      refine ⟨hname,?_⟩
      obtain ⟨⟨middle,first⟩,-,h⟩ := bind_eq_some_iff.mp h
      cases h
      split at hok
      · exact hok
      · cases hok

section
variable (hforest : nodes.Forest)
include hforest

theorem setParent_attaches (hup : nodes.node parent = some up)
    (hnode : nodes.node self = some node) (hroot : node.poParent = none) (hbelow : ¬Below nodes.parentOf self parent)
    (hname : node.strName ≠ "") (hok : isOk notified = true) :
    ∃ paths, setParent notified (nodes.next + 3) nodes self (some parent) =
      some ((nodes.attached parent self).withPaths paths,.errNoError) := by
  have hne : parent ≠ self := fun h => hbelow (h ▸ .refl)
  have hnotin := not_listed_of_root hforest hup hnode hroot
  have hattached := forest_attached hforest hup hnode hroot hbelow
  have hchild : (nodes.attached parent self).node self = _ := node_attached hnode
  have hpo : (if self = self then some parent else node.poParent) = some parent := if_pos rfl
  have hcard : (belowIn (Finset.range nodes.next) (nodes.attached parent self).parentOf self).card ≤ nodes.next := by
    refine le_trans (card_belowIn_le ..) ?_
    rw [Finset.card_range]
  have hreturns {fuel : Nat} (hfuel : nodes.next ≤ fuel) (paths : Nat → String) : ∃ paths',
      setParent notified fuel ((nodes.attached parent self).withPaths paths) self (some parent) =
        some ((nodes.attached parent self).withPaths paths',.errNoError) := by
    rw [← hpo]
    exact setParent_returns hattached hchild (le_trans hcard hfuel) paths
  obtain ⟨paths,hset⟩ := hreturns (le_succ nodes.next) (nodes.attached parent self).pathOf
  rw [withPaths_pathOf] at hset
  have hadd := addSubproperty_pointed hup hnode hname hnotin hne hset
  obtain ⟨paths',hagain⟩ := hreturns (le_add_right nodes.next 3) paths
  have hend : setParent notified (nodes.next + 3) ((nodes.attached parent self).withPaths paths) self
      (if self = self then some parent else node.poParent) =
      updatePath (setParent notified (nodes.next + 2)) ((nodes.attached parent self).withPaths paths) self
        (if self = self then some parent else node.poParent) := setParent_parent hchild (nodes.next + 2) paths
  rw [hpo,hagain] at hend
  refine ⟨paths',?_⟩
  rw [setParent,hnode]
  simp only [bind_eq_bind,bind_some,takeParent,hroot,reduceCtorEq,if_false,hadd,hok,if_true]
  exact hend.symm

theorem count_listed (hnode : nodes.node id = some node) (self : Nat) :
    node.lstSubproperties.count self = if nodes.parentOf self = some id then 1 else 0 := by
  split
  · rename_i hparent
    obtain ⟨found,hfound,hmem⟩ := hforest.child hparent
    obtain rfl := some.inj (hfound.symm.trans hnode)
    exact count_eq_one_of_mem (hforest.nodup hnode) hmem
  · rename_i hother
    exact count_eq_zero_of_not_mem fun hmem => hother (hforest.listed hnode hmem)

theorem moved_attached (hup : nodes.node parent = some up)
    (hnode : nodes.node self = some node) (hroot : node.poParent = none) (hbelow : ¬Below nodes.parentOf self parent)
    (hname : node.strName ≠ "") (hset : setParent notified (nodes.next + 3) nodes self (some parent) =
      some ((nodes.attached parent self).withPaths paths,result)) :
    nodes.Moved ((nodes.attached parent self).withPaths paths) self parent := by
  have hnone : nodes.parentOf self = none := (parentOf_eq hnode).trans hroot
  refine ⟨(parentOf_of_shape shape_withPaths).trans (parentOf_attached hnode),fun id old hold => ?_,fun h => ?_⟩
  · have hcount := count_listed hforest hold self
    rw [hnone,if_neg (some_ne_none id).symm] at hcount
    have hnotin := count_eq_zero.mp hcount
    refine ⟨_,node_withPaths (node_attached hold),rfl,?_,?_⟩
    · dsimp only
      split
      · rw [erase_append_right _ hnotin,erase_of_not_mem hnotin,erase_cons_head,append_nil]
      · rfl
    · dsimp only
      split
      · rw [count_append,hcount,count_singleton_self]
      · exact hcount
  · obtain ⟨coherent,other,hother,hcoherent⟩ :=
      setParent_attached hforest hup hnode hroot hbelow (le_refl nodes.next) hname fun id _ => h.path id
    obtain ⟨rfl,-⟩ := Prod.mk.inj (some.inj (hset.symm.trans hother))
    exact hcoherent

theorem moved_same (hnode : nodes.node self = some node)
    (hparent : node.poParent = some parent) (hset : setParent notified (nodes.next + 1) nodes self node.poParent =
      some (nodes.withPaths paths,result)) : nodes.Moved (nodes.withPaths paths) self parent := by
  have hself : nodes.parentOf self = some parent := (parentOf_eq hnode).trans hparent
  refine ⟨?_,fun id old hold => ⟨_,node_withPaths hold,rfl,rfl,?_⟩,fun h => ?_⟩
  · rw [parentOf_of_shape shape_withPaths,← hself,Function.update_eq_self]
  · dsimp only
    rw [count_listed hforest hold,hself]
    by_cases hid : id = parent
    · rw [if_pos hid,if_pos (congrArg some hid.symm)]
    · rw [if_neg hid,if_neg fun heq => hid (some.inj heq).symm]
  · have hend := @setParent_parent nodes notified self node hnode nodes.next nodes.pathOf
    rw [withPaths_pathOf,hset,updatePath_coherent h hnode] at hend
    obtain ⟨heq,-⟩ := Prod.mk.inj (some.inj hend)
    rw [heq]
    exact h

end

theorem setParent_crashes (hnode : nodes.node self = some node) {other : Nat}
    (hother : node.poParent = some other) (hne : other ≠ parent) :
    setParent notified fuel nodes self (some parent) = none := by
  cases fuel with
  | zero => rfl
  | succ fuel =>
    cases hset : setParent notified (fuel + 1) nodes self (some parent) with
    | none => rfl
    | some outcome =>
      obtain ⟨found,hfound,hset⟩ := bind_eq_some_iff.mp hset
      obtain rfl := some.inj (hnode.symm.trans hfound)
      obtain ⟨middle,htake,-⟩ := bind_eq_some_iff.mp hset
      rcases takeParent_cases htake with ⟨hsame,-⟩ | ⟨hroot,-⟩
      · exact absurd (some.inj (hother.symm.trans hsame)) hne
      · rw [hother] at hroot
        cases hroot

/-- In a forest, `SetParent` refuses or moves a node as it should exactly if no other subproperty of the new parent
has its name, and it has the parent already, or it is a root with a name that the new parent does not lie below, and the
listeners have no error. -/
theorem reparents_iff (hforest : nodes.Forest) (hnode : nodes.node self = some node)
    (hup : nodes.node parent = some up) :
    nodes.Reparents notified self parent ↔ ¬nodes.NameTaken self parent ∧ (node.poParent = some parent ∨
        node.poParent = none ∧ ¬Below nodes.parentOf self parent ∧ node.strName ≠ "" ∧ isOk notified = true) := by
  constructor
  · rintro ⟨fuel,after,result,hset,hrefuses,hmoves⟩
    have hallowed : ¬nodes.Refuses self parent := by
      intro hrefused
      obtain ⟨hfailed,rfl⟩ := hrefuses hrefused
      cases hpo : node.poParent with
      | none =>
        obtain ⟨-,-,-,-,-,hparent⟩ := setParent_root hnode hpo hset
        rw [parentOf_eq hnode,hpo] at hparent
        cases hparent
      | some other =>
        by_cases hsame : other = parent
        · subst hsame
          have honly := @setParent_onlyPaths after notified self node hforest fuel hnode after.pathOf
          rw [withPaths_pathOf,hpo] at honly
          obtain ⟨rfl,-⟩ := honly after result hset
          cases hfailed
        · rw [setParent_crashes hnode hpo hsame] at hset
          cases hset
    refine ⟨fun htaken => hallowed (.inr htaken),?_⟩
    cases hpo : node.poParent with
    | none =>
      have hbelow : ¬Below nodes.parentOf self parent := fun hbelow => hallowed (.inl hbelow)
      have hne : parent ≠ self := fun h => hbelow (h ▸ .refl)
      obtain ⟨_,middle,first,hadd,hok,-⟩ := setParent_root hnode hpo hset
      obtain ⟨hname,hnotified⟩ := addSubproperty_ok hne hup hnode (not_listed_of_root hforest hup hnode hpo) hadd
        (hok (hmoves hallowed).1)
      exact .inr ⟨rfl,hbelow,hname,hnotified⟩
    | some other =>
      by_cases hsame : other = parent
      · exact .inl (congrArg some hsame)
      · rw [setParent_crashes hnode hpo hsame] at hset
        cases hset
  · rintro ⟨htaken,hparent | ⟨hroot,hbelow,hname,hok⟩⟩
    · have hbelow : ¬Below nodes.parentOf self parent := hforest.grounded.not_below ((parentOf_eq hnode).trans hparent)
      have hallowed : ¬nodes.Refuses self parent := fun hrefused => hrefused.elim hbelow htaken
      have hcard : (belowIn (Finset.range nodes.next) nodes.parentOf self).card ≤ nodes.next + 1 := by
        refine le_trans (card_belowIn_le ..) ?_
        rw [Finset.card_range]
        exact le_succ _
      obtain ⟨paths,hset⟩ := @setParent_returns nodes notified self node hforest _ hnode hcard nodes.pathOf
      rw [withPaths_pathOf] at hset
      refine ⟨nodes.next + 1,_,_,hparent ▸ hset,fun hrefused => absurd hrefused hallowed,fun _ => ⟨rfl,?_⟩⟩
      exact moved_same hforest hnode hparent hset
    · have hallowed : ¬nodes.Refuses self parent := fun hrefused => hrefused.elim hbelow htaken
      obtain ⟨paths,hset⟩ := setParent_attaches hforest hup hnode hroot hbelow hname hok
      refine ⟨nodes.next + 3,_,_,hset,fun hrefused => absurd hrefused hallowed,fun _ => ⟨rfl,?_⟩⟩
      exact moved_attached hforest hup hnode hroot hbelow hname hset

theorem camera_and_lidar : ∃ nodes : PropertyNodes, nodes.Forest ∧
    nodes.node 0 = some ⟨none,"camera","camera",[1]⟩ ∧ nodes.node 1 = some ⟨some 0,"format","camera.format",[]⟩ ∧
    nodes.node 2 = some ⟨none,"lidar","lidar",[]⟩ := by
  let run := runActions (fun nodes action => if keepsCheck nodes action then step splitPath nodes action else none)
    empty [.create "camera" none .errNoError,.create "format" (some 0) .errNoError,.create "lidar" none .errNoError]
  have hrun : run.any (fun nodes => nodes.node 0 == some ⟨none,"camera","camera",[1]⟩ &&
      (nodes.node 1 == some ⟨some 0,"format","camera.format",[]⟩ &&
        nodes.node 2 == some ⟨none,"lidar","lidar",[]⟩)) = true := by decide +kernel
  obtain ⟨nodes,hrun,hnodes⟩ := (any_eq_true _ _).mp hrun
  rw [Bool.and_eq_true,Bool.and_eq_true,beq_iff_eq,beq_iff_eq,beq_iff_eq] at hnodes
  exact ⟨nodes,(coherent_of_reaches splitPath_splits (reaches_of_checked (fun _ _ => keeps_of_check) hrun)).forest,
    hnodes⟩

theorem reparents_lidar : ∃ nodes : PropertyNodes, nodes.Forest ∧
    nodes.node 2 = some ⟨none,"lidar","lidar",[]⟩ ∧ nodes.Reparents .errNoError 2 0 := by
  obtain ⟨nodes,hforest,hcamera,hformat,hlidar⟩ := camera_and_lidar
  refine ⟨nodes,hforest,hlidar,(reparents_iff hforest hlidar hcamera).mpr ⟨?_,.inr ⟨rfl,?_,by decide,rfl⟩⟩⟩
  · rintro ⟨up,hup,child,hchild,-,hname⟩
    obtain rfl := some.inj (hcamera.symm.trans hup)
    obtain rfl := mem_singleton.mp hchild
    rw [hformat,hlidar] at hname
    exact absurd hname (by decide)
  · intro hbelow
    rcases hbelow.head with hself | ⟨child,hparent,-⟩
    · cases hself
    · obtain ⟨up,hup,hmem⟩ := hforest.child hparent
      obtain rfl := some.inj (hlidar.symm.trans hup)
      cases hmem

/-- The format of a camera is not moved to a lidar. -/
theorem format_not_reparented : ¬∀ (nodes : PropertyNodes) (notified : Result) (self parent : Nat)
    (node up : PropertyNode), nodes.Forest → nodes.node self = some node → nodes.node parent = some up →
    isOk notified = true → nodes.Reparents notified self parent := by
  intro h
  obtain ⟨nodes,hforest,hcamera,hformat,hlidar⟩ := camera_and_lidar
  obtain ⟨fuel,after,result,hset,-⟩ := h nodes .errNoError 1 2 _ _ hforest hformat hlidar rfl
  rw [setParent_crashes hformat rfl (by decide)] at hset
  cases hset

end PropertyNodes
end FepParticipant.PropertyTree
