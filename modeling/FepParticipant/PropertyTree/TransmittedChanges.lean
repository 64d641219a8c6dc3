import FepParticipant.PropertyTree.MirroredTree

/-! The notifications of a call as events of the tree below a path. -/
namespace FepParticipant.PropertyTree
open Library List Option Property

namespace PropertyChange

/-- What the notification says about the property at a path. -/
def toEvent (change : PropertyChange) (names : List String) : TreeEvent String Values :=
  match change.event with
  | .change => .put names change.values
  | .new => .add names.dropLast (names.getLastD "") change.values
  | .delete => .drop names

def within (remotePath : List String) (change : PropertyChange) : Option (TreeEvent String Values) :=
  if remotePath <+: change.names then some (change.toEvent (change.names.drop remotePath.length)) else none

end PropertyChange

open TreeEvent PropertyChange

variable {remotePath names rel path : List String} {changes : List PropertyChange} {change : PropertyChange}
  {proxies : List (List String)} {root sub property : Property} {content : List String → Option Values}
  {values : Values} {above : Nat}

theorem within_append (h : change.names = remotePath ++ rel) :
    change.within remotePath = some (change.toEvent rel) := by
  rw [within,h,if_pos (prefix_append _ _),drop_left]

theorem toEvent_below (root rel : List String) (hrel : change.event = .new → rel ≠ []) :
    change.toEvent (root ++ rel) = (change.toEvent rel).below root := by
  unfold toEvent TreeEvent.below
  cases hevent : change.event with
  | new =>
    have hne := hrel hevent
    rw [dropLast_append_of_ne_nil hne,getLastD_eq_getLast?,getLastD_eq_getLast?,getLast?_append_of_ne_nil _ hne]
  | delete => rfl
  | change => rfl

theorem filterMap_transmitted_other (h : ¬remotePath <+: change.names) :
    (transmitted proxies change).filterMap (within remotePath) = [] := by
  rw [transmitted,filterMap_replicate,within,if_neg h]

theorem applyAll_transmitted (hproxy : remotePath ∈ proxies) (h : change.names = remotePath ++ rel) :
    applyAll content ((transmitted proxies change).filterMap (within remotePath)) =
      TreeEvent.apply content (change.toEvent rel) := by
  have hcount : 0 < proxies.countP (· <+: change.names) := by
    rw [countP_pos_iff]
    exact ⟨remotePath,hproxy,by simp [h]⟩
  obtain ⟨count,hsucc⟩ := Nat.exists_eq_succ_of_ne_zero (ne_of_gt hcount)
  rw [transmitted,hsucc,filterMap_replicate_of_some (within_append h)]
  exact applyAll_replicate count

private theorem filterMap_deletions (h : ∀ change ∈ changes, change.event = .delete) :
    changes.filterMap (within remotePath) =
      ((changes.filter fun change => remotePath <+: change.names).map fun change =>
        change.names.drop remotePath.length).map .drop := by
  induction changes with
  | nil => rfl
  | cons change changes ih =>
    rw [forall_mem_cons] at h
    by_cases hbelow : remotePath <+: change.names
    · have hevent : change.toEvent (change.names.drop remotePath.length) =
          drop (change.names.drop remotePath.length) := by
        rw [toEvent,h.1]
      rw [filterMap_cons_some (by rw [within,if_pos hbelow,hevent]),filter_cons_of_pos (by simpa using hbelow),
        map_cons,map_cons,ih h.2]
    · rw [filterMap_cons_none (by rw [within,if_neg hbelow]),filter_cons_of_neg (by simpa using hbelow),ih h.2]

/-- A deletion seen from a path: a property below it is told there, and the path itself is told if it is there,
below the property. -/
theorem applyAll_deletions (honly : ∀ change ∈ changes, change.event = .delete ∧ names <+: change.names)
    (htold : remotePath <+: names → ∃ change ∈ changes, change.names = names)
    (habove : names <+: remotePath → (content remotePath).isSome = true → ∃ change ∈ changes, change.names = remotePath)
    (hempty : content remotePath = none → contentBelow remotePath content = fun _ => none) :
    applyAll (contentBelow remotePath content) (changes.filterMap (within remotePath)) =
      contentBelow remotePath (TreeEvent.apply content (drop names)) := by
  rw [filterMap_deletions fun change hchange => (honly change hchange).1]
  by_cases hbelow : remotePath <+: names
  · obtain ⟨rel,rfl⟩ := hbelow
    obtain ⟨change,hchange,hnames⟩ := htold (prefix_append _ _)
    refine Eq.trans (applyAll_drops rel ?_ ?_) (contentBelow_apply content remotePath (drop rel)).symm
    · intro path hpath
      obtain ⟨other,hother,rfl⟩ := mem_map.mp hpath
      obtain ⟨rest,hrest⟩ := (honly other (mem_filter.mp hother).1).2
      rw [← hrest,append_assoc,drop_left]
      exact prefix_append _ _
    · refine mem_map.mpr ⟨change,mem_filter.mpr ⟨hchange,?_⟩,?_⟩
      · rw [hnames]
        exact decide_eq_true (prefix_append _ _)
      · rw [hnames,drop_left]
  · by_cases hfront : names <+: remotePath
    · rw [contentBelow_drop_above hfront]
      cases hthere : content remotePath with
      | none =>
        rw [hempty hthere]
        exact applyAll_none _
      | some values =>
        obtain ⟨change,hchange,hnames⟩ := habove hfront (by rw [hthere]; rfl)
        refine (applyAll_drops [] (fun _ _ => nil_prefix) ?_).trans ?_
        · refine mem_map.mpr ⟨change,mem_filter.mpr ⟨hchange,?_⟩,?_⟩
          · rw [hnames]
            exact decide_eq_true prefix_rfl
          · rw [hnames,drop_length]
        · funext rel
          simp [TreeEvent.apply]
    · rw [filter_eq_nil_iff.mpr,contentBelow_drop_other hbelow hfront]
      · rfl
      · intro change hchange hbelow'
        rcases prefix_or_prefix_of_prefix (of_decide_eq_true hbelow') (honly change hchange).2 with hfirst | hsecond
        · exact hbelow hfirst
        · exact hfront hsecond

namespace Property

theorem mem_nodesAtEach {entry : List String × Values} {properties : List Property} :
    entry ∈ nodesAtEach names properties ↔
      ∃ property ∈ properties, entry ∈ nodesAt (names ++ [property.name]) property := by
  induction properties with
  | nil => simp [nodesAtEach]
  | cons property properties ih =>
    rw [nodesAtEach,mem_append,ih]
    simp

theorem exists_of_mem_nodesAt {entry : List String × Values} (h : entry ∈ property.nodesAt names) :
    ∃ rel, entry.1 = names ++ rel ∧ (property.ProperNames → ∀ name ∈ rel, ProperName name) := by
  induction property using Property.induction generalizing names with
  | mk name values subproperties ih =>
    rcases mem_cons.mp h with rfl | hbelow
    · exact ⟨[],(append_nil _).symm,fun _ => nofun⟩
    · obtain ⟨sub,hsub,hentry⟩ := mem_nodesAtEach.mp hbelow
      obtain ⟨rel,hrel,hproper⟩ := ih sub hsub hentry
      refine ⟨sub.name::rel,by rw [hrel,append_assoc]; rfl,?_⟩
      intro hnames
      obtain ⟨hown,hbelow⟩ := namesMeet_mk.mp hnames
      exact forall_mem_cons.mpr ⟨hown _ (mem_map_of_mem hsub),hproper (hbelow sub hsub)⟩

theorem mem_nodesAt (h : getSubproperty rel property = some sub) :
    (names ++ rel,sub.values) ∈ property.nodesAt names := by
  induction rel generalizing names property with
  | nil =>
    obtain rfl := some.inj h
    cases property
    rw [append_nil]
    exact mem_cons_self
  | cons name rel ih =>
    obtain ⟨next,hnext,hrest⟩ := bind_eq_some_iff.mp h
    have hname : next.name = name := by simpa using find?_some hnext
    have hmem := @ih (names ++ [name]) _ hrest
    rw [append_assoc] at hmem
    cases property
    refine mem_cons_of_mem _ (mem_nodesAtEach.mpr ⟨next,mem_of_find?_eq_some hnext,?_⟩)
    rw [hname]
    exact hmem

end Property

theorem mem_transmitted {other : PropertyChange} : other ∈ transmitted proxies change ↔
    (∃ proxy ∈ proxies, proxy <+: change.names) ∧ other = change := by
  rw [transmitted,mem_replicate,← pos_iff_ne_zero,countP_pos_iff]
  simp

theorem mem_destroyed : change ∈ destroyed proxies names property ↔
    change.event = .delete ∧ (change.names,change.values) ∈ property.nodesAt names ∧
      ∃ proxy ∈ proxies, proxy <+: change.names := by
  simp only [destroyed,mem_flatMap,mem_transmitted]
  constructor
  · rintro ⟨⟨path,values⟩,hentry,hproxy,rfl⟩
    exact ⟨rfl,hentry,hproxy⟩
  · rintro ⟨hevent,hentry,hproxy⟩
    refine ⟨_,hentry,hproxy,?_⟩
    cases change
    cases hevent
    rfl

private theorem mem_deletedEach {properties : List Property} : change ∈ deletedEach proxies above names properties ↔
    ∃ property ∈ properties, change ∈ deletedFromMap proxies above (names ++ [property.name]) property := by
  induction properties with
  | nil => simp [deletedEach]
  | cons property properties ih =>
    rw [deletedEach,mem_append,ih]
    simp

theorem mem_deletedFromMap : change ∈ deletedFromMap proxies above names property ↔
    change.event = .delete ∧ (change.names,change.values) ∈ property.nodesAt names ∧
      (change.names ∈ proxies ∨ above ≠ 0) := by
  induction property using Property.induction generalizing names with
  | mk name values subproperties ih =>
    have hown : (change ∈ List.replicate (proxies.count names) ⟨.delete,names,values⟩ ∨
        change ∈ List.replicate above ⟨.delete,names,values⟩) ↔
          change.event = .delete ∧ (change.names,change.values) = (names,values) ∧
            (change.names ∈ proxies ∨ above ≠ 0) := by
      have hthere : proxies.count names ≠ 0 ↔ names ∈ proxies := by
        rw [ne_eq,count_eq_zero,not_not]
      rw [mem_replicate,mem_replicate,hthere,← or_and_right]
      constructor
      · rintro ⟨hcount,rfl⟩
        exact ⟨rfl,rfl,hcount⟩
      · rintro ⟨hevent,hentry,hcount⟩
        cases change
        cases hevent
        cases hentry
        exact ⟨hcount,rfl⟩
    rw [deletedFromMap,Property.nodesAt,mem_append,mem_append,or_right_comm,hown,mem_deletedEach,
      mem_cons,mem_nodesAtEach]
    constructor
    · rintro (⟨hevent,hentry,hproxy⟩ | ⟨sub,hsub,hchange⟩)
      · exact ⟨hevent,.inl hentry,hproxy⟩
      · obtain ⟨hevent,hentry,hproxy⟩ := (ih sub hsub).mp hchange
        exact ⟨hevent,.inr ⟨sub,hsub,hentry⟩,hproxy⟩
    · rintro ⟨hevent,hentry | ⟨sub,hsub,hentry⟩,hproxy⟩
      · exact .inl ⟨hevent,hentry,hproxy⟩
      · exact .inr ⟨sub,hsub,(ih sub hsub).mpr ⟨hevent,hentry,hproxy⟩⟩

namespace Property

theorem contentBelow_of_missing (h : root.content remotePath = none) :
    contentBelow remotePath root.content = fun _ => none := by
  funext rel
  exact content_below_none h rel

theorem isSome_content_above (hfound : getSubproperty names root = some property) (hfront : path <+: names) :
    (root.content path).isSome = true := by
  obtain ⟨rel,rfl⟩ := hfront
  cases hpath : root.content path with
  | some values => rfl
  | none =>
    have hnone := content_eq_none.mp (content_below_none hpath rel)
    rw [hfound] at hnone
    cases hnone

theorem apply_put_same (hfound : getSubproperty names root = some property) :
    TreeEvent.apply root.content (put names property.values) = root.content := by
  funext other
  refine ite_eq_right_iff.mpr ?_
  rintro ⟨rfl,-⟩
  rw [content,hfound]
  rfl

theorem apply_drop_missing (hmissing : getSubproperty names root = none) :
    TreeEvent.apply root.content (drop names) = root.content := by
  funext other
  refine ite_eq_right_iff.mpr ?_
  rintro ⟨rel,rfl⟩
  exact (content_below_none (content_eq_none.mpr hmissing) rel).symm

end Property

namespace TreeOperation

variable {value : Variant} {strName : String}
variable {operation : TreeOperation}

theorem applyAll_toldOfSetValue (hfound : root.getSubproperty names = some property)
    (hregistered : (root.content remotePath).isSome = true → remotePath ∈ proxies)
    (hnotifies : remotePath <+: names → SetNotifies (some property) value) :
    applyAll (contentBelow remotePath root.content)
        ((toldOfSetValue proxies names value property).filterMap (within remotePath)) =
      contentBelow remotePath (TreeEvent.apply root.content (put names (property.values.setValue value))) := by
  rw [toldOfSetValue]
  by_cases hbelow : remotePath <+: names
  · have hproxy := hregistered (isSome_content_above hfound hbelow)
    have hset := hnotifies hbelow property rfl
    obtain ⟨rel,rfl⟩ := hbelow
    split
    · exact (applyAll_transmitted hproxy rfl).trans (contentBelow_apply root.content remotePath (put rel _)).symm
    · rename_i hsilent
      rw [hset.resolve_left hsilent,apply_put_same hfound]
      rfl
  · rw [contentBelow_put_other hbelow]
    split
    · rw [filterMap_transmitted_other hbelow]
      rfl
    · rfl

theorem appendValue_cases :
    (values.appendValue value).1 = .errNoError ∨ values.appendValue value = (.errInvalidType,values) := by
  cases values <;> cases value <;> simp [Values.appendValue]

section
variable (hfound : root.getSubproperty names = some property)
include hfound

section
variable (hregistered : (root.content remotePath).isSome = true → remotePath ∈ proxies)
include hregistered

theorem applyAll_toldOfSetSubproperty
    (hnotifies : remotePath <+: names ++ [strName] → SetNotifies (root.getSubproperty (names ++ [strName])) value)
    (hadded : names ++ [strName] = remotePath → (root.getSubproperty remotePath).isSome = true) :
    applyAll (contentBelow remotePath root.content)
        (((setSubproperty names strName value).told proxies root).filterMap (within remotePath)) =
      contentBelow remotePath ((setSubproperty names strName value).apply root).content := by
  have hplace := getSubproperty_child hfound strName
  rw [told,apply,hfound]
  dsimp only
  cases hsub : property.findSubproperty strName with
  | some sub =>
    rw [hsub] at hplace
    rw [content_setSubproperty_of_some hfound hsub]
    exact applyAll_toldOfSetValue hplace hregistered fun hbelow => hplace ▸ hnotifies hbelow
  | none =>
    by_cases hname : strName = ""
    · subst hname
      rw [if_pos rfl,content_setSubproperty_unnamed hfound hsub]
      rfl
    · rw [if_neg hname,content_setSubproperty hname]
      by_cases hbelow : remotePath <+: names ++ [strName]
      · have hnew : names ++ [strName] ≠ remotePath := by
          intro hsame
          have hthere := hadded hsame
          rw [← hsame,hplace,hsub] at hthere
          cases hthere
        rcases prefix_concat_iff.mp hbelow with hsame | hparent
        · exact absurd hsame.symm hnew
        · have hproxy := hregistered (isSome_content_above hfound hparent)
          obtain ⟨rel,rfl⟩ := hparent
          refine (applyAll_transmitted hproxy (append_assoc ..)).trans ?_
          rw [toEvent,dropLast_concat,getLastD_concat]
          exact (contentBelow_apply root.content remotePath (add rel strName _)).symm
      · rw [contentBelow_add_other hbelow,filterMap_transmitted_other hbelow]
        rfl

/-- Deletions of all the properties that a condition holds for: it holds at the mirrored property and above it. -/
theorem applyAll_deleted {changes : List PropertyChange} (told : List String → Prop)
    (hmem : ∀ {change}, change ∈ changes ↔
      change.event = .delete ∧ (change.names,change.values) ∈ property.nodesAt names ∧ told change.names)
    (htold : remotePath ∈ proxies → told remotePath ∧ (remotePath <+: names → told names)) :
    applyAll (contentBelow remotePath root.content) (changes.filterMap (within remotePath)) =
      contentBelow remotePath (TreeEvent.apply root.content (drop names)) := by
  apply applyAll_deletions
  · intro change hchange
    obtain ⟨hevent,hentry,-⟩ := hmem.mp hchange
    obtain ⟨rel,hrel,-⟩ := exists_of_mem_nodesAt hentry
    exact ⟨hevent,rel,hrel.symm⟩
  · intro hbelow
    have hproxy := hregistered (isSome_content_above hfound hbelow)
    have hentry : (names ++ [],property.values) ∈ property.nodesAt names := mem_nodesAt rfl
    rw [append_nil] at hentry
    exact ⟨⟨.delete,names,property.values⟩,hmem.mpr ⟨rfl,hentry,(htold hproxy).2 hbelow⟩,rfl⟩
  · rintro ⟨rel,rfl⟩ hthere
    have hproxy := hregistered hthere
    rw [content_append,hfound,bind_some,Property.content,isSome_map] at hthere
    obtain ⟨sub,hsub⟩ := isSome_iff_exists.mp hthere
    exact ⟨⟨.delete,_,sub.values⟩,hmem.mpr ⟨rfl,mem_nodesAt hsub,(htold hproxy).1⟩,rfl⟩
  · exact contentBelow_of_missing

private theorem applyAll_destroyed :
    applyAll (contentBelow remotePath root.content) ((destroyed proxies names property).filterMap (within remotePath)) =
      contentBelow remotePath (TreeEvent.apply root.content (drop names)) :=
  applyAll_deleted hfound hregistered (∃ proxy ∈ proxies, proxy <+: ·) mem_destroyed fun hproxy =>
    ⟨⟨remotePath,hproxy,prefix_rfl⟩,fun hbelow => ⟨remotePath,hproxy,hbelow⟩⟩

private theorem applyAll_deletedFromMap : applyAll (contentBelow remotePath root.content) ((deletedFromMap proxies
        (proxies.countP fun path => path <+: names ∧ path ≠ names) names property).filterMap (within remotePath)) =
      contentBelow remotePath (TreeEvent.apply root.content (drop names)) := by
  refine applyAll_deleted hfound hregistered (fun path => path ∈ proxies ∨ _) mem_deletedFromMap fun hproxy =>
    ⟨.inl hproxy,fun hbelow => ?_⟩
  by_cases hsame : remotePath = names
  · exact .inl (hsame ▸ hproxy)
  · refine .inr (ne_of_gt (countP_pos_iff.mpr ⟨remotePath,hproxy,?_⟩))
    exact decide_eq_true ⟨hbelow,hsame⟩

end

end

theorem applyAll_told (hdistinct : root.DistinctNames)
    (hregistered : (root.content remotePath).isSome = true → remotePath ∈ proxies)
    (hfollowed : operation.Followed remotePath root) :
    applyAll (contentBelow remotePath root.content) ((operation.told proxies root).filterMap (within remotePath)) =
      contentBelow remotePath (operation.apply root).content := by
  cases operation with
  | setValue names value =>
    rw [told,apply]
    cases hfound : root.getSubproperty names with
    | none =>
      rw [content_updateValues_none _ hfound]
      rfl
    | some property =>
      rw [content_updateValues _ hfound]
      exact applyAll_toldOfSetValue hfound hregistered fun hbelow => hfound ▸ hfollowed hbelow
  | appendValue names value =>
    rw [told,apply]
    cases hfound : root.getSubproperty names with
    | none =>
      rw [content_updateValues_none _ hfound]
      rfl
    | some property =>
      rw [content_updateValues _ hfound]
      rcases appendValue_cases with hok | hrefused
      · dsimp only
        rw [show property.values.appendValue value = (.errNoError,(property.values.appendValue value).2) from
          Prod.ext hok rfl]
        by_cases hbelow : remotePath <+: names
        · have hproxy := hregistered (isSome_content_above hfound hbelow)
          obtain ⟨rel,rfl⟩ := hbelow
          exact (applyAll_transmitted hproxy rfl).trans (contentBelow_apply root.content remotePath (put rel _)).symm
        · rw [contentBelow_put_other hbelow]
          rw [filterMap_transmitted_other hbelow]
          rfl
      · dsimp only
        rw [hrefused,apply_put_same hfound]
        rfl
  | setSubproperty names strName value =>
    obtain ⟨-,hnotifies,hadded⟩ := hfollowed
    cases hfound : root.getSubproperty names with
    | none =>
      rw [told,apply,hfound,content_updateAt_none (name_setSubproperty strName value) hfound]
      rfl
    | some property => exact applyAll_toldOfSetSubproperty hfound hregistered hnotifies hadded
  | deleteSubproperty names strName =>
    rw [told,apply,content_deleteSubproperty hdistinct]
    cases hfound : root.getSubproperty (names ++ [strName]) with
    | none =>
      rw [apply_drop_missing hfound]
      rfl
    | some property => exact applyAll_destroyed hfound hregistered
  | deleteProperty names =>
    rw [told,apply]
    have hdrop : contentBelow remotePath (root.deleteProperty names).content =
        contentBelow remotePath (TreeEvent.apply root.content (drop names)) := by
      by_cases hroot : names = []
      · rw [contentBelow_drop_above (hroot ▸ nil_prefix)]
        funext rel
        rw [contentBelow,hroot]
        exact content_deleteProperty_nil fun hnil => hfollowed hroot (append_eq_nil_iff.mp hnil).1
      · rw [content_deleteProperty hdistinct hroot]
    rw [hdrop]
    cases hfound : root.getSubproperty names with
    | none =>
      rw [apply_drop_missing hfound]
      rfl
    | some property => exact applyAll_deletedFromMap hfound hregistered

theorem distinctNames_apply (h : root.DistinctNames) : (operation.apply root).DistinctNames := by
  cases operation with
  | setValue names value => exact Property.NamesMeet.setValues h names fun property => property.values.setValue value
  | appendValue names value =>
    exact Property.NamesMeet.setValues h names fun property => (property.values.appendValue value).2
  | setSubproperty names strName value => exact Property.DistinctNames.setSubproperty h names strName value
  | deleteSubproperty names strName =>
    exact Property.NamesMeet.deleteSubproperty h (fun _ _ hless hall => hall.sublist hless) names strName
  | deleteProperty names =>
    exact Property.NamesMeet.deleteProperty h nodup_nil (fun _ _ hless hall => hall.sublist hless) names

theorem properNames_apply (h : root.ProperNames)
    (hfollowed : operation.Followed remotePath root) : (operation.apply root).ProperNames := by
  have hless : ∀ less all : List String, less.Sublist all → (∀ name ∈ all, ProperName name) →
      ∀ name ∈ less, ProperName name := fun _ _ hless hall name hname => hall name (hless.subset hname)
  cases operation with
  | setValue names value => exact Property.NamesMeet.setValues h names fun property => property.values.setValue value
  | appendValue names value =>
    exact Property.NamesMeet.setValues h names fun property => (property.values.appendValue value).2
  | setSubproperty names strName value => exact Property.ProperNames.setSubproperty h names hfollowed.1 value
  | deleteSubproperty names strName => exact Property.NamesMeet.deleteSubproperty h hless names strName
  | deleteProperty names => exact Property.NamesMeet.deleteProperty h nofun hless names

theorem isSome_of_put (h : (TreeEvent.apply content (put names values) path).isSome = true) :
    (content path).isSome = true := by
  rw [TreeEvent.apply] at h
  dsimp only at h
  split at h
  · rename_i hput
    rw [hput.1]
    exact hput.2
  · exact h

private theorem isSome_of_drop (h : (TreeEvent.apply content (drop names) path).isSome = true) :
    (content path).isSome = true ∧ ¬names <+: path := by
  rw [TreeEvent.apply] at h
  dsimp only at h
  split at h
  · cases h
  · rename_i hkept
    exact ⟨h,hkept⟩

private theorem isSome_of_updateValues (newValues : Property → Values)
    (h : ((root.updateAt names fun property => property.setValues (newValues property)).content path).isSome = true) :
    (root.content path).isSome = true := by
  cases hfound : root.getSubproperty names with
  | none =>
    rw [content_updateValues_none _ hfound] at h
    exact h
  | some property =>
    rw [content_updateValues _ hfound] at h
    exact isSome_of_put h

theorem registered_apply (hdistinct : root.DistinctNames)
    (hregistered : (root.content remotePath).isSome = true → remotePath ∈ proxies)
    (hfollowed : operation.Followed remotePath root)
    (hthere : ((operation.apply root).content remotePath).isSome = true) :
    remotePath ∈ operation.proxiesAfter proxies := by
  cases operation with
  | setValue names value => exact hregistered (isSome_of_updateValues _ hthere)
  | appendValue names value => exact hregistered (isSome_of_updateValues _ hthere)
  | setSubproperty names strName value =>
    apply hregistered
    rw [apply] at hthere
    by_cases hname : strName = ""
    · subst hname
      cases hfound : root.getSubproperty names with
      | none =>
        rw [content_updateAt_none (name_setSubproperty "" value) hfound] at hthere
        exact hthere
      | some property =>
        cases hsub : property.findSubproperty "" with
        | none =>
          rw [content_setSubproperty_unnamed hfound hsub] at hthere
          exact hthere
        | some sub =>
          rw [content_setSubproperty_of_some hfound hsub] at hthere
          exact isSome_of_put hthere
    · rw [content_setSubproperty hname,TreeEvent.apply] at hthere
      dsimp only at hthere
      split at hthere
      · rename_i hadded
        obtain ⟨property,hproperty⟩ := isSome_iff_exists.mp (hfollowed.2.2 hadded.1.symm)
        exact isSome_content_above hproperty prefix_rfl
      · exact hthere
  | deleteSubproperty names strName =>
    rw [apply,content_deleteSubproperty hdistinct] at hthere
    obtain ⟨hbefore,hkept⟩ := isSome_of_drop hthere
    exact mem_filter.mpr ⟨hregistered hbefore,decide_eq_true hkept⟩
  | deleteProperty names =>
    rw [apply] at hthere
    by_cases hroot : names = []
    · subst hroot
      rw [content_deleteProperty_nil (hfollowed rfl)] at hthere
      cases hthere
    · rw [content_deleteProperty hdistinct hroot] at hthere
      obtain ⟨hbefore,hkept⟩ := isSome_of_drop hthere
      exact mem_filter.mpr ⟨hregistered hbefore,decide_eq_true hkept⟩

end TreeOperation

/-- A notification about a property whose names can stand in a path; a new one is not the one at the path. -/
structure PropertyChange.Proper (remotePath : List String) (change : PropertyChange) : Prop where
  names : ∀ name ∈ change.names, ProperName name
  new : change.event = .new → change.names ≠ [] ∧ change.names ≠ remotePath

theorem Property.properNames_of_getSubproperty (h : root.ProperNames)
    (hfound : getSubproperty names root = some property) : ∀ name ∈ names, ProperName name := by
  induction names generalizing root with
  | nil => nofun
  | cons name names ih =>
    obtain ⟨next,hnext,hrest⟩ := bind_eq_some_iff.mp hfound
    obtain ⟨hown,hbelow⟩ := namesMeet_iff.mp h
    have hmem := mem_of_find?_eq_some hnext
    have hname : next.name = name := by simpa using find?_some hnext
    exact forall_mem_cons.mpr ⟨hname ▸ hown _ (mem_map_of_mem hmem),ih (hbelow next hmem) hrest⟩

namespace TreeOperation

variable {strName : String} {value : Variant}

private theorem proper_of_told_setValue (hnames : ∀ name ∈ names, ProperName name)
    (h : change ∈ toldOfSetValue proxies names value property) : change.Proper remotePath := by
  rw [toldOfSetValue] at h
  split at h
  · obtain rfl := (mem_transmitted.mp h).2
    exact ⟨hnames,nofun⟩
  · cases h

private theorem proper_of_deleted (hproper : root.ProperNames) (hfound : root.getSubproperty names = some property)
    (hevent : change.event = .delete) (hentry : (change.names,change.values) ∈ property.nodesAt names) :
    change.Proper remotePath := by
  obtain ⟨rel,hrel,hbelow⟩ := exists_of_mem_nodesAt hentry
  refine ⟨?_,fun hnew => by rw [hevent] at hnew; cases hnew⟩
  rw [show change.names = names ++ rel from hrel]
  intro name hname
  rcases mem_append.mp hname with hfront | hback
  · exact properNames_of_getSubproperty hproper hfound name hfront
  · exact hbelow (Property.NamesMeet.getSubproperty hproper hfound) name hback

theorem proper_told (hproper : root.ProperNames) {operation : TreeOperation}
    (hfollowed : operation.Followed remotePath root) (h : change ∈ operation.told proxies root) :
    change.Proper remotePath := by
  cases operation with
  | setValue names value =>
    rw [told] at h
    cases hfound : root.getSubproperty names with
    | none =>
      rw [hfound] at h
      cases h
    | some property =>
      rw [hfound] at h
      exact proper_of_told_setValue (properNames_of_getSubproperty hproper hfound) h
  | appendValue names value =>
    rw [told] at h
    split at h
    · rename_i property hfound
      split at h
      · obtain rfl := (mem_transmitted.mp h).2
        exact ⟨properNames_of_getSubproperty hproper hfound,nofun⟩
      · cases h
    · cases h
  | setSubproperty names strName value =>
    obtain ⟨hpoint,-,hadded⟩ := hfollowed
    rw [told] at h
    split at h
    · rename_i property hfound
      have hplace := getSubproperty_child hfound strName
      split at h
      · rename_i sub hsub
        exact proper_of_told_setValue (properNames_of_getSubproperty hproper (hplace.trans hsub)) h
      · rename_i hsub
        split at h
        · cases h
        · rename_i hname
          obtain rfl := (mem_transmitted.mp h).2
          refine ⟨?_,fun _ => ⟨append_ne_nil_of_right_ne_nil _ (cons_ne_nil _ _),?_⟩⟩
          · intro name hmem
            rcases mem_append.mp hmem with hfront | hlast
            · exact properNames_of_getSubproperty hproper hfound name hfront
            · rw [mem_singleton.mp hlast]
              exact ⟨hname,hpoint⟩
          · intro hsame
            have hthere := hadded hsame
            rw [← hsame,hplace,hsub] at hthere
            cases hthere
    · cases h
  | deleteSubproperty names strName =>
    rw [told] at h
    cases hfound : root.getSubproperty (names ++ [strName]) with
    | none =>
      rw [hfound] at h
      cases h
    | some property =>
      rw [hfound] at h
      obtain ⟨hevent,hentry,-⟩ := mem_destroyed.mp h
      exact proper_of_deleted hproper hfound hevent hentry
  | deleteProperty names =>
    rw [told] at h
    cases hfound : root.getSubproperty names with
    | none =>
      rw [hfound] at h
      cases h
    | some property =>
      rw [hfound] at h
      obtain ⟨hevent,hentry,-⟩ := mem_deletedFromMap.mp h
      exact proper_of_deleted hproper hfound hevent hentry

end TreeOperation

end FepParticipant.PropertyTree
