import FepParticipant.PropertyTree.TransmittedChanges

/-! What the listener of a mirrored property does with a notification, as an event of the local tree. -/
namespace FepParticipant.PropertyTree
open Library TreeEvent PropertyChange List Option Property

theorem Values.copyPropertyValue_eq (source destination : Values) : source.copyPropertyValue destination = source :=
  setValue_variants source destination

namespace MirroredProperty

variable {info : MirroredProperty} {tree sub : Property} {change : PropertyChange} {names rel : List String}
  {name : String}

section
variable (hlocal : ∀ name ∈ info.property ++ rel, ProperName name)
include hlocal

theorem resolve_below (hremote : ∀ name ∈ info.remotePath ++ rel, ProperName name) (hne : info.remotePath ++ rel ≠ [])
    (hthere : (tree.getSubproperty info.property).isSome = true) :
    info.resolve tree (findAffectedProperty (pathText info.remotePath) (pathText info.property)
      (pathText (info.remotePath ++ rel))) =
        if (tree.getSubproperty (info.property ++ rel)).isSome then some (info.property ++ rel) else none := by
  by_cases hrel : rel = []
  · subst hrel
    rw [append_nil] at hremote hne ⊢
    have hpath : pathText info.remotePath ≠ "" := (pathText_eq_empty hremote).not.mpr hne
    rw [findAffectedProperty,if_neg hpath,if_pos rfl,append_nil,if_pos hthere]
    rfl
  · rw [findAffectedProperty_below hrel hremote hlocal,resolve,pathNames_pathText hlocal]

theorem findAffected_below (hproper : ∀ name ∈ change.names, ProperName name) (hevent : change.event ≠ .new)
    (hnames : change.names = info.remotePath ++ rel) (hne : change.names ≠ [])
    (hthere : (tree.getSubproperty info.property).isSome = true) : info.findAffected tree change =
      if (tree.getSubproperty (info.property ++ rel)).isSome then some (info.property ++ rel,"") else none := by
  rw [hnames] at hproper hne
  have haffected : affectedBy (pathText info.remotePath) (pathText info.property) change.event (pathText change.names) =
      some (findAffectedProperty (pathText info.remotePath) (pathText info.property)
        (pathText (info.remotePath ++ rel)),"") := by
    unfold affectedBy
    rw [hnames,if_pos (isPrefixOf_pathText hproper)]
    cases hkind : change.event with
    | new => exact absurd hkind hevent
    | delete => rfl
    | change => rfl
  rw [findAffected,haffected,bind_some]
  dsimp only
  rw [resolve_below hlocal hproper hne hthere]
  split <;> rfl

theorem findAffected_new (hproper : ∀ name ∈ change.names, ProperName name) (hevent : change.event = .new)
    (hnames : change.names = info.remotePath ++ rel ++ [name]) (hne : info.remotePath ++ rel ≠ [])
    (hthere : (tree.getSubproperty info.property).isSome = true) : info.findAffected tree change =
      if (tree.getSubproperty (info.property ++ rel)).isSome then some (info.property ++ rel,name) else none := by
  rw [hnames] at hproper
  have hremote : ∀ other ∈ info.remotePath ++ rel, ProperName other := fun other hother =>
    hproper other (mem_append_left _ hother)
  have hprefix : (pathText info.remotePath).toList.isPrefixOf (pathText (info.remotePath ++ rel ++ [name])).toList =
      true := by
    rw [append_assoc] at hproper ⊢
    exact isPrefixOf_pathText hproper
  have haffected : affectedBy (pathText info.remotePath) (pathText info.property) change.event (pathText change.names) =
      some (findAffectedProperty (pathText info.remotePath) (pathText info.property)
        (pathText (info.remotePath ++ rel)),name) := by
    unfold affectedBy
    rw [hnames,if_pos hprefix,hevent]
    dsimp only
    rw [splitLastPoint_pathText hproper,if_neg hne,map_some,String.ofList_toList,String.ofList_toList]
  rw [findAffected,haffected,bind_some]
  dsimp only
  rw [resolve_below hlocal hremote hne hthere]
  split <;> rfl

end

theorem content_change (hdistinct : tree.DistinctNames) (hevent : change.event ≠ .new)
    (hfound : tree.getSubproperty names = some sub) (hne : names ≠ []) :
    (info.change tree names "" change).content = TreeEvent.apply tree.content (change.toEvent names) := by
  rw [MirroredProperty.change,toEvent]
  cases hkind : change.event with
  | new => exact absurd hkind hevent
  | change => rw [content_updateValues _ hfound,Values.copyPropertyValue_eq]
  | delete =>
    dsimp only
    rw [← content_deleteProperty hdistinct hne]
    split
    · rfl
    · rw [Property.deleteProperty,if_neg hne]

theorem content_change_new (hevent : change.event = .new) (hfound : tree.getSubproperty names = some sub)
    (hname : ProperName name) : (info.change tree names name change).content =
      TreeEvent.apply tree.content (add names name change.values) := by
  have hpresent : (tree.content names).isSome = true := by simp [Property.content,hfound]
  have hmade := content_setSubproperty hname.1 tree names (.string "")
  have hthere : ((tree.updateAt names (Property.setSubproperty name (.string ""))).content (names ++ [name])).isSome =
      true := by
    rw [hmade]
    simp [TreeEvent.apply,hpresent]
  rw [Property.content,isSome_map] at hthere
  obtain ⟨made,hsub⟩ := isSome_iff_exists.mp hthere
  rw [MirroredProperty.change,hevent]
  rw [pathNames_name hname,content_updateValues _ hsub,Values.copyPropertyValue_eq,hmade]
  funext other
  by_cases hother : other = names ++ [name] <;> simp [TreeEvent.apply,hother,hpresent]

theorem distinctNames_change (hdistinct : tree.DistinctNames) : (info.change tree names name change).DistinctNames := by
  have hless : ∀ less all : List String, less.Sublist all → all.Nodup → less.Nodup :=
    fun _ _ hless hall => hall.sublist hless
  rw [MirroredProperty.change]
  cases change.event with
  | change =>
    exact Property.NamesMeet.setValues hdistinct names fun property => change.values.copyPropertyValue property.values
  | delete =>
    dsimp only
    split
    · exact Property.NamesMeet.deleteProperty hdistinct nodup_nil hless names
    · exact Property.NamesMeet.deleteSubproperty hdistinct hless _ _
  | new =>
    have hset := Property.DistinctNames.setSubproperty hdistinct names name (.string "")
    exact Property.NamesMeet.setValues hset (names ++ pathNames name) fun property =>
      change.values.copyPropertyValue property.values

theorem apply_toEvent_missing (hmissing : tree.getSubproperty names = none) (hevent : change.event ≠ .new) :
    TreeEvent.apply tree.content (change.toEvent names) = tree.content := by
  rw [toEvent]
  cases hkind : change.event with
  | new => exact absurd hkind hevent
  | delete => exact apply_drop_missing hmissing
  | change =>
    funext other
    have habsent : tree.content names = none := content_eq_none.mpr hmissing
    simp [TreeEvent.apply,habsent]

theorem apply_add_missing (hmissing : tree.getSubproperty names = none) (values : Values) :
    TreeEvent.apply tree.content (add names name values) = tree.content := by
  funext other
  have habsent : tree.content names = none := content_eq_none.mpr hmissing
  simp [TreeEvent.apply,habsent]

variable {state : MirroredTree}

theorem update_found (hlistens : state.listening = true)
    (hfound : info.findAffected state.tree change = some (names,name)) : info.update state change = { state with
        tree := info.change state.tree names name change
        listening := !(decide (change.event = .delete) && decide (names = info.property)) } := by
  rw [update,if_pos hlistens,hfound]

theorem update_not_found (hfound : state.listening = true → info.findAffected state.tree change = none) :
    info.update state change = state := by
  rw [update]
  split
  · rename_i hlistens
    rw [hfound hlistens]
  · rfl

/-- The event below the local property, as the listener applies it. -/
private structure Applied (info : MirroredProperty) (state : MirroredTree) (change : PropertyChange)
    (rel : List String) : Prop where
  content : (info.update state change).tree.content =
    TreeEvent.apply state.tree.content ((change.toEvent rel).below info.property)
  listening : (info.update state change).listening = !(decide (change.event = .delete) && decide (rel = []))

section
variable (hlocal : ∀ name ∈ info.property, ProperName name)
include hlocal

theorem applied_new (hlistens : state.listening = true)
    (hthere : (state.tree.getSubproperty info.property).isSome = true) (hproper : change.Proper info.remotePath)
    (hevent : change.event = .new) (hnames : change.names = info.remotePath ++ (rel ++ [name]))
    (hne : info.remotePath ++ rel ≠ []) : Applied info state change (rel ++ [name]) := by
  have hmem : ∀ other ∈ info.remotePath ++ (rel ++ [name]), ProperName other := hnames ▸ hproper.names
  have hplace : ∀ other ∈ info.property ++ rel, ProperName other := by
    intro other hother
    rcases mem_append.mp hother with hfront | hback
    · exact hlocal other hfront
    · exact hmem other (mem_append_right _ (mem_append_left _ hback))
  have hname : ProperName name := hmem name (by simp)
  have hadd : (change.toEvent (rel ++ [name])).below info.property = add (info.property ++ rel) name change.values := by
    rw [toEvent,hevent]
    rw [dropLast_concat,getLastD_concat]
    rfl
  have hlookup := findAffected_new hplace hproper.names hevent (hnames.trans (append_assoc ..).symm) hne hthere
  have hkept : (!(decide (change.event = .delete) && decide (info.property ++ rel = info.property))) =
      !(decide (change.event = .delete) && decide (rel ++ [name] = [])) := by simp [hevent]
  cases hfound : state.tree.getSubproperty (info.property ++ rel) with
  | none =>
    rw [hfound] at hlookup
    have hsame : info.update state change = state := update_not_found fun _ => hlookup
    refine ⟨?_,?_⟩
    · rw [hsame,hadd,apply_add_missing hfound]
    · rw [hsame,hlistens]
      simp
  | some sub =>
    rw [hfound] at hlookup
    rw [isSome_some,if_pos rfl] at hlookup
    refine ⟨?_,?_⟩
    · rw [update_found hlistens hlookup,hadd]
      exact content_change_new hevent hfound hname
    · rw [update_found hlistens hlookup]
      exact hkept

theorem applied_below (hproperty : info.property ≠ [])
    (hdistinct : state.tree.DistinctNames) (hlistens : state.listening = true)
    (hthere : (state.tree.getSubproperty info.property).isSome = true) (hproper : change.Proper info.remotePath)
    (hevent : change.event ≠ .new) (hnames : change.names = info.remotePath ++ rel) (hne : change.names ≠ []) :
    Applied info state change rel := by
  have hmem : ∀ other ∈ info.remotePath ++ rel, ProperName other := hnames ▸ hproper.names
  have hplace : ∀ other ∈ info.property ++ rel, ProperName other := by
    intro other hother
    rcases mem_append.mp hother with hfront | hback
    · exact hlocal other hfront
    · exact hmem other (mem_append_right _ hback)
  have hbelow : (change.toEvent rel).below info.property = change.toEvent (info.property ++ rel) :=
    (toEvent_below _ _ fun hnew => absurd hnew hevent).symm
  have hlookup := findAffected_below hplace hproper.names hevent hnames hne hthere
  cases hfound : state.tree.getSubproperty (info.property ++ rel) with
  | none =>
    rw [hfound] at hlookup
    have hsame : info.update state change = state := update_not_found fun _ => hlookup
    have hrel : rel ≠ [] := by
      rintro rfl
      rw [append_nil] at hfound
      rw [hfound] at hthere
      cases hthere
    refine ⟨?_,?_⟩
    · rw [hsame,hbelow,apply_toEvent_missing hfound hevent]
    · rw [hsame,hlistens]
      simp [hrel]
  | some sub =>
    rw [hfound] at hlookup
    rw [isSome_some,if_pos rfl] at hlookup
    refine ⟨?_,?_⟩
    · rw [update_found hlistens hlookup,hbelow]
      exact content_change hdistinct hevent hfound (append_ne_nil_of_left_ne_nil hproperty _)
    · rw [update_found hlistens hlookup]
      simp

theorem applied_of_understood
    (hproperty : info.property ≠ []) (hdistinct : state.tree.DistinctNames) (hlistens : state.listening = true)
    (hthere : (state.tree.getSubproperty info.property).isSome = true) (hproper : change.Proper info.remotePath)
    (hnames : change.names = info.remotePath ++ rel)
    (hunderstood : info.remotePath = [] → change.names ≠ [] ∧ (change.event = .new → 2 ≤ change.names.length)) :
    Applied info state change rel := by
  by_cases hevent : change.event = .new
  · rcases eq_nil_or_concat rel with rfl | ⟨front,name,rfl⟩
    · rw [append_nil] at hnames
      exact absurd hnames (hproper.new hevent).2
    · rw [concat_eq_append] at hnames ⊢
      refine applied_new hlocal hlistens hthere hproper hevent hnames ?_
      intro hempty
      obtain ⟨hroot,rfl⟩ := append_eq_nil_iff.mp hempty
      have hlength := (hunderstood hroot).2 hevent
      rw [hnames,hroot] at hlength
      simp at hlength
  · refine applied_below hlocal hproperty hdistinct hlistens hthere hproper hevent hnames ?_
    intro hempty
    have hroot : info.remotePath = [] := (append_eq_nil_iff.mp (hnames.symm.trans hempty)).1
    exact (hunderstood hroot).1 hempty

end

theorem isSome_toEvent {content : List String → Option Values} (hthere : (content []).isSome = true) :
    (TreeEvent.apply content (change.toEvent rel) []).isSome =
      !(decide (change.event = .delete) && decide (rel = [])) := by
  rw [toEvent]
  cases hevent : change.event with
  | change => cases rel <;> simp [TreeEvent.apply,hthere]
  | new => simp [TreeEvent.apply,hthere]
  | delete => by_cases hrel : rel = [] <;> simp [TreeEvent.apply,hrel,hthere]

/-- What the listener leaves after a notification about a property below the remote one. -/
structure Delivered (info : MirroredProperty) (state : MirroredTree) (change : PropertyChange) (rel : List String) :
    Prop where
  below : contentBelow info.property (info.update state change).tree.content =
    TreeEvent.apply (contentBelow info.property state.tree.content) (change.toEvent rel)
  others : ∀ other, ¬info.property <+: other →
    (info.update state change).tree.content other = state.tree.content other
  listening : (info.update state change).listening = ((info.update state change).tree.content info.property).isSome

theorem distinctNames_update (hdistinct : state.tree.DistinctNames) :
    (info.update state change).tree.DistinctNames := by
  rw [update]
  split
  · split
    · exact distinctNames_change hdistinct
    · exact hdistinct
  · exact hdistinct

theorem delivered_of_understood (hlocal : ∀ name ∈ info.property, ProperName name)
    (hproperty : info.property ≠ []) (hdistinct : state.tree.DistinctNames)
    (hlistening : state.listening = (state.tree.content info.property).isSome)
    (hproper : change.Proper info.remotePath) (hnames : change.names = info.remotePath ++ rel)
    (hunderstood : info.remotePath = [] → change.names ≠ [] ∧ (change.event = .new → 2 ≤ change.names.length)) :
    Delivered info state change rel := by
  cases hlistens : state.listening with
  | false =>
    have hsame : info.update state change = state := update_not_found fun h => by
      rw [hlistens] at h
      cases h
    have hmissing : state.tree.content info.property = none := by
      rw [← isNone_iff_eq_none,← not_isSome,← hlistening,hlistens]
      rfl
    refine ⟨?_,fun _ _ => by rw [hsame],by rw [hsame,hlistening]⟩
    rw [hsame,contentBelow_of_missing hmissing,apply_none]
  | true =>
    have hthere : (state.tree.content info.property).isSome = true := hlistening ▸ hlistens
    have hfound : (state.tree.getSubproperty info.property).isSome = true := by
      rw [Property.content,isSome_map] at hthere
      exact hthere
    have happlied := applied_of_understood hlocal hproperty hdistinct hlistens hfound hproper hnames hunderstood
    have hbelow : contentBelow info.property (info.update state change).tree.content =
        TreeEvent.apply (contentBelow info.property state.tree.content) (change.toEvent rel) := by
      rw [happlied.content,contentBelow_apply]
    refine ⟨hbelow,fun other hother => ?_,?_⟩
    · rw [happlied.content,apply_below_other hother]
    · have hroot : (info.update state change).tree.content info.property =
          contentBelow info.property (info.update state change).tree.content [] := by
        rw [contentBelow,append_nil]
      have hstart : (contentBelow info.property state.tree.content []).isSome = true := by
        rw [contentBelow,append_nil]
        exact hthere
      rw [happlied.listening,hroot,hbelow,isSome_toEvent hstart]

end MirroredProperty

end FepParticipant.PropertyTree
