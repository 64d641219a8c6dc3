import FepParticipant.PropertyTree.MirrorUpdate

/-! A mirrored property follows the remote one: what is merged at the start, and that every step that can be followed
keeps copy and notifications together. -/
namespace FepParticipant.PropertyTree
open Library TreeEvent PropertyChange List Option TreeOperation Property
open PropertyNodes (joinPath)

namespace Property

variable {root property : Property} {names other : List String} {strPath : String} {properties : List Property}

/-- The values that a merged property brings to a path, and the folders that are made on the way. -/
def merged (names : List String) (property : Property) (content : List String → Option Values) (other : List String) :
    Option Values :=
  (if names <+: other then property.content (other.drop names.length) else none).or
    ((content other).or (if other ≠ [] ∧ other <+: names then some (.strings "" []) else none))

/-- The subproperty that a path behind a property leads to. -/
private def subContent (properties : List Property) : List String → Option Values
  | [] => none
  | name::rel => (properties.find? fun sub => sub.name == name).bind fun sub => sub.content rel

theorem content_mk (name : String) (values : Values) (subproperties : List Property) (rel : List String) :
    (mk name values subproperties).content rel = if rel = [] then some values else subContent subproperties rel := by
  cases rel with
  | nil => rfl
  | cons first rel =>
    rw [content_cons,if_neg (cons_ne_nil _ _)]
    rfl

private theorem merged_child (hthere : (root.content names).isSome = true) (name : String) :
    merged (names ++ [name]) property root.content other =
      (if names ++ [name] <+: other then property.content (other.drop (names ++ [name]).length) else none).or
        (root.content other) := by
  rw [merged]
  cases hother : root.content other with
  | some values => rw [some_or]
  | none =>
    rw [none_or,or_none]
    by_cases hsame : other = names ++ [name]
    · subst hsame
      rw [if_pos prefix_rfl,drop_length,content_nil,some_or]
    · have hfolder : ¬(other ≠ [] ∧ other <+: names ++ [name]) := by
        rintro ⟨-, hprefix⟩
        rcases prefix_concat_iff.mp hprefix with heq | hfront
        · exact hsame heq
        · rw [content,isSome_map] at hthere
          obtain ⟨sub,hsub⟩ := isSome_iff_exists.mp hthere
          have hpresent := isSome_content_above hsub hfront
          rw [hother] at hpresent
          cases hpresent
      rw [if_neg hfolder,or_none]

theorem content_mergeEach (hthere : (root.content names).isSome = true)
    (hnodup : (properties.map Property.name).Nodup) (hmerge : ∀ sub ∈ properties, ∀ root : Property,
      (mergeProperty (pathText names) sub root).content = merged (names ++ [sub.name]) sub root.content) :
    (mergeEach (pathText names) properties root).content other =
      (if names <+: other then subContent properties (other.drop names.length) else none).or (root.content other) := by
  induction properties generalizing root with
  | nil =>
    rw [mergeEach]
    cases other.drop names.length <;> simp [subContent]
  | cons property properties ih =>
    rw [map_cons,nodup_cons] at hnodup
    rw [forall_mem_cons] at hmerge
    have hfirst : ∀ other, (mergeProperty (pathText names) property root).content other = _ := fun other =>
      (congrFun (hmerge.1 root) other).trans (merged_child hthere property.name)
    have hkept : ((mergeProperty (pathText names) property root).content names).isSome = true := by
      have hnot : ¬names ++ [property.name] <+: names := fun h => by simpa using h.length_le
      rw [hfirst,if_neg hnot,none_or]
      exact hthere
    rw [mergeEach,ih hkept hnodup.2 hmerge.2,hfirst]
    by_cases hbelow : names <+: other
    · obtain ⟨rel,rfl⟩ := hbelow
      rw [if_pos (prefix_append _ _),if_pos (prefix_append _ _),drop_left]
      cases rel with
      | nil =>
        have hnot : ¬names ++ [property.name] <+: names ++ [] := fun h => by simpa using h.length_le
        rw [if_neg hnot]
        rfl
      | cons first rel =>
        by_cases hname : first = property.name
        · subst hname
          have hothers : subContent properties (property.name::rel) = none := by
            rw [subContent,find?_eq_none.mpr,bind_none]
            intro sub hsub hsame
            exact hnodup.1 (mem_map.mpr ⟨sub,hsub,by simpa using hsame⟩)
          have hsplit : names ++ property.name::rel = (names ++ [property.name]) ++ rel := by simp
          rw [hothers,none_or,hsplit,if_pos (prefix_append _ _),drop_left,subContent,
            find?_cons_of_pos (by simp),bind_some]
        · have hnot : ¬names ++ [property.name] <+: names ++ first::rel := by
            rw [prefix_append_right_inj,cons_prefix_cons]
            exact fun h => hname h.1.symm
          rw [if_neg hnot,none_or,subContent,subContent,find?_cons_of_neg (by simpa using fun h => hname h.symm)]
    · have hnot : ¬names ++ [property.name] <+: other := fun h => hbelow ((prefix_append _ _).trans h)
      rw [if_neg hbelow,if_neg hbelow,if_neg hnot,none_or]

private theorem content_madeAndSet (hnames : ∀ name ∈ names, name ≠ "") (hne : names ≠ []) (values : Values)
    (root : Property) : ((root.getOrMakeSubproperty names values.variants.1).updateAt names fun property =>
      property.setValues (values.copyPropertyValue property.values)).content other =
        if other = names then some values
        else (root.content other).or (if other ≠ [] ∧ other <+: names then some (.strings "" []) else none) := by
  have hmade := content_getOrMakeSubproperty hnames values.variants.1 root
  have hthere : ((root.getOrMakeSubproperty names values.variants.1).content names).isSome = true := by
    rw [hmade,if_pos ⟨hne,prefix_rfl⟩]
    cases root.content names <;> rfl
  have hset := hthere
  rw [content,isSome_map] at hset
  obtain ⟨sub,hsub⟩ := isSome_iff_exists.mp hset
  rw [content_updateValues _ hsub,Values.copyPropertyValue_eq,TreeEvent.apply]
  dsimp only
  by_cases hother : other = names
  · rw [if_pos ⟨hother,hthere⟩,if_pos hother]
  · rw [if_neg fun h => hother h.1,if_neg hother,hmade,if_neg hother]

theorem content_mergeProperty (hproper : property.ProperNames) (hdistinct : property.DistinctNames)
    (hpath : joinPath strPath property.name = pathText names) (hnames : ∀ name ∈ names, ProperName name)
    (hne : names ≠ []) (root : Property) :
    (mergeProperty strPath property root).content = merged names property root.content := by
  induction property using Property.induction generalizing strPath names root with
  | mk name values subproperties ih =>
    obtain ⟨hown,hbelow⟩ := namesMeet_mk.mp hproper
    obtain ⟨hnodup,hbelow'⟩ := namesMeet_mk.mp hdistinct
    have hpath' : joinPath strPath name = pathText names := hpath
    have hmerge : ∀ sub ∈ subproperties, ∀ root : Property,
        (mergeProperty (pathText names) sub root).content = merged (names ++ [sub.name]) sub root.content := by
      intro sub hsub
      refine ih sub hsub (hbelow sub hsub) (hbelow' sub hsub) (pathText_append_singleton names sub.name).symm ?_
        (append_ne_nil_of_left_ne_nil hne _)
      intro other hother
      rcases mem_append.mp hother with hfront | hlast
      · exact hnames other hfront
      · rw [mem_singleton.mp hlast]
        exact hown _ (mem_map_of_mem hsub)
    have hnonempty : ∀ other ∈ names, other ≠ "" := fun other hother => (hnames other hother).1
    funext other
    have hthere := congrArg Option.isSome
      ((content_madeAndSet hnonempty hne values root).trans (if_pos (rfl : names = names)))
    rw [mergeProperty,hpath',pathNames_pathText hnames,content_mergeEach hthere hnodup hmerge,
      content_madeAndSet hnonempty hne,merged]
    by_cases hprefix : names <+: other
    · obtain ⟨rel,rfl⟩ := hprefix
      rw [if_pos (prefix_append _ _),if_pos (prefix_append _ _),drop_left,content_mk]
      cases rel with
      | nil => simp [subContent]
      | cons first rel =>
        have hlonger : names ++ first::rel ≠ names := fun h => by simpa using congrArg List.length h
        rw [if_neg hlonger,if_neg (cons_ne_nil _ _)]
    · have hother : other ≠ names := fun h => hprefix (h ▸ prefix_rfl)
      rw [if_neg hprefix,if_neg hprefix,if_neg hother]

variable {P : List String → Prop}

theorem NamesMeet.getOrMakeSubproperty (h : root.NamesMeet P) (hnil : P [])
    (hadd : ∀ names name, P names → name ∉ names → name ≠ "" → P (names ++ [name])) (names : List String)
    (value : Variant) : (Property.getOrMakeSubproperty names value root).NamesMeet P := by
  induction names generalizing root with
  | nil => exact h
  | cons name names ih =>
    rw [Property.getOrMakeSubproperty]
    cases hfound : root.findSubproperty name with
    | some sub =>
      rw [isSome_some,if_pos rfl]
      have hmade : (Property.updateAt [name] (Property.getOrMakeSubproperty names value) root).NamesMeet P :=
        h.updateAt (name_getOrMakeSubproperty names value) fun sub _ hsub => ih hsub
      exact hmade
    | none =>
      rw [isSome_none,if_neg Bool.false_ne_true]
      generalize (if names = [] then value else .string "") = made
      have hname := name_getOrMakeSubproperty names value (create name made)
      have hcreated : (create name made).NamesMeet P := namesMeet_mk.mpr ⟨hnil,forall_mem_nil _⟩
      obtain ⟨hnames,hsubs⟩ := namesMeet_iff.mp h
      dsimp only
      rw [Property.addSubproperty]
      split
      · exact h
      · rename_i hnamed
        rw [hname] at hnamed
        refine namesMeet_mk.mpr ⟨?_,?_⟩
        · rw [map_append,map_singleton,hname]
          refine hadd _ name hnames (fun hmem => ?_) hnamed
          obtain ⟨sub,hsub,hsame⟩ := mem_map.mp hmem
          exact find?_eq_none.mp hfound sub hsub (beq_iff_eq.mpr hsame)
        · intro sub hsub
          rcases mem_append.mp hsub with hold | hlast
          · exact hsubs sub hold
          · rw [mem_singleton.mp hlast]
            exact ih hcreated

private theorem NamesMeet.mergeEach (h : root.NamesMeet P)
    (hmerge : ∀ sub ∈ properties, ∀ root : Property, root.NamesMeet P → (mergeProperty strPath sub root).NamesMeet P) :
    (Property.mergeEach strPath properties root).NamesMeet P := by
  induction properties generalizing root with
  | nil => exact h
  | cons property properties ih =>
    rw [forall_mem_cons] at hmerge
    exact ih (hmerge.1 root h) hmerge.2

theorem NamesMeet.mergeProperty (hnil : P [])
    (hadd : ∀ names name, P names → name ∉ names → name ≠ "" → P (names ++ [name])) (property : Property)
    (strPath : String) (h : root.NamesMeet P) : (Property.mergeProperty strPath property root).NamesMeet P := by
  induction property using Property.induction generalizing strPath root with
  | mk name values subproperties ih =>
    refine NamesMeet.mergeEach ?_ fun sub hsub root hroot => ih sub hsub _ hroot
    exact NamesMeet.setValues (h.getOrMakeSubproperty hnil hadd _ _) _ fun property =>
      values.copyPropertyValue property.values

theorem distinctNames_mergeProperty (property : Property) (strPath : String) (h : root.DistinctNames) :
    (mergeProperty strPath property root).DistinctNames := by
  refine NamesMeet.mergeProperty nodup_nil (fun names name hnames hnew _ => ?_) property strPath h
  rw [nodup_append]
  refine ⟨hnames,by simp,fun first hfirst second hsecond hsame => hnew ?_⟩
  rw [← mem_singleton.mp hsecond,← hsame]
  exact hfirst

theorem name_of_getSubproperty {sub : Property} (hfound : getSubproperty names root = some sub) (hne : names ≠ []) :
    sub.name = names.getLastD "" := by
  induction names generalizing root with
  | nil => exact absurd rfl hne
  | cons name names ih =>
    obtain ⟨next,hnext,hrest⟩ := bind_eq_some_iff.mp hfound
    cases names with
    | nil =>
      cases hrest
      simpa using find?_some hnext
    | cons second names =>
      rw [ih hrest (cons_ne_nil _ _)]
      simp

theorem content_setName (property : Property) (name : String) :
    (property.setName name).2.content = property.content := by
  rw [setName]
  split
  · rfl
  · funext rel
    cases rel <;> rfl

theorem NamesMeet.setName (h : property.NamesMeet P) (name : String) : (property.setName name).2.NamesMeet P := by
  rw [Property.setName]
  split
  · exact h
  · exact namesMeet_mk.mpr (namesMeet_iff.mp h)

end Property

namespace MirroredProperty

variable {info : MirroredProperty} {tree : Property} {state state' : MirroredTree} {action : MirrorAction}

/-- The notifications under way bring the local copy to where the remote property is, and nothing else. -/
structure MirrorInv (info : MirroredProperty) (tree : Property) (state : MirroredTree) : Prop where
  remoteDistinct : state.remote.DistinctNames
  remoteProper : state.remote.ProperNames
  registered : (state.remote.content info.remotePath).isSome = true → info.remotePath ∈ state.proxies
  treeDistinct : state.tree.DistinctNames
  proper : ∀ change ∈ state.inFlight, change.Proper info.remotePath
  listening : state.listening = (state.tree.content info.property).isSome
  follows : applyAll (contentBelow info.property state.tree.content)
    (state.inFlight.filterMap (within info.remotePath)) = contentBelow info.remotePath state.remote.content
  others : ∀ other, ¬info.property <+: other → state.tree.content other =
    (tree.content other).or (if other ≠ [] ∧ other <+: info.property then some (.strings "" []) else none)

theorem MirrorInv.mirrors (h : MirrorInv info tree state) (hdelivered : state.inFlight = []) :
    info.Mirrors tree state := by
  refine ⟨fun rel => ?_,h.others⟩
  have hfollows := h.follows
  rw [hdelivered] at hfollows
  exact congrFun hfollows rel

theorem mirrorInv_operation (h : MirrorInv info tree state) {operation : TreeOperation}
    (hfollowed : operation.Followed info.remotePath state.remote) : MirrorInv info tree { state with
      remote := operation.apply state.remote
      proxies := operation.proxiesAfter state.proxies
      inFlight := state.inFlight ++ operation.told state.proxies state.remote } where
  remoteDistinct := distinctNames_apply h.remoteDistinct
  remoteProper := properNames_apply h.remoteProper hfollowed
  registered := registered_apply h.remoteDistinct h.registered hfollowed
  treeDistinct := h.treeDistinct
  proper := by
    intro change hchange
    rcases mem_append.mp hchange with hold | hnew
    · exact h.proper change hold
    · exact proper_told h.remoteProper hfollowed hnew
  listening := h.listening
  follows := by
    rw [filterMap_append,applyAll_append,h.follows]
    exact applyAll_told h.remoteDistinct h.registered hfollowed
  others := h.others

theorem mirrorInv_deliver (hlocal : ∀ name ∈ info.property, ProperName name) (hproperty : info.property ≠ [])
    {change : PropertyChange} {inFlight : List PropertyChange} (h : MirrorInv info tree state)
    (hflight : state.inFlight = change::inFlight) (hunderstood : info.Understood state change) :
    MirrorInv info tree (info.update {state with inFlight := inFlight} change) := by
  have hproper := h.proper
  have hfollows := h.follows
  rw [hflight,forall_mem_cons] at hproper
  rw [hflight] at hfollows
  have hsame : (info.update {state with inFlight := inFlight} change).remote = state.remote ∧
      (info.update {state with inFlight := inFlight} change).proxies = state.proxies ∧
      (info.update {state with inFlight := inFlight} change).inFlight = inFlight := by
    rw [update]
    split
    · split <;> exact ⟨rfl,rfl,rfl⟩
    · exact ⟨rfl,rfl,rfl⟩
  obtain ⟨hremote,hproxies,hrest⟩ := hsame
  rw [Understood] at hunderstood
  by_cases hbelow : info.remotePath <+: change.names
  · rw [if_pos hbelow] at hunderstood
    obtain ⟨rel,hnames⟩ := hbelow
    have hdelivered : Delivered info {state with inFlight := inFlight} change rel :=
      delivered_of_understood hlocal hproperty h.treeDistinct h.listening hproper.1 hnames.symm hunderstood
    refine ⟨by rw [hremote]; exact h.remoteDistinct,by rw [hremote]; exact h.remoteProper,
      by rw [hremote,hproxies]; exact h.registered,distinctNames_update h.treeDistinct,
      by rw [hrest]; exact hproper.2,hdelivered.listening,?_,?_⟩
    · rw [filterMap_cons_some (within_append hnames.symm)] at hfollows
      rw [hrest,hremote,hdelivered.below]
      exact hfollows
    · intro other hother
      rw [hdelivered.others other hother]
      exact h.others other hother
  · rw [if_neg hbelow] at hunderstood
    have hignored : info.update {state with inFlight := inFlight} change = {state with inFlight := inFlight} :=
      update_not_found hunderstood
    rw [hignored]
    refine ⟨h.remoteDistinct,h.remoteProper,h.registered,h.treeDistinct,hproper.2,h.listening,?_,h.others⟩
    rw [filterMap_cons_none (by rw [within,if_neg hbelow])] at hfollows
    exact hfollows

theorem mirrorInv_step (hlocal : ∀ name ∈ info.property, ProperName name) (hproperty : info.property ≠ [])
    (h : MirrorInv info tree state) (hfollowed : info.Followed state action)
    (hstep : info.step state action = some state') : MirrorInv info tree state' := by
  cases action with
  | operation operation =>
    cases hstep
    exact mirrorInv_operation h hfollowed
  | regPropListener names =>
    rw [step] at hstep
    split at hstep
    · cases hstep
      exact ⟨h.remoteDistinct,h.remoteProper,fun hthere => mem_append_left _ (h.registered hthere),
        h.treeDistinct,h.proper,h.listening,h.follows,h.others⟩
    · cases hstep
      exact h
  | unregPropListener names =>
    cases hstep
    have hother : info.remotePath ≠ names := fun hsame => hfollowed hsame.symm
    exact ⟨h.remoteDistinct,h.remoteProper,fun hthere => (mem_erase_of_ne hother).mpr (h.registered hthere),
      h.treeDistinct,h.proper,h.listening,h.follows,h.others⟩
  | deliver =>
    rw [step] at hstep
    split at hstep
    · cases hstep
    · rename_i change inFlight hflight
      cases hstep
      refine mirrorInv_deliver hlocal hproperty h hflight (hfollowed change ?_)
      rw [hflight]
      rfl

private theorem properName_of_properPath {strPath : String} (h : ProperPath strPath) :
    ∀ name ∈ pathNames strPath, ProperName name :=
  fun name hname => ⟨h.2 name hname,point_not_mem_pathNames hname⟩

private theorem joinPath_ne_empty {strPath name : String} (hname : name ≠ "") : joinPath strPath name ≠ "" := by
  rw [joinPath]
  split
  · exact hname
  · intro hempty
    have hchars := congrArg String.toList hempty
    simp [String.toList_append] at hchars

variable {strElementName strLocalPath : String} {remotePath : List String} {remote : Property}
  {proxies : List (List String)} {start : MirroredTree}

theorem mirrorRemoteProperty_spec
    (hstart : mirrorRemoteProperty strElementName remotePath strLocalPath remote tree proxies = some (info,start))
    (h : Mirrorable strElementName strLocalPath info remote tree) :
    (∀ name ∈ info.property, ProperName name) ∧ info.property ≠ [] ∧ MirrorInv info tree start := by
  rw [mirrorRemoteProperty] at hstart
  split at hstart
  · cases hstart
  · rename_i helement
    rw [not_or] at helement
    obtain ⟨sub,hsub,hinfo⟩ := map_eq_some_iff.mp hstart
    generalize hproperty : (if remotePath = [] then (sub.setName strElementName).2 else sub) = poProperty at hinfo
    have hcontent : poProperty.content = sub.content := by
      rw [← hproperty]
      split
      · exact content_setName sub strElementName
      · rfl
    have hmeet : ∀ P : List String → Prop, sub.NamesMeet P → poProperty.NamesMeet P := by
      intro P hP
      rw [← hproperty]
      split
      · exact Property.NamesMeet.setName hP strElementName
      · exact hP
    have hname : poProperty.name = localName strElementName remotePath := by
      rw [← hproperty,localName]
      split
      · rw [Property.setName,if_neg fun hempty => helement.1 hempty.1]
        rfl
      · rename_i hpath
        exact name_of_getSubproperty hsub hpath
    have hnonempty : poProperty.name ≠ "" := by
      rw [hname,localName]
      split
      · exact helement.1
      · rename_i hpath
        have hlast : remotePath.getLastD "" ∈ remotePath := by
          rw [getLastD_eq_getLast?,getLast?_eq_getLast_of_ne_nil hpath]
          exact getLast_mem hpath
        exact (properNames_of_getSubproperty h.remoteProper hsub _ hlast).1
    cases hinfo
    obtain ⟨hremoteDistinct,hremoteProper,htreeDistinct,hpath,honly⟩ := h
    rw [← hname] at hpath
    have hlocal := properName_of_properPath hpath
    have hne : pathNames (joinPath strLocalPath poProperty.name) ≠ [] := by
      intro hempty
      have htext := hpath.1
      rw [hempty] at htext
      exact joinPath_ne_empty hnonempty htext.symm
    have hsubProper : sub.ProperNames := Property.NamesMeet.getSubproperty hremoteProper hsub
    have hsubDistinct : sub.DistinctNames := Property.NamesMeet.getSubproperty hremoteDistinct hsub
    have hmerged := content_mergeProperty (hmeet _ hsubProper) (hmeet _ hsubDistinct) hpath.1.symm hlocal
      hne tree
    have hremote : contentBelow remotePath remote.content = sub.content := by
      funext rel
      rw [contentBelow,content_append,hsub,bind_some]
    have hbelow : contentBelow (pathNames (joinPath strLocalPath poProperty.name))
        (Property.mergeProperty strLocalPath poProperty tree).content = contentBelow remotePath remote.content := by
      funext rel
      rw [contentBelow,hmerged,Property.merged,if_pos (prefix_append _ _),drop_left,hcontent,hremote]
      cases hrel : sub.content rel with
      | some values => rfl
      | none =>
        have habsent : tree.content (pathNames (joinPath strLocalPath poProperty.name) ++ rel) = none := by
          rw [← not_isSome_iff_eq_none]
          intro hthere
          have hpresent := honly rel hthere
          have hmissing : remote.content (remotePath ++ rel) = none := (congrFun hremote rel).trans hrel
          rw [hmissing] at hpresent
          cases hpresent
        rw [habsent,none_or,none_or]
        refine if_neg ?_
        rintro ⟨-, hprefix⟩
        have hnil : rel = [] := by simpa using hprefix.length_le
        rw [hnil,content_nil] at hrel
        cases hrel
    refine ⟨hlocal,hne,hremoteDistinct,hremoteProper,fun _ => ?_,
      distinctNames_mergeProperty poProperty strLocalPath htreeDistinct,
      fun _ hchange => absurd hchange not_mem_nil,?_,hbelow,?_⟩
    · dsimp only
      split
      · rename_i hmem
        exact hmem
      · exact mem_append_right _ mem_cons_self
    · have hroot := congrFun (hbelow.trans hremote) []
      rw [contentBelow,append_nil,content_nil] at hroot
      rw [hroot]
      rfl
    · intro other hother
      rw [hmerged,Property.merged,if_neg hother,none_or]

/-- Whatever happens in the remote tree, once all notifications are delivered the copy of a mirrored property has its
properties and values, and no other local property was changed. -/
theorem mirror_follows
    (hstart : mirrorRemoteProperty strElementName remotePath strLocalPath remote tree proxies = some (info,start))
    (h : Mirrorable strElementName strLocalPath info remote tree) (hreach : Reaches info.step info.Followed start state)
    (hdelivered : state.inFlight = []) : info.Mirrors tree state := by
  obtain ⟨hlocal,hproperty,hinitial⟩ := mirrorRemoteProperty_spec hstart h
  have hinv : MirrorInv info tree state := by
    apply hreach.invariant hinitial
    intro state action state' hinv hfollowed hstep
    exact mirrorInv_step hlocal hproperty hinv hfollowed hstep
  exact hinv.mirrors hdelivered

private def emptyTree : Property := .mk "" (.strings "" []) []

/-- A property with a subproperty, and two whose names begin the same. -/
private def wheels : Property :=
  .mk "" (.strings "" [])
    [.mk "Wheel" (.integers 1 []) [.create "Angle" (.string "")],.create "WheelBase" (.integer 3),
      .create "Wheel2Angle" (.integer 5)]

/-- Values, arrays and subproperties come and go, with a subscription to a property whose path begins the same. -/
theorem mirror_follows_wheel : ∃ info start state,
    mirrorRemoteProperty "Server" ["Wheel"] "Local" wheels emptyTree [] = some (info,start) ∧
    Reaches info.step info.Followed start state ∧ state.inFlight = [] ∧ info.Mirrors emptyTree state ∧
    state.tree.content ["Local","Wheel"] = some (.integers 7 [4]) ∧
    state.tree.content ["Local","Wheel","Angle"] = none ∧
    state.tree.content ["Local","Wheel","Size"] = some (.integers 9 []) := by
  have hrun : ((mirrorRemoteProperty "Server" ["Wheel"] "Local" wheels emptyTree []).any fun (info,start) =>
      (runAllowed info.step info.Followed start
        [.operation (.setValue ["Wheel"] (.integer 7)),.regPropListener ["WheelBase"],
          .operation (.setSubproperty ["Wheel","Angle"] "Unit" (.boolean true)),
          .operation (.setValue ["WheelBase"] (.integer 4)),.deliver,.deliver,
          .operation (.appendValue ["Wheel"] (.integer 4)),.deliver,.operation (.deleteSubproperty ["Wheel"] "Angle"),
          .operation (.setSubproperty ["Wheel"] "Size" (.integer 9)),.deliver,.deliver,.deliver,.deliver]).any
        fun state => decide (info.property = ["Local","Wheel"] ∧ info.remotePath = ["Wheel"] ∧
          state.inFlight.isEmpty = true ∧ state.tree.content ["Local","Wheel"] = some (.integers 7 [4]) ∧
          state.tree.content ["Local","Wheel","Angle"] = none ∧
          state.tree.content ["Local","Wheel","Size"] = some (.integers 9 []))) = true := by decide +kernel
  obtain ⟨⟨info,start⟩,hstart,hrun⟩ := (any_eq_true _ _).mp hrun
  obtain ⟨state,hrun,hfacts⟩ := (any_eq_true _ _).mp hrun
  obtain ⟨hproperty,hremotePath,hdelivered,hcopied⟩ := of_decide_eq_true hfacts
  have hmirrorable : Mirrorable "Server" "Local" info wheels emptyTree := by
    have hnames : wheels.DistinctNames ∧ wheels.ProperNames ∧ emptyTree.DistinctNames := by decide +kernel
    refine ⟨hnames.1,hnames.2.1,hnames.2.2,?_,?_⟩
    · rw [hremotePath]
      decide +kernel
    · intro rel hthere
      rw [hproperty] at hthere
      cases hthere
  have hreach := reaches_of_runAllowed hrun
  have hempty : state.inFlight = [] := isEmpty_iff.mp hdelivered
  exact ⟨info,start,state,hstart,hreach,hempty,mirror_follows hstart hmirrorable hreach hempty,hcopied⟩

/-- The copy differs at a path after a run, with nothing under way. -/
private def strays (remotePath : List String) (remote : Property) (actions : List MirrorAction) (rel : List String) :
    Bool :=
  (mirrorRemoteProperty "Server" remotePath "Local" remote emptyTree []).any fun (info,start) =>
    (runActions info.step start actions).any fun state =>
      decide (state.inFlight.isEmpty = true ∧
        state.tree.content (info.property ++ rel) ≠ state.remote.content (info.remotePath ++ rel))

private theorem not_mirrors_of_strays {remotePath rel : List String} {actions : List MirrorAction}
    (hstrays : strays remotePath remote actions rel = true) : ∃ info start state,
      mirrorRemoteProperty "Server" remotePath "Local" remote emptyTree [] = some (info,start) ∧
      Reaches info.step anyAction start state ∧ state.inFlight = [] ∧ ¬info.Mirrors emptyTree state := by
  obtain ⟨⟨info,start⟩,hstart,hrun⟩ := (any_eq_true _ _).mp hstrays
  obtain ⟨state,hrun,hfacts⟩ := (any_eq_true _ _).mp hrun
  obtain ⟨hdelivered,hdiffers⟩ := of_decide_eq_true hfacts
  exact ⟨info,start,state,hstart,reaches_of_runActions hrun,isEmpty_iff.mp hdelivered,
    fun hmirrors => hdiffers (hmirrors.1 rel)⟩

/-- A new property below the root of a tree mirrored as a whole does not come; a property whose path only begins the
same is taken for a mirrored one; a number silently becomes an equal one of another type. -/
theorem mirror_strays :
    (∃ info start state, mirrorRemoteProperty "Server" [] "Local" emptyTree emptyTree [] = some (info,start) ∧
      Reaches info.step anyAction start state ∧ state.inFlight = [] ∧ ¬info.Mirrors emptyTree state) ∧
    (∃ info start state, mirrorRemoteProperty "Server" ["Wheel"] "Local" wheels emptyTree [] = some (info,start) ∧
      Reaches info.step anyAction start state ∧ state.inFlight = [] ∧ ¬info.Mirrors emptyTree state) ∧
    ∃ info start state, mirrorRemoteProperty "Server" ["WheelBase"] "Local" wheels emptyTree [] = some (info,start) ∧
      Reaches info.step anyAction start state ∧ state.inFlight = [] ∧ ¬info.Mirrors emptyTree state := by
  refine ⟨?_,?_,?_⟩
  · have hroot : strays [] emptyTree [.operation (.setSubproperty [] "Wheel" (.integer 1)),.deliver] ["Wheel"] =
        true := by decide +kernel
    exact not_mirrors_of_strays hroot
  · have hneighbour : strays ["Wheel"] wheels [.regPropListener ["Wheel2Angle"],
        .operation (.setValue ["Wheel2Angle"] (.integer 6)),.deliver] ["Angle"] = true := by decide +kernel
    exact not_mirrors_of_strays hneighbour
  · have hsilent : strays ["WheelBase"] wheels [.operation (.setValue ["WheelBase"] (.float (.ofInt32 3)))] [] =
        true := by decide +kernel
    exact not_mirrors_of_strays hsilent

end MirroredProperty

end FepParticipant.PropertyTree
