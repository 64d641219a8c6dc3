import FepParticipant.PropertyTree.MirrorPaths
import FepParticipant.PropertyTree.TreeContent

/-! The calls that change a property tree, a part of another participant's tree mirrored in the own one, and the
notifications under way to it. A property is named by the names on its path. -/
namespace FepParticipant.PropertyTree
open Library Option List
open PropertyNodes (joinPath)

structure PropertyChange where
  event : ChangeEvent
  names : List String
  values : Values

inductive TreeOperation where
  | setValue (names : List String) (value : Variant)
  | appendValue (names : List String) (value : Variant)
  | setSubproperty (names : List String) (strName : String) (value : Variant)
  | deleteSubproperty (names : List String) (strName : String)
  | deleteProperty (names : List String)

namespace Property

variable {name : String} {names : List String} {root sub : Property}

/-- `SetSubproperty`. A property without a name is not added. -/
def setSubproperty (strName : String) (value : Variant) (property : Property) : Property :=
  if (property.findSubproperty strName).isSome then
    updateAt [strName] (fun sub => sub.setValues (sub.values.setValue value)) property
  else (property.addSubproperty (create strName value)).2

/-- `DeleteProperty` of a tree; the root stays without its subproperties. -/
def deleteProperty (names : List String) (root : Property) : Property :=
  if names = [] then root.clearSubproperties else updateAt names.dropLast (deleteSubproperty (names.getLastD "")) root

mutual
/-- The properties of a tree in the order of their destruction, with their paths and values. -/
def nodesAt (names : List String) : Property → List (List String × Values)
  | mk _ values subproperties => (names,values)::nodesAtEach names subproperties

def nodesAtEach (names : List String) : List Property → List (List String × Values)
  | [] => []
  | property::properties => nodesAt (names ++ [property.name]) property ++ nodesAtEach names properties
end

end Property

/-- A notification from every proxy at the property or above it. -/
def transmitted (proxies : List (List String)) (change : PropertyChange) : List PropertyChange :=
  List.replicate (proxies.countP (· <+: change.names)) change

def destroyed (proxies : List (List String)) (names : List String) (property : Property) : List PropertyChange :=
  (property.nodesAt names).flatMap fun (names,values) => transmitted proxies ⟨.delete,names,values⟩

mutual
/-- `DeleteProperty` of the tree: the proxies at each property notify finally and go, then those above the first are
told. -/
def deletedFromMap (proxies : List (List String)) (above : Nat) (names : List String) : Property → List PropertyChange
  | .mk _ values subproperties =>
    List.replicate (proxies.count names) ⟨.delete,names,values⟩ ++
      deletedEach proxies above names subproperties ++ List.replicate above ⟨.delete,names,values⟩

def deletedEach (proxies : List (List String)) (above : Nat) (names : List String) :
    List Property → List PropertyChange
  | [] => []
  | property::properties =>
    deletedFromMap proxies above (names ++ [property.name]) property ++ deletedEach proxies above names properties
end

namespace TreeOperation
variable (proxies : List (List String))

def apply (root : Property) : TreeOperation → Property
  | setValue names value => root.updateAt names fun property => property.setValues (property.values.setValue value)
  | appendValue names value =>
    root.updateAt names fun property => property.setValues (property.values.appendValue value).2
  | setSubproperty names strName value => root.updateAt names (Property.setSubproperty strName value)
  | deleteSubproperty names strName => root.updateAt names (Property.deleteSubproperty strName)
  | deleteProperty names => root.deleteProperty names

/-- `SetValue` of the property at a path. -/
def toldOfSetValue (names : List String) (value : Variant) (property : Property) :
    List PropertyChange :=
  if property.values.notifies value then transmitted proxies ⟨.change,names,property.values.setValue value⟩ else []

/-- The notifications, in the order in which they are transmitted. -/
def told (root : Property) : TreeOperation → List PropertyChange
  | setValue names value => (root.getSubproperty names).elim [] (toldOfSetValue proxies names value)
  | appendValue names value =>
    match root.getSubproperty names with
    | some property =>
      match property.values.appendValue value with
      | (.errNoError,values) => transmitted proxies ⟨.change,names,values⟩
      | _ => []
    | none => []
  | setSubproperty names strName value =>
    match root.getSubproperty names with
    | some property =>
      match property.findSubproperty strName with
      | some sub => toldOfSetValue proxies (names ++ [strName]) value sub
      | none =>
        if strName = "" then []
        else transmitted proxies ⟨.new,names ++ [strName],(Property.create strName value).values⟩
    | none => []
  | deleteSubproperty names strName =>
    (root.getSubproperty (names ++ [strName])).elim [] (destroyed proxies (names ++ [strName]))
  | deleteProperty names =>
    (root.getSubproperty names).elim []
    (deletedFromMap proxies (proxies.countP fun path => path <+: names ∧ path ≠ names) names)

def proxiesAfter : TreeOperation → List (List String)
  | deleteSubproperty names strName => proxies.filter fun path => ¬names ++ [strName] <+: path
  | deleteProperty names => proxies.filter fun path => ¬names <+: path
  | setValue .. | appendValue .. | setSubproperty .. => proxies

end TreeOperation

namespace Property

variable {name strName : String} {names rel : List String} {root sub property : Property} {f g : Property → Property}
  {value : Variant}

theorem setValue_eq (values : Values) (value : Variant) : values.setValue value = (create "" value).values := by
  cases value <;> rfl

theorem updateAt_append (names rel : List String) (f : Property → Property) (root : Property) :
    updateAt (names ++ rel) f root = updateAt names (updateAt rel f) root := by
  induction names generalizing root with
  | nil => rfl
  | cons name names ih =>
    rw [cons_append,updateAt,updateAt]
    congr 2
    funext sub
    exact ih sub

theorem content_updateAt_congr (hf : ∀ property, (f property).name = property.name)
    (hg : ∀ property, (g property).name = property.name) (hfound : getSubproperty names root = some sub)
    (hsame : (f sub).content = (g sub).content) :
    (updateAt names f root).content = (updateAt names g root).content := by
  funext other
  rw [content_updateAt hf,content_updateAt hg,hfound,bind_some,bind_some,hsame]

theorem content_updateAt_self (hf : ∀ property, (f property).name = property.name)
    (hfound : getSubproperty names root = some sub) (hsame : (f sub).content = sub.content) :
    (updateAt names f root).content = root.content := by
  funext other
  rw [content_updateAt hf]
  split
  · rename_i hbelow
    obtain ⟨rel,rfl⟩ := hbelow
    rw [hfound,bind_some,hsame,drop_left,content_append,hfound]
    rfl
  · rfl

theorem name_setSubproperty (strName : String) (value : Variant) (property : Property) :
    (property.setSubproperty strName value).name = property.name := by
  rw [setSubproperty]
  split
  · rfl
  · exact name_addSubproperty _ _

private theorem getSubproperty_singleton : getSubproperty [name] property = property.findSubproperty name := by
  rw [getSubproperty]
  cases property.findSubproperty name <;> rfl

section
variable (hfound : getSubproperty names root = some property)
include hfound

theorem getSubproperty_child (strName : String) :
    getSubproperty (names ++ [strName]) root = property.findSubproperty strName := by
  rw [getSubproperty_append,hfound,bind_some,getSubproperty_singleton]

theorem content_setSubproperty_of_some (hsub : property.findSubproperty strName = some sub) (value : Variant) :
    (updateAt names (setSubproperty strName value) root).content =
      (TreeEvent.put (names ++ [strName]) (sub.values.setValue value)).apply root.content := by
  rw [← content_updateValues (fun sub => sub.values.setValue value) ((getSubproperty_child hfound strName).trans hsub),
    updateAt_append]
  refine content_updateAt_congr (name_setSubproperty strName value) (fun _ => rfl) hfound ?_
  rw [setSubproperty,hsub,isSome_some,if_pos rfl]

theorem content_setSubproperty_unnamed (hsub : property.findSubproperty "" = none) (value : Variant) :
    (updateAt names (setSubproperty "" value) root).content = root.content := by
  refine content_updateAt_self (name_setSubproperty "" value) hfound ?_
  rw [setSubproperty,hsub,isSome_none,if_neg Bool.false_ne_true,addSubproperty]
  rfl

end

theorem content_setSubproperty (hname : strName ≠ "") (root : Property) (names : List String) (value : Variant) :
    (updateAt names (setSubproperty strName value) root).content =
      (TreeEvent.add names strName (create "" value).values).apply root.content := by
  have hkeep := name_setSubproperty strName value
  cases hfound : getSubproperty names root with
  | none =>
    rw [content_updateAt_none hkeep hfound]
    funext other
    have habsent : root.content names = none := content_eq_none.mpr hfound
    simp [TreeEvent.apply,habsent]
  | some property =>
    have hpresent : (root.content names).isSome = true := by simp [content,hfound]
    cases hsub : property.findSubproperty strName with
    | some sub =>
      rw [content_setSubproperty_of_some hfound hsub,setValue_eq]
      funext other
      have hthere : (root.content (names ++ [strName])).isSome = true := by
        simp [content,getSubproperty_child hfound,hsub]
      simp [TreeEvent.apply,hpresent,hthere]
    | none =>
      have hnew : root.content (names ++ [strName]) = none := by
        rw [content_eq_none,getSubproperty_child hfound,hsub]
      refine Eq.trans ?_ (content_addSubproperty hname hnew value)
      refine content_updateAt_congr hkeep (fun _ => name_addSubproperty _ _) hfound ?_
      rw [setSubproperty,hsub,isSome_none,if_neg Bool.false_ne_true]

theorem NamesMeet.setSubproperty {P : List String → Prop} (h : root.NamesMeet P) (hnil : P [])
    (hnew : ∀ property, Property.getSubproperty names root = some property →
      property.findSubproperty strName = none → strName ≠ "" →
        P (property.getSubProperties.map Property.name ++ [strName])) :
    (Property.updateAt names (Property.setSubproperty strName value) root).NamesMeet P := by
  refine h.updateAt (name_setSubproperty strName value) ?_
  intro property hfound hmeet
  rw [Property.setSubproperty]
  cases hsub : property.findSubproperty strName with
  | some sub => exact hmeet.setValues [strName] fun sub => sub.values.setValue value
  | none =>
    rw [isSome_none,if_neg Bool.false_ne_true]
    by_cases hname : strName = ""
    · rw [Property.addSubproperty,if_pos (show (create strName value).name = "" from hname)]
      exact hmeet
    · refine @NamesMeet.addSubproperty _ [] _ _ hmeet hnil hname value ?_
      intro sub hsame
      cases hsame
      exact hnew property hfound hsub hname

theorem DistinctNames.setSubproperty (h : root.DistinctNames) (names : List String) (strName : String)
    (value : Variant) : (Property.updateAt names (Property.setSubproperty strName value) root).DistinctNames := by
  refine NamesMeet.setSubproperty h nodup_nil ?_
  intro property hfound hsub _
  refine nodup_append_new h ?_ hfound
  rw [content_eq_none,getSubproperty_child hfound,hsub]

theorem ProperNames.setSubproperty (h : root.ProperNames) (names : List String) (hpoint : '.' ∉ strName.toList)
    (value : Variant) : (Property.updateAt names (Property.setSubproperty strName value) root).ProperNames := by
  refine NamesMeet.setSubproperty h nofun ?_
  intro property hfound _ hname other hother
  rcases mem_append.mp hother with hold | hnew
  · exact (namesMeet_iff.mp (NamesMeet.getSubproperty h hfound)).1 other hold
  · obtain rfl := mem_singleton.mp hnew
    exact ⟨hname,hpoint⟩

theorem content_deleteProperty (hdistinct : root.DistinctNames) (hnames : names ≠ []) :
    (root.deleteProperty names).content = (TreeEvent.drop names).apply root.content := by
  rw [deleteProperty,if_neg hnames,content_deleteSubproperty hdistinct,getLastD_eq_getLast?,
    getLast?_eq_getLast_of_ne_nil hnames,getD_some,dropLast_append_getLast hnames]

theorem content_deleteProperty_nil (hrel : rel ≠ []) : (root.deleteProperty []).content rel = none := by
  obtain ⟨name,rel,rfl⟩ := exists_cons_of_ne_nil hrel
  rfl

theorem NamesMeet.deleteProperty {P : List String → Prop} (h : root.NamesMeet P) (hnil : P [])
    (hsub : ∀ less all, less.Sublist all → P all → P less) (names : List String) :
    (Property.deleteProperty names root).NamesMeet P := by
  rw [Property.deleteProperty]
  split
  · exact namesMeet_mk.mpr ⟨hnil,nofun⟩
  · exact NamesMeet.deleteSubproperty h hsub _ _

end Property

deriving instance DecidableEq for Binary64, Variant, Values

/-- `CopyPropertyValue`: the first value is set and the others are appended. -/
def Values.copyPropertyValue (source destination : Values) : Values :=
  source.variants.2.foldl (fun values value => (values.appendValue value).2) (destination.setValue source.variants.1)

namespace Property

mutual
/-- `MergeProperty`. -/
def mergeProperty (strPath : String) : Property → Property → Property
  | mk name values subproperties, root =>
    let strPath := joinPath strPath name
    let names := pathNames strPath
    mergeEach strPath subproperties
      ((root.getOrMakeSubproperty names values.variants.1).updateAt names fun property =>
        property.setValues (values.copyPropertyValue property.values))

def mergeEach (strPath : String) : List Property → Property → Property
  | [], root => root
  | property::properties, root => mergeEach strPath properties (mergeProperty strPath property root)
end

end Property

/-- What the notification listener of a mirrored property knows: the remote path, and where the local property is. -/
structure MirroredProperty where
  remotePath : List String
  property : List String

/-- The other participant's tree with the proxies that transmit to this one, the notifications under way, and the
own tree. The listener is gone when the mirrored property was deleted. -/
structure MirroredTree where
  remote : Property
  proxies : List (List String)
  inFlight : List PropertyChange
  tree : Property
  listening : Bool

/-- Changes of the remote tree, other subscriptions in it, and the delivery of the oldest notification. -/
inductive MirrorAction where
  | operation (operation : TreeOperation)
  | regPropListener (names : List String)
  | unregPropListener (names : List String)
  | deliver

namespace MirroredProperty
variable (info : MirroredProperty)

/-- The names of the local property that `FindAffectedProperty` returns. -/
def resolve (tree : Property) : AffectedProperty → Option (List String)
  | .nothing => none
  | .mirrored => some info.property
  | .below strLocalPath =>
    if (tree.getSubproperty (pathNames strLocalPath)).isSome then some (pathNames strLocalPath) else none

/-- The property that `Update` finds for a notification, and the name of a new one below it. -/
def findAffected (tree : Property) (change : PropertyChange) :
    Option (List String × String) :=
  (affectedBy (pathText info.remotePath) (pathText info.property) change.event (pathText change.names)).bind
    fun (affected,strNewPropName) => (info.resolve tree affected).map fun names => (names,strNewPropName)

/-- The tree after `Update` for a property that was found. -/
def change (info : MirroredProperty) (tree : Property) (names : List String) (strNewPropName : String)
    (change : PropertyChange) : Property :=
  match change.event with
  | .change => tree.updateAt names fun property => property.setValues (change.values.copyPropertyValue property.values)
  | .delete =>
    if names = info.property then tree.deleteProperty names
    else tree.updateAt names.dropLast (Property.deleteSubproperty (names.getLastD ""))
  | .new =>
    (tree.updateAt names (Property.setSubproperty strNewPropName (.string ""))).updateAt
      (names ++ pathNames strNewPropName) fun property =>
        property.setValues (change.values.copyPropertyValue property.values)

/-- `Update` of the listener for the mirrored property. -/
def update (state : MirroredTree) (change : PropertyChange) : MirroredTree :=
  if state.listening then
    match info.findAffected state.tree change with
    | some (names,strNewPropName) =>
      { state with
        tree := info.change state.tree names strNewPropName change
        listening := !(decide (change.event = .delete) && decide (names = info.property)) }
    | none => state
  else state

def step (state : MirroredTree) : MirrorAction → Option MirroredTree
  | .operation operation =>
    some { state with
      remote := operation.apply state.remote
      proxies := operation.proxiesAfter state.proxies
      inFlight := state.inFlight ++ operation.told state.proxies state.remote }
  | .regPropListener names =>
    if (state.remote.getSubproperty names).isSome ∧ names ∉ state.proxies then
      some {state with proxies := state.proxies ++ [names]}
    else some state
  | .unregPropListener names => some {state with proxies := state.proxies.erase names}
  | .deliver =>
    match state.inFlight with
    | [] => none
    | change::inFlight => some (info.update {state with inFlight := inFlight} change)

end MirroredProperty

/-- `MirrorRemoteProperty` for a property that is there, up to the registration of its listener. -/
def mirrorRemoteProperty (strElementName : String) (remotePath : List String) (strLocalPath : String)
    (remote tree : Property) (proxies : List (List String)) : Option (MirroredProperty × MirroredTree) :=
  if strElementName = "" ∨ '*' ∈ strElementName.toList ∨ '?' ∈ strElementName.toList then none
  else
    (remote.getSubproperty remotePath).map fun poProperty =>
      -- set name if whole tree was fetched
      let poProperty := if remotePath = [] then (poProperty.setName strElementName).2 else poProperty
      (⟨remotePath,pathNames (joinPath strLocalPath poProperty.name)⟩,
        { remote := remote
          proxies := if remotePath ∈ proxies then proxies else proxies ++ [remotePath]
          inFlight := []
          tree := Property.mergeProperty strLocalPath poProperty tree
          listening := true })

/-- No name on the path is empty, and it ends with a name. -/
def ProperPath (strPath : String) : Prop :=
  pathText (pathNames strPath) = strPath ∧ ∀ name ∈ pathNames strPath, name ≠ ""

instance (strPath : String) : Decidable (ProperPath strPath) :=
  inferInstanceAs (Decidable (_ ∧ ∀ name ∈ pathNames strPath, _))

def localName (strElementName : String) (remotePath : List String) : String :=
  if remotePath = [] then strElementName else remotePath.getLastD ""

/-- The names in both trees are distinct, the remote ones without a point; the local path has no empty name, and
below it is nothing that the remote tree does not have. -/
structure Mirrorable (strElementName strLocalPath : String) (info : MirroredProperty) (remote tree : Property) :
    Prop where
  remoteDistinct : remote.DistinctNames
  remoteProper : remote.ProperNames
  treeDistinct : tree.DistinctNames
  properPath : ProperPath (joinPath strLocalPath (localName strElementName info.remotePath))
  only : ∀ rel, (tree.content (info.property ++ rel)).isSome = true →
    (remote.content (info.remotePath ++ rel)).isSome = true

/-- The listeners are told of a value that is set, or it was there before. -/
def SetNotifies (property : Option Property) (value : Variant) : Prop :=
  ∀ poProperty ∈ property,
    poProperty.values.notifies value = true ∨ poProperty.values.setValue value = poProperty.values

instance (property : Option Property) (value : Variant) : Decidable (SetNotifies property value) :=
  inferInstanceAs (Decidable (∀ poProperty ∈ property, _ ∨ _))

/-- No silent change of a value below the mirrored path, no new name with a point, no new property at the path, and
no deletion of the root where the whole tree is mirrored. -/
def TreeOperation.Followed (remotePath : List String) (root : Property) : TreeOperation → Prop
  | setValue names value => remotePath <+: names → SetNotifies (root.getSubproperty names) value
  | setSubproperty names strName value =>
    '.' ∉ strName.toList ∧
    (remotePath <+: names ++ [strName] → SetNotifies (root.getSubproperty (names ++ [strName])) value) ∧
    (names ++ [strName] = remotePath → (root.getSubproperty remotePath).isSome = true)
  | deleteProperty names => names = [] → remotePath ≠ []
  | appendValue .. | deleteSubproperty .. => True

instance (remotePath : List String) (root : Property) (operation : TreeOperation) :
    Decidable (operation.Followed remotePath root) :=
  match operation with
  | .setValue .. => inferInstanceAs (Decidable (_ → SetNotifies _ _))
  | .setSubproperty .. => inferInstanceAs (Decidable (_ ∧ (_ → SetNotifies _ _) ∧ (_ → _)))
  | .deleteProperty _ => inferInstanceAs (Decidable (_ → _))
  | .appendValue .. => inferInstanceAs (Decidable True)
  | .deleteSubproperty .. => inferInstanceAs (Decidable True)

namespace MirroredProperty

/-- Of a tree mirrored as a whole neither the root's value nor a new property directly below it; of a property
elsewhere nothing that leads to a local one. -/
def Understood (info : MirroredProperty) (state : MirroredTree) (change : PropertyChange) : Prop :=
  if info.remotePath <+: change.names then
    info.remotePath = [] → change.names ≠ [] ∧ (change.event = .new → 2 ≤ change.names.length)
  else state.listening = true → info.findAffected state.tree change = none

instance (info : MirroredProperty) (state : MirroredTree) (change : PropertyChange) :
    Decidable (info.Understood state change) :=
  inferInstanceAs (Decidable (if info.remotePath <+: change.names then
    info.remotePath = [] → change.names ≠ [] ∧ (change.event = .new → 2 ≤ change.names.length)
  else state.listening = true → info.findAffected state.tree change = none))

/-- The subscription is kept, and all that happens can be followed. -/
def Followed (info : MirroredProperty) (state : MirroredTree) : MirrorAction → Prop
  | .operation operation => operation.Followed info.remotePath state.remote
  | .regPropListener _ => True
  | .unregPropListener names => names ≠ info.remotePath
  | .deliver => ∀ change ∈ state.inFlight.head?, info.Understood state change

instance (info : MirroredProperty) (state : MirroredTree) (action : MirrorAction) :
    Decidable (info.Followed state action) :=
  match action with
  | .operation operation => inferInstanceAs (Decidable (operation.Followed _ _))
  | .regPropListener _ => inferInstanceAs (Decidable True)
  | .unregPropListener _ => inferInstanceAs (Decidable (_ ≠ _))
  | .deliver => inferInstanceAs (Decidable (∀ change ∈ state.inFlight.head?, info.Understood state change))

/-- The local copy has the same properties and values, and of the others only those on the path to it were made. -/
def Mirrors (info : MirroredProperty) (tree : Property) (state : MirroredTree) : Prop :=
  (∀ rel, state.tree.content (info.property ++ rel) = state.remote.content (info.remotePath ++ rel)) ∧
  ∀ other, ¬info.property <+: other → state.tree.content other =
    (tree.content other).or (if other ≠ [] ∧ other <+: info.property then some (.strings "" []) else none)

end MirroredProperty

end FepParticipant.PropertyTree
