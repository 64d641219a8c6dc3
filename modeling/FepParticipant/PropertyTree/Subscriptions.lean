import FepParticipant.PropertyTree.MirroredTree

/-! Who listens to the properties of a tree, and which are mirrored: the maps of `cPropertyTree`, the listeners it
registers, and the calls, commands and notifications that change them. -/
namespace FepParticipant.PropertyTree
open Library
open PropertyNodes (joinPath)

/-- A pointer to a property; one made again at the same path is another, told by the number of the call that made it. -/
structure PropertyPointer where
  names : List String
  made : Nat
  deriving DecidableEq

/-- What a participant listens to, with the path in the words of its command. -/
structure Subscription where
  property : PropertyPointer
  strRemoteModule : String
  strPath : String
  deriving DecidableEq

/-- An entry of `m_mapProxyChangeListeners` and the object it points to. -/
structure ProxyPropertyChangedListener where
  subscription : Subscription
  listener : Nat
  nRefCount : Int

/-- A property tree with the listeners of its properties and the map of the proxies, and the commands to register
and unregister that came while the property was there. -/
structure ListenedTree where
  root : Property
  made : List String → Nat
  calls : Nat
  vecListeners : PropertyPointer → List Nat
  mapProxyChangeListeners : List ProxyPropertyChangedListener
  proxies : Nat
  regCommands : List Subscription
  unregCommands : List Subscription

/-- The value that `ClearProperty` sets. -/
def Values.cleared : Values → Variant
  | strings _ _ => .string ""
  | booleans _ _ => .boolean false
  | floats _ _ => .float (.ofInt32 0)
  | integers _ _ => .integer 0

/-- What `ClearProperty` leaves of a property. -/
def Property.cleared (property : Property) : Property :=
  (property.setValues (property.values.setValue property.values.cleared)).clearSubproperties

namespace ListenedTree
variable (tree : ListenedTree)

def start : ListenedTree :=
  { root := Property.create "" (.string "")
    made := fun _ => 0
    calls := 1
    vecListeners := fun _ => []
    mapProxyChangeListeners := []
    proxies := 0
    regCommands := []
    unregCommands := [] }

def pointerAt (names : List String) : Option PropertyPointer :=
  if (tree.root.content names).isSome then some ⟨names,tree.made names⟩ else none

def getLocalProperty (strPropPath : String) : Option PropertyPointer := tree.pointerAt (pathNames strPropPath)

def Alive (property : PropertyPointer) : Prop := tree.pointerAt property.names = some property

instance (tree : ListenedTree) (property : PropertyPointer) : Decidable (tree.Alive property) :=
  inferInstanceAs (Decidable (_ = _))

/-- The properties after a call. Those that were not there before it are new. -/
def withRoot (root : Property) : ListenedTree :=
  { tree with
    root := root
    made := fun names => if (tree.root.content names).isSome then tree.made names else tree.calls
    calls := tree.calls + 1 }

def setPropertyValue (tree : ListenedTree) (strPropPath : String) (value : Variant) : ListenedTree :=
  tree.withRoot (tree.root.setPropertyValue (pathNames strPropPath) value)

def mergeProperty (tree : ListenedTree) (strPath : String) (poProperty : Property) : ListenedTree :=
  tree.withRoot (Property.mergeProperty strPath poProperty tree.root)

/-- `ClearProperty`, which knows nothing of the maps. -/
def clearProperty (strPropertyPath : String) : ListenedTree :=
  match tree.getLocalProperty strPropertyPath with
  | some pProperty => tree.withRoot (tree.root.updateAt pProperty.names Property.cleared)
  | none => tree

/-- `DeleteSubproperty` of the parent, which knows nothing of the maps. -/
def deleteSubproperty (tree : ListenedTree) (names : List String) : ListenedTree :=
  tree.withRoot (tree.root.updateAt names.dropLast (Property.deleteSubproperty (names.getLastD "")))

/-- `DeletePropertyFromMap`. A proxy is in the list of its property once. -/
def deletePropertyFromMap (poProp : PropertyPointer) : ListenedTree :=
  let itProxies := tree.mapProxyChangeListeners.filter fun entry => entry.subscription.property = poProp
  { tree with
    vecListeners := Function.update tree.vecListeners poProp
      ((tree.vecListeners poProp).filter fun listener => listener ∉ itProxies.map (·.listener))
    mapProxyChangeListeners := tree.mapProxyChangeListeners.filter fun entry => entry.subscription.property ≠ poProp }

/-- `DeleteProperty` of `cPropertyTreeBase`, and whether it succeeds. -/
def deleteInTree (names : List String) : Bool × ListenedTree :=
  if names = [] then (false,tree)
  else if (tree.root.content names).isSome then (true,tree.deleteSubproperty names)
  else (false,tree)

mutual
/-- `DeleteProperty` for a property that is found at the names. -/
def deleteFound (names : List String) : Property → ListenedTree → Bool × ListenedTree
  | .mk _ _ lstSubProperties, tree =>
    match deleteEach names lstSubProperties (tree.deletePropertyFromMap ⟨names,tree.made names⟩) with
    | (true,tree) => tree.deleteInTree names
    | (false,tree) => (false,tree)

/-- The loop over the subproperties as they were before, each of which is found by its path. -/
def deleteEach (names : List String) : List Property → ListenedTree → Bool × ListenedTree
  | [], tree => (true,tree)
  | poSubProperty::lstSubProperties, tree =>
    match deleteFound (names ++ [poSubProperty.name]) poSubProperty tree with
    | (true,tree) => deleteEach names lstSubProperties tree
    | (false,tree) => (false,tree)
end
variable (tree : ListenedTree)

def deleteProperty (names : List String) : ListenedTree :=
  match tree.root.getSubproperty names with
  | some property => (deleteFound names property tree).2
  | none => tree

/-- `FindExistingProxyListener`. -/
def findExistingProxyListener (subscription : Subscription) :
    Option ProxyPropertyChangedListener :=
  tree.mapProxyChangeListeners.find? fun entry => entry.subscription = subscription

/-- `Ref` and `Unref` of one proxy. -/
def addToRefCount (proxy : ProxyPropertyChangedListener) (change : Int) : ListenedTree :=
  { tree with
    mapProxyChangeListeners := tree.mapProxyChangeListeners.map fun entry =>
      if entry.listener = proxy.listener then {entry with nRefCount := entry.nRefCount + change} else entry }

/-- `Update` for a command to register a listener. -/
def regPropListener (strSender strPath : String) : ListenedTree :=
  match tree.getLocalProperty strPath with
  | none => tree
  | some pProperty =>
    let subscription : Subscription := ⟨pProperty,strSender,strPath⟩
    let tree := {tree with regCommands := tree.regCommands ++ [subscription]}
    match tree.findExistingProxyListener subscription with
    | some proxy => tree.addToRefCount proxy 1
    | none =>
      { tree with
        vecListeners := Function.update tree.vecListeners pProperty (tree.vecListeners pProperty ++ [tree.proxies])
        mapProxyChangeListeners := tree.mapProxyChangeListeners ++ [⟨subscription,tree.proxies,1⟩]
        proxies := tree.proxies + 1 }

/-- `Update` for a command to unregister a listener. -/
def unregPropListener (strSender strPath : String) : ListenedTree :=
  match tree.getLocalProperty strPath with
  | none => tree
  | some pProperty =>
    let subscription : Subscription := ⟨pProperty,strSender,strPath⟩
    let tree := {tree with unregCommands := tree.unregCommands ++ [subscription]}
    match tree.findExistingProxyListener subscription with
    | none => tree
    | some proxy =>
      if proxy.nRefCount - 1 > 0 then tree.addToRefCount proxy (-1)
      else
        { tree with
          vecListeners := Function.update tree.vecListeners pProperty
            ((tree.vecListeners pProperty).filter fun listener => listener ≠ proxy.listener)
          mapProxyChangeListeners :=
            tree.mapProxyChangeListeners.filter fun entry => entry.listener ≠ proxy.listener }

/-- A proxy of the participant for the path is called when the property changes. -/
def Receives (subscription : Subscription) : Prop :=
  ∃ entry ∈ tree.mapProxyChangeListeners, entry.listener ∈ tree.vecListeners subscription.property ∧
    entry.subscription.strRemoteModule = subscription.strRemoteModule ∧
    entry.subscription.strPath = subscription.strPath

end ListenedTree

/-- `sMirroredRemoteProperty`. -/
structure MirroredRemoteProperty where
  strElementName : String
  strRemotePath : String
  strLocalPath : String
  deriving DecidableEq

/-- An entry of `m_mapMirroredProperties`; pointers to its key have the number. -/
structure MirroredEntry where
  key : Nat
  info : MirroredRemoteProperty
  property : PropertyPointer

/-- A listener object at the notification access: one that waits for the acknowledgement in a call, or the one of a
mirrored property. -/
inductive NotificationListener where
  | acknowledgement (number : Nat)
  | mirrored (number : Nat) (poInfo : Nat) (poProperty : PropertyPointer)
  deriving DecidableEq

def NotificationListener.number : NotificationListener → Nat
  | acknowledgement number => number
  | mirrored number _ _ => number

structure WaitingCall where
  listener : NotificationListener
  mirrors : Option MirroredRemoteProperty
  deriving DecidableEq

/-- An entry of `m_mapRemoteChangeListeners`. -/
structure RemoteChangeEntry where
  property : PropertyPointer
  listener : NotificationListener

/-- The tree with the maps of its mirrored properties, the other registered notification listeners, and the calls in
progress. -/
structure Subscriptions where
  tree : ListenedTree
  mapMirroredProperties : List MirroredEntry
  mapRemoteChangeListeners : List RemoteChangeEntry
  registered : List NotificationListener
  inProgress : List WaitingCall
  objects : Nat

/-- A call, command or notification. A transmission may fail, a waiting call may receive its property any time or
time out, and the listeners are called in any order. -/
inductive SubscriptionAction where
  | setPropertyValue (strPropPath : String) (value : Variant)
  | mergeProperty (strPath : String) (poProperty : Property)
  | clearProperty (strPropertyPath : String)
  | deleteProperty (strPropertyPath : String)
  | regPropListener (strSender strPath : String)
  | unregPropListener (strSender strPath : String)
  | mirrorRemoteProperty (info : MirroredRemoteProperty) (tmTimeout : Int) (transmitted : Bool)
  | unmirrorRemoteProperty (info : MirroredRemoteProperty) (tmTimeout : Int) (transmitted : Bool)
  | finish (call : WaitingCall) (poProperty : Option Property)
  | propertyChanged (listener : NotificationListener) (strSender : String) (event : ChangeEvent) (strPath : String)
      (values : Values)

namespace Subscriptions
variable (s : Subscriptions)
variable (info : MirroredRemoteProperty)

def start : Subscriptions := ⟨.start,[],[],[],[],0⟩

/-- `RemoveMirroredPropertyLocalSubscription`. -/
def removeMirroredPropertyLocalSubscription (poProperty : PropertyPointer)
    (poInfo : MirroredRemoteProperty) : Subscriptions :=
  match s.mapRemoteChangeListeners.find? fun entry => entry.property = poProperty with
  | none => s
  | some itListener =>
    { s with
      registered := s.registered.erase itListener.listener
      mapRemoteChangeListeners := s.mapRemoteChangeListeners.filter fun entry => entry.property ≠ poProperty
      mapMirroredProperties := s.mapMirroredProperties.filter fun entry => entry.info ≠ poInfo }

def findMirrored : Option MirroredEntry := s.mapMirroredProperties.find? fun entry => entry.info = info

/-- `MirrorRemoteProperty` up to the wait for the acknowledgement. -/
def mirrorRemoteProperty (tmTimeout : Int)
    (transmitted : Bool) : Subscriptions :=
  if tmTimeout < 0 ∨ info.strElementName = "" ∨ '*' ∈ info.strElementName.toList ∨
      '?' ∈ info.strElementName.toList then s
  else
    let s := match s.findMirrored info with
      | some itMirrProp => s.removeMirroredPropertyLocalSubscription itMirrProp.property itMirrProp.info
      | none => s
    let oListener := NotificationListener.acknowledgement s.objects
    let s := {s with registered := s.registered ++ [oListener], objects := s.objects + 1}
    -- a failed transmission ends the call, and the listener stays registered
    if transmitted then {s with inProgress := s.inProgress ++ [⟨oListener,some info⟩]} else s

/-- `UnmirrorRemoteProperty` up to the wait for the acknowledgement. -/
def unmirrorRemoteProperty (tmTimeout : Int)
    (transmitted : Bool) : Subscriptions :=
  if tmTimeout < 0 ∨ '*' ∈ info.strElementName.toList then s
  else
    match s.findMirrored info with
    | none => s
    | some itEntry =>
      let s := s.removeMirroredPropertyLocalSubscription itEntry.property itEntry.info
      let oListener := NotificationListener.acknowledgement s.objects
      if transmitted then
        { s with
          registered := s.registered ++ [oListener]
          inProgress := s.inProgress ++ [⟨oListener,none⟩]
          objects := s.objects + 1 }
      else {s with objects := s.objects + 1}

/-- The name of the received property, which is set if the whole tree was fetched. -/
def receivedProperty (poProperty : Property) : Property :=
  if info.strRemotePath = "" then (poProperty.setName info.strElementName).2 else poProperty

def localNames (poProperty : Property) : List String :=
  pathNames (joinPath info.strLocalPath (receivedProperty info poProperty).name)

/-- The end of `MirrorRemoteProperty`. What is in a map already is not inserted. -/
def insertMirrored (poProperty : Property) : Subscriptions :=
  let tree := s.tree.mergeProperty info.strLocalPath (receivedProperty info poProperty)
  let names := localNames info poProperty
  let poResProperty : PropertyPointer := ⟨names,tree.made names⟩
  let poInfo := ((s.findMirrored info).map (·.key)).getD s.objects
  let poListener := NotificationListener.mirrored (s.objects + 1) poInfo poResProperty
  { s with
    tree := tree
    mapMirroredProperties :=
      if (s.findMirrored info).isSome then s.mapMirroredProperties
      else s.mapMirroredProperties ++ [⟨s.objects,info,poResProperty⟩]
    mapRemoteChangeListeners :=
      if poResProperty ∈ s.mapRemoteChangeListeners.map (·.property) then s.mapRemoteChangeListeners
      else s.mapRemoteChangeListeners ++ [⟨poResProperty,poListener⟩]
    registered := s.registered ++ [poListener]
    objects := s.objects + 2 }

def finish (call : WaitingCall) (poProperty : Option Property) : Subscriptions :=
  let s := {s with registered := s.registered.erase call.listener, inProgress := s.inProgress.erase call}
  match call.mirrors with
  | none => s
  | some info =>
    match poProperty with
    | none => s
    | some poProperty => s.insertMirrored info poProperty

/-- The property that `FindAffectedProperty` returns. -/
def resolve (tree : ListenedTree) (poProperty : PropertyPointer) : AffectedProperty → Option PropertyPointer
  | .nothing => none
  | .mirrored => some poProperty
  | .below strLocalPath => tree.getLocalProperty strLocalPath

/-- The affected property and the name of a new one below it, or none. There is no result if the listener reads a
key or a property that is gone. -/
def findAffected (poInfo : Nat) (poProperty : PropertyPointer) (strSender : String)
    (event : ChangeEvent) (strPath : String) : Option (Option (PropertyPointer × String)) := do
  let entry ← s.mapMirroredProperties.find? fun entry => entry.key = poInfo
  if strSender ≠ entry.info.strElementName then return none
  else
    match affectedBy entry.info.strRemotePath (pathText poProperty.names) event strPath with
    | none => return none
    | some (affected,strNewPropName) =>
      if s.tree.Alive poProperty then
        return (resolve s.tree poProperty affected).map fun affected => (affected,strNewPropName)
      else none

/-- The end of `Update`: the affected property is changed. The root has no parent whose path is read. -/
def changeAffected (mirrored affected : PropertyPointer) (strNewPropName strSender : String)
    (event : ChangeEvent) (strPath : String) (values : Values) : Option Subscriptions :=
  let copy := fun property : Property => property.setValues (values.copyPropertyValue property.values)
  match event with
  | .change => some {s with tree := s.tree.withRoot (s.tree.root.updateAt affected.names copy)}
  | .delete =>
    if affected.names = [] then none
    else if affected = mirrored then
      let oProp : MirroredRemoteProperty := ⟨strSender,strPath,pathText affected.names.dropLast⟩
      let s := {s with tree := s.tree.deleteProperty affected.names}
      some (s.removeMirroredPropertyLocalSubscription mirrored oProp)
    else some {s with tree := s.tree.deleteSubproperty affected.names}
  | .new =>
    some { s with
      tree := s.tree.withRoot
        ((s.tree.root.updateAt affected.names (Property.setSubproperty strNewPropName (.string ""))).updateAt
          (affected.names ++ pathNames strNewPropName) copy) }

/-- `Update` of a listener. Those that wait for an acknowledgement do nothing with a change. -/
def update (listener : NotificationListener) (strSender : String) (event : ChangeEvent)
    (strPath : String) (values : Values) : Option Subscriptions :=
  match listener with
  | .acknowledgement _ => some s
  | .mirrored _ poInfo poProperty => do
    match ← s.findAffected poInfo poProperty strSender event strPath with
    | none => return s
    | some (affected,strNewPropName) =>
      s.changeAffected poProperty affected strNewPropName strSender event strPath values

def step : SubscriptionAction → Option Subscriptions
  | .setPropertyValue strPropPath value => some {s with tree := s.tree.setPropertyValue strPropPath value}
  | .mergeProperty strPath poProperty => some {s with tree := s.tree.mergeProperty strPath poProperty}
  | .clearProperty strPropertyPath => some {s with tree := s.tree.clearProperty strPropertyPath}
  | .deleteProperty strPropertyPath => some {s with tree := s.tree.deleteProperty (pathNames strPropertyPath)}
  | .regPropListener strSender strPath => some {s with tree := s.tree.regPropListener strSender strPath}
  | .unregPropListener strSender strPath => some {s with tree := s.tree.unregPropListener strSender strPath}
  | .mirrorRemoteProperty info tmTimeout transmitted => some (s.mirrorRemoteProperty info tmTimeout transmitted)
  | .unmirrorRemoteProperty info tmTimeout transmitted => some (s.unmirrorRemoteProperty info tmTimeout transmitted)
  | .finish call poProperty => if call ∈ s.inProgress then some (s.finish call poProperty) else none
  | .propertyChanged listener strSender event strPath values =>
    if listener ∈ s.registered then s.update listener strSender event strPath values else none

end Subscriptions
end FepParticipant.PropertyTree
