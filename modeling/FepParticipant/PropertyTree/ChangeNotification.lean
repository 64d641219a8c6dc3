import FepParticipant.PropertyTree.TreeShape
import FepParticipant.PropertyTree.Subscriptions

/-! Which listeners are told that a value has changed. `SetValue` compares numbers of the two types with each other, so
that a change of the type may go unnoticed; the path given to a listener is cut out of the stored one. -/
namespace FepParticipant.PropertyTree
open Library List Bool Nat PropertyNodes

/-- The nodes of property trees with their values and the listeners that are registered at them. -/
structure ListenedNodes where
  nodes : PropertyNodes
  forest : nodes.Forest
  values : Nat → Values
  vecListeners : Nat → List Nat

/-- A call of `ProcessPropertyChange`. -/
structure ChangeCallback where
  listener : Nat
  poProperty : Nat
  poAffectedProperty : Nat
  strRelativePath : String
  deriving DecidableEq

/-- A call that changes the value of a property. `ClearProperty` sets the zero of its type. -/
inductive ValueCall where
  | setValue (value : Variant)
  | appendValue (value : Variant)
  | clear

def ValueCall.apply (values : Values) : ValueCall → Result × Values × Bool
  | setValue value => (.errNoError,values.setValue value,values.notifies value)
  | appendValue value =>
    match values.appendValue value with
    | (result,values) => (result,values,isOk result)
  | clear => (.errNoError,values.setValue values.cleared,values.notifies values.cleared)

/-- The stored path of the property behind that of the node. The characters stand for bytes. -/
def strRelativePath (node property : PropertyNode) : String :=
  match property.strPath.toList.drop node.strPath.toList.length with
  | [] => node.strName
  | '.' :: rest => String.ofList rest
  | path => String.ofList path

namespace ListenedNodes

/-- `NotifyListeners` with the listeners' answers, of which the first failed one is the result. -/
def notifyListeners (answer : ChangeCallback → Result) (s : ListenedNodes) :
    Nat → Nat → Nat → Option (Result × List ChangeCallback)
  | 0, _, _ => none
  | fuel + 1, self, poProperty => do
    let node ← s.nodes.node self
    let property ← s.nodes.node poProperty
    let callbacks := (s.vecListeners self).map fun listener =>
      ⟨listener,self,poProperty,strRelativePath node property⟩
    let nResult := ((callbacks.map answer).find? isFailed).getD .errNoError
    match node.poParent with
    | none => return (nResult,callbacks)
    | some pParent => do
      let (nParentResult,others) ← notifyListeners answer s fuel pParent poProperty
      return (if isOk nResult then nParentResult else nResult,callbacks ++ others)

def call (answer : ChangeCallback → Result) (s : ListenedNodes) (self : Nat) (valueCall : ValueCall) :
    Option (Result × ListenedNodes × List ChangeCallback) :=
  match valueCall.apply (s.values self) with
  | (result,values,notifies) =>
    let s := {s with values := Function.update s.values self values}
    if notifies then do
      let (result,callbacks) ← s.notifyListeners answer (s.nodes.next + 1) self self
      return (result,s,callbacks)
    else return (result,s,[])

end ListenedNodes

/-- The names on the way from a node down to another one. -/
inductive NamesBelow (nodes : PropertyNodes) (above : Nat) : Nat → List String → Prop
  | self : NamesBelow nodes above above []
  | child {parent id : Nat} {names : List String} {node : PropertyNode} : NamesBelow nodes above parent names →
      nodes.node id = some node → node.poParent = some parent → NamesBelow nodes above id (names ++ [node.strName])

def relativeName (nodes : PropertyNodes) (id : Nat) (names : List String) : String :=
  if names = [] then ((nodes.node id).map (·.strName)).getD "" else PropertyNodes.joinPieces names

namespace ListenedNodes

/-- Every listener of the node and of those above it is called once for each registration, and no other. -/
structure EachNotified (s : ListenedNodes) (poProperty : Nat) (callbacks : List ChangeCallback) : Prop where
  each : ∀ above names listener, NamesBelow s.nodes above poProperty names →
    callbacks.count ⟨listener,above,poProperty,relativeName s.nodes poProperty names⟩ =
      (s.vecListeners above).count listener
  others : ∀ callback ∈ callbacks, callback.poAffectedProperty = poProperty ∧
    ∃ names, NamesBelow s.nodes callback.poProperty poProperty names ∧
      callback.strRelativePath = relativeName s.nodes poProperty names

def NotifiesChange (answer : ChangeCallback → Result) (s : ListenedNodes) (self : Nat) (valueCall : ValueCall) : Prop :=
  ∃ result s' callbacks, s.call answer self valueCall = some (result,s',callbacks) ∧
    (s'.values self = s.values self → callbacks = []) ∧
    (s'.values self ≠ s.values self → s.EachNotified self callbacks)

/-- The stored paths of two nodes have a difference that is the names between them. -/
def TellsNames (node property : PropertyNode) (names : List String) : Prop :=
  let rel := (PropertyNodes.joinPieces names).toList
  (∃ front, front.length = node.strPath.toList.length ∧
      (property.strPath.toList = front ++ '.' :: rel ∨
        property.strPath.toList = front ++ rel ∧ rel ≠ [] ∧ rel.head? ≠ some '.')) ∨
    (property.strPath.toList.length ≤ node.strPath.toList.length ∧ node.strName.toList = rel)

end ListenedNodes

/-- A number is not set to an equal one of the other type, nor a NaN to a NaN, unless an array is truncated. -/
def ValueCall.NumbersDiffer (values : Values) : ValueCall → Prop
  | setValue (.float value) =>
    match values with
    | .floats .notANumber [] => value ≠ .notANumber
    | .integers front [] => value.toInt32 ≠ front
    | _ => True
  | setValue (.integer value) =>
    match values with
    | .floats front [] => front ≠ .ofInt32 value
    | _ => True
  | _ => True

def Variant.IsOnly : Variant → Values → Prop
  | .string text, .strings front rest => text = front ∧ rest = []
  | .float value, .floats front rest => value = front ∧ rest = []
  | .integer value, .integers front rest => value = front ∧ rest = []
  | .boolean value, .booleans front rest => value = front ∧ rest = []
  | _, _ => False

/-- Numbers go with numbers, the others with their own type. -/
def Variant.GoesWith : Variant → Values → Prop
  | .string _, .strings _ _ => True
  | .float _, .floats _ _ => True
  | .float _, .integers _ _ => True
  | .integer _, .floats _ _ => True
  | .integer _, .integers _ _ => True
  | .boolean _, .booleans _ _ => True
  | _, _ => False

/-- The type, the array or a value becomes another one. -/
def ValueCall.Changes (values : Values) : ValueCall → Prop
  | setValue value => ¬value.IsOnly values
  | appendValue value => value.GoesWith values
  | clear => ¬values.cleared.IsOnly values

private theorem setValue_eq_iff (values : Values) (value : Variant) : values.setValue value = values ↔
    value.IsOnly values := by
  cases values <;> cases value <;> simp [Values.setValue,Variant.IsOnly,eq_comm]

theorem ValueCall.changes_iff (values : Values) (valueCall : ValueCall) :
    (valueCall.apply values).2.1 ≠ values ↔ valueCall.Changes values := by
  cases valueCall with
  | setValue value => exact not_congr (setValue_eq_iff values value)
  | clear => exact not_congr (setValue_eq_iff values values.cleared)
  | appendValue value =>
    rw [apply]
    cases values <;> cases value <;> simp [Values.appendValue,Changes,Variant.GoesWith]

private theorem differs_iff (value front : Binary64) :
    value.differs front = true ↔ value ≠ front ∨ (value = .notANumber ∧ front = .notANumber) := by
  cases value <;> cases front <;> simp [Binary64.differs]

private theorem isArray_iff {α : Type} (rest : List α) : decide (1 < rest.length + 1) = true ↔ rest ≠ [] := by
  rw [decide_eq_true_iff,Nat.lt_add_left_iff_pos,length_pos_iff]

private theorem same_type_iff {α : Type} [DecidableEq α] (value front : α) (rest : List α) :
    (value != front || decide (1 < rest.length + 1)) = true ↔ ¬(value = front ∧ [] = rest) := by
  rw [or_eq_true,isArray_iff,bne_iff_ne,not_and_or,ne_comm (a := rest)]

theorem ValueCall.notifies_setValue_iff (values : Values) (value : Variant) :
    (values.notifies value = true ↔ values.setValue value ≠ values) ↔
      (ValueCall.setValue value).NumbersDiffer values := by
  cases value with
  | string text =>
    refine iff_of_true ?_ trivial
    cases values with
    | strings front rest =>
      rw [Values.setValue,ne_eq,Values.strings.injEq]
      exact same_type_iff text front rest
    | floats front rest => exact iff_of_true rfl nofun
    | integers front rest => exact iff_of_true rfl nofun
    | booleans front rest => exact iff_of_true rfl nofun
  | boolean value =>
    refine iff_of_true ?_ trivial
    cases values with
    | booleans front rest =>
      rw [Values.setValue,ne_eq,Values.booleans.injEq]
      exact same_type_iff value front rest
    | strings front rest => exact iff_of_true rfl nofun
    | floats front rest => exact iff_of_true rfl nofun
    | integers front rest => exact iff_of_true rfl nofun
  | integer value =>
    cases values with
    | integers front rest =>
      refine iff_of_true ?_ trivial
      rw [Values.setValue,ne_eq,Values.integers.injEq]
      exact same_type_iff value front rest
    | floats front rest =>
      have hchanged : (Values.floats front rest).setValue (.integer value) ≠ .floats front rest := nofun
      rw [iff_true_right hchanged]
      cases rest with
      | nil =>
        have hfinite : Binary64.ofInt32 value ≠ .notANumber := nofun
        have hnotifies : (Values.floats front []).notifies (.integer value) =
            ((Binary64.ofInt32 value).differs front || false) :=
          rfl
        rw [hnotifies,Bool.or_false,differs_iff,or_iff_left fun h => hfinite h.1,ne_comm]
        exact Iff.rfl
      | cons second rest =>
        refine iff_of_true ?_ trivial
        simp [Values.notifies,Values.isArray,Values.getArraySize]
    | strings front rest => exact iff_of_true (iff_of_true rfl nofun) trivial
    | booleans front rest => exact iff_of_true (iff_of_true rfl nofun) trivial
  | float value =>
    cases values with
    | floats front rest =>
      cases rest with
      | nil =>
        have hnotifies : (Values.floats front []).notifies (.float value) = (value.differs front || false) := rfl
        have hchanged : (Values.floats front []).setValue (.float value) ≠ .floats front [] ↔ value ≠ front := by
          simp [Values.setValue]
        rw [hnotifies,Bool.or_false,differs_iff,hchanged]
        cases front <;> simp [NumbersDiffer]
      | cons second rest =>
        refine iff_of_true ?_ (by cases front <;> trivial)
        simp [Values.notifies,Values.isArray,Values.getArraySize,Values.setValue]
    | integers front rest =>
      have hchanged : (Values.integers front rest).setValue (.float value) ≠ .integers front rest := by
        rintro ⟨⟩
      rw [iff_true_right hchanged]
      cases rest with
      | nil =>
        have hnotifies : (Values.integers front []).notifies (.float value) = (value.toInt32 != front || false) := rfl
        rw [hnotifies,Bool.or_false,bne_iff_ne]
        exact Iff.rfl
      | cons second rest =>
        refine iff_of_true ?_ trivial
        simp [Values.notifies,Values.isArray,Values.getArraySize]
    | strings front rest => exact iff_of_true (iff_of_true rfl (by rintro ⟨⟩)) trivial
    | booleans front rest => exact iff_of_true (iff_of_true rfl (by rintro ⟨⟩)) trivial

theorem ValueCall.notifies_iff (values : Values) (valueCall : ValueCall) :
    ((valueCall.apply values).2.2 = true ↔ (valueCall.apply values).2.1 ≠ values) ↔ valueCall.NumbersDiffer values := by
  cases valueCall with
  | setValue value => exact notifies_setValue_iff values value
  | appendValue value =>
    refine iff_of_true ?_ trivial
    rw [apply]
    cases values <;> cases value <;> simp [Values.appendValue,isOk]
  | clear =>
    refine iff_of_true ?_ trivial
    have hset := notifies_setValue_iff values values.cleared
    refine hset.mpr ?_
    cases values with
    | strings front rest => trivial
    | floats front rest => cases front <;> cases rest <;> first | trivial | rintro ⟨⟩
    | integers front rest => trivial
    | booleans front rest => trivial

section
variable {nodes : PropertyNodes} {above id parent : Nat} {names : List String} {node : PropertyNode}

theorem below_of_namesBelow (h : NamesBelow nodes above id names) : Below nodes.parentOf above id := by
  induction h with
  | self => exact .refl
  | child _ hnode hparent ih => exact .step ih ((parentOf_eq hnode).trans hparent)

theorem exists_namesBelow (h : Below nodes.parentOf above id) : ∃ names, NamesBelow nodes above id names := by
  induction h with
  | refl => exact ⟨[],.self⟩
  | step _ hparent ih =>
    obtain ⟨names,hnames⟩ := ih
    obtain ⟨node,hnode,hparent⟩ := exists_of_parentOf hparent
    exact ⟨_,.child hnames hnode hparent⟩

theorem NamesBelow.eq_self (h : NamesBelow nodes above id []) : above = id := by
  generalize hnames : ([] : List String) = names at h
  cases h with
  | self => rfl
  | child _ _ _ => exact absurd hnames.symm (append_ne_nil_of_right_ne_nil _ (cons_ne_nil _ _))

/-- The nodes on the way up from a node. -/
private noncomputable def aboveIn (nodes : PropertyNodes) (id : Nat) : Finset Nat := by
  classical exact (Finset.range nodes.next).filter fun above => Below nodes.parentOf above id

theorem card_aboveIn_le : (aboveIn nodes id).card ≤ nodes.next := by
  classical exact (Finset.card_le_card (Finset.filter_subset ..)).trans (Finset.card_range _).le

private theorem card_aboveIn_parent (hforest : nodes.Forest) (hnode : nodes.node id = some node)
    (hparent : node.poParent = some parent) : (aboveIn nodes parent).card < (aboveIn nodes id).card := by
  classical
  have hup : nodes.parentOf id = some parent := (parentOf_eq hnode).trans hparent
  refine Finset.card_lt_card (Finset.ssubset_iff_of_subset ?_ |>.mpr ⟨id,?_,?_⟩)
  · intro above habove
    obtain ⟨hrange,hbelow⟩ := Finset.mem_filter.mp habove
    exact Finset.mem_filter.mpr ⟨hrange,.step hbelow hup⟩
  · exact Finset.mem_filter.mpr ⟨Finset.mem_range.mpr (hforest.fresh hnode),.refl⟩
  · exact fun hmem => hforest.grounded.not_below hup (Finset.mem_filter.mp hmem).2

end

namespace ListenedNodes

variable {s : ListenedNodes} {answer : ChangeCallback → Result} {self above poProperty fuel : Nat}
    {node property : PropertyNode}

variable {result : Result}

theorem notifyListeners_isSome (hnode : s.nodes.node self = some node)
    (hproperty : s.nodes.node poProperty = some property) (hfuel : (aboveIn s.nodes self).card < fuel) :
    ∃ outcome, s.notifyListeners answer fuel self poProperty = some outcome := by
  induction fuel generalizing self node with
  | zero => exact absurd hfuel (not_lt_zero _)
  | succ fuel ih =>
    rw [notifyListeners,hnode,hproperty]
    cases hparent : node.poParent with
    | none =>
      simp only [Option.bind_eq_bind,Option.bind_some,hparent]
      exact ⟨_,rfl⟩
    | some parent =>
      obtain ⟨up,hup,-⟩ := s.forest.child ((parentOf_eq hnode).trans hparent)
      have hless := card_aboveIn_parent s.forest hnode hparent
      obtain ⟨⟨result,others⟩,hothers⟩ := ih hup (by omega)
      simp only [Option.bind_eq_bind,Option.bind_some,hparent,hothers]
      exact ⟨_,rfl⟩

variable {callbacks : List ChangeCallback}

section
variable (hnode : s.nodes.node self = some node)
include hnode

section
variable (hproperty : s.nodes.node poProperty = some property)
include hproperty

theorem notifyListeners_eq (h : s.notifyListeners answer (fuel + 1) self poProperty = some (result,callbacks)) :
    ∃ others, callbacks = (s.vecListeners self).map (fun listener =>
        ⟨listener,self,poProperty,strRelativePath node property⟩) ++ others ∧
      (node.poParent = none ∧ others = [] ∨ ∃ parent parentResult, node.poParent = some parent ∧
        s.notifyListeners answer fuel parent poProperty = some (parentResult,others)) := by
  rw [notifyListeners,hnode,hproperty] at h
  cases hparent : node.poParent with
  | none =>
    simp only [Option.bind_eq_bind,Option.bind_some,hparent] at h
    cases h
    exact ⟨[],(append_nil _).symm,.inl ⟨rfl,rfl⟩⟩
  | some parent =>
    simp only [Option.bind_eq_bind,Option.bind_some,hparent] at h
    obtain ⟨⟨parentResult,others⟩,hothers,h⟩ := Option.bind_eq_some_iff.mp h
    cases h
    exact ⟨others,rfl,.inr ⟨parent,parentResult,rfl,hothers⟩⟩

theorem of_mem_notifyListeners
    (h : s.notifyListeners answer fuel self poProperty = some (result,callbacks)) {callback : ChangeCallback}
    (hmem : callback ∈ callbacks) :
    callback.listener ∈ s.vecListeners callback.poProperty ∧ callback.poAffectedProperty = poProperty ∧
      Below s.nodes.parentOf callback.poProperty self ∧
      ∃ above, s.nodes.node callback.poProperty = some above ∧
      callback.strRelativePath = strRelativePath above property := by
  induction fuel generalizing self node result callbacks with
  | zero =>
    rw [notifyListeners] at h
    cases h
  | succ fuel ih =>
    obtain ⟨others,rfl,hothers⟩ := notifyListeners_eq hnode hproperty h
    cases mem_append.mp hmem with
    | inl hown =>
      obtain ⟨listener,hlistener,rfl⟩ := mem_map.mp hown
      exact ⟨hlistener,rfl,.refl,node,hnode,rfl⟩
    | inr hup =>
      obtain ⟨-,rfl⟩ | ⟨parent,parentResult,hparent,hothers⟩ := hothers
      · exact absurd hup not_mem_nil
      · have hup' := (parentOf_eq hnode).trans hparent
        obtain ⟨up,hparentNode,-⟩ := s.forest.child hup'
        obtain ⟨hlistener,haffected,hbelow,habove⟩ := ih hparentNode hothers hup
        exact ⟨hlistener,haffected,.step hbelow hup',habove⟩

theorem count_notifyListeners
    (h : s.notifyListeners answer fuel self poProperty = some (result,callbacks)) {up : PropertyNode}
    (hbelow : Below s.nodes.parentOf above self) (hup : s.nodes.node above = some up) (listener : Nat) :
    callbacks.count ⟨listener,above,poProperty,strRelativePath up property⟩ =
      (s.vecListeners above).count listener := by
  induction fuel generalizing self node result callbacks with
  | zero =>
    rw [notifyListeners] at h
    cases h
  | succ fuel ih =>
    obtain ⟨others,rfl,hothers⟩ := notifyListeners_eq hnode hproperty h
    rw [count_append]
    cases hbelow with
    | refl =>
      -- Nothing above the node is the node itself.
      have hnone : others.count ⟨listener,above,poProperty,strRelativePath up property⟩ = 0 := by
        refine count_eq_zero.mpr fun hmem => ?_
        obtain ⟨-,rfl⟩ | ⟨parent,parentResult,hparent,hothers⟩ := hothers
        · exact not_mem_nil hmem
        · have hself := (parentOf_eq hnode).trans hparent
          obtain ⟨parentNode,hparentNode,-⟩ := s.forest.child hself
          obtain ⟨-,-,hbelow,-⟩ := of_mem_notifyListeners hparentNode hproperty hothers hmem
          exact s.forest.grounded.not_below hself hbelow
      cases hnode.symm.trans hup
      rw [hnone,add_zero]
      have hinjective : Function.Injective fun listener : Nat =>
          (⟨listener,above,poProperty,strRelativePath up property⟩ : ChangeCallback) := fun _ _ heq =>
        (ChangeCallback.mk.inj heq).1
      exact count_map_of_injective _ _ hinjective listener
    | step hbelow hself =>
      have hown : ((s.vecListeners self).map fun listener =>
          (⟨listener,self,poProperty,strRelativePath node property⟩ : ChangeCallback)).count
            ⟨listener,above,poProperty,strRelativePath up property⟩ = 0 := by
        refine count_eq_zero.mpr fun hmem => ?_
        obtain ⟨_,-,heq⟩ := mem_map.mp hmem
        cases congrArg ChangeCallback.poProperty heq
        exact s.forest.grounded.not_below hself hbelow
      rw [hown,zero_add]
      obtain ⟨hroot,-⟩ | ⟨parent,parentResult,hparent,hothers⟩ := hothers
      · rw [parentOf_eq hnode,hroot] at hself
        cases hself
      · rw [parentOf_eq hnode,hparent] at hself
        cases hself
        obtain ⟨parentNode,hparentNode,-⟩ := s.forest.child ((parentOf_eq hnode).trans hparent)
        exact ih hparentNode hothers hbelow

end

end

end ListenedNodes

private theorem drop_eq_iff {path suffix : List Char} (hne : suffix ≠ []) (length : Nat) :
    path.drop length = suffix ↔ ∃ front : List Char, front.length = length ∧ path = front ++ suffix := by
  constructor
  · rintro rfl
    refine ⟨path.take length,?_,(take_append_drop _ _).symm⟩
    rw [length_take,min_eq_left]
    by_contra hshort
    exact hne (drop_eq_nil_of_le (by omega))
  · rintro ⟨front,rfl,rfl⟩
    exact drop_left

theorem strRelativePath_eq_iff (node property : PropertyNode) (names : List String) :
    strRelativePath node property = PropertyNodes.joinPieces names ↔ ListenedNodes.TellsNames node property names := by
  have htells : ListenedNodes.TellsNames node property names ↔
      (property.strPath.toList.drop node.strPath.toList.length = '.' :: (PropertyNodes.joinPieces names).toList ∨
        property.strPath.toList.drop node.strPath.toList.length = (PropertyNodes.joinPieces names).toList ∧
          (PropertyNodes.joinPieces names).toList ≠ [] ∧ (PropertyNodes.joinPieces names).toList.head? ≠ some '.') ∨
      property.strPath.toList.drop node.strPath.toList.length = [] ∧
        node.strName.toList = (PropertyNodes.joinPieces names).toList := by
    rw [ListenedNodes.TellsNames,drop_eq_nil_iff]
    refine or_congr_left ⟨?_,?_⟩
    · rintro ⟨front,hlength,hpath | ⟨hpath,hne,hhead⟩⟩
      · exact .inl ((drop_eq_iff (cons_ne_nil _ _) _).mpr ⟨front,hlength,hpath⟩)
      · exact .inr ⟨(drop_eq_iff hne _).mpr ⟨front,hlength,hpath⟩,hne,hhead⟩
    · rintro (hdrop | ⟨hdrop,hne,hhead⟩)
      · obtain ⟨front,hlength,hpath⟩ := (drop_eq_iff (cons_ne_nil _ _) _).mp hdrop
        exact ⟨front,hlength,.inl hpath⟩
      · obtain ⟨front,hlength,hpath⟩ := (drop_eq_iff hne _).mp hdrop
        exact ⟨front,hlength,.inr ⟨hpath,hne,hhead⟩⟩
  rw [htells,strRelativePath,← String.toList_inj]
  generalize (PropertyNodes.joinPieces names).toList = rel
  cases property.strPath.toList.drop node.strPath.toList.length with
  | nil =>
    refine ⟨fun hname => .inr ⟨rfl,hname⟩,?_⟩
    rintro ((hdrop | ⟨hdrop,hne,-⟩) | ⟨-,hname⟩)
    · cases hdrop
    · exact absurd hdrop.symm hne
    · exact hname
  | cons first rest =>
    by_cases hpoint : first = '.'
    · subst hpoint
      change (String.ofList rest).toList = rel ↔ _
      rw [String.toList_ofList]
      refine ⟨fun hrest => .inl (.inl (hrest ▸ rfl)),?_⟩
      rintro ((hdrop | ⟨rfl,-,hhead⟩) | ⟨hdrop,-⟩)
      · exact (List.cons.inj hdrop).2
      · exact absurd rfl hhead
      · cases hdrop
    · have hkept : (match first::rest with
          | [] => node.strName
          | '.' :: rest => String.ofList rest
          | path => String.ofList path) = String.ofList (first::rest) := by
        grind
      rw [hkept,String.toList_ofList]
      constructor
      · rintro rfl
        exact .inl (.inr ⟨rfl,cons_ne_nil _ _,fun hhead => hpoint (Option.some.inj hhead)⟩)
      · rintro ((hdrop | ⟨hdrop,-⟩) | ⟨hdrop,-⟩)
        · exact absurd (List.cons.inj hdrop).1 hpoint
        · exact hdrop
        · cases hdrop

theorem exists_node_of_below {nodes : PropertyNodes} (hforest : nodes.Forest) {above id : Nat} {node : PropertyNode}
    (hbelow : Below nodes.parentOf above id) (hnode : nodes.node id = some node) :
    ∃ up, nodes.node above = some up := by
  induction hbelow generalizing node with
  | refl => exact ⟨node,hnode⟩
  | step _ hparent ih =>
    obtain ⟨up,hup,-⟩ := hforest.child hparent
    exact ih hup

namespace ListenedNodes
variable {s : ListenedNodes} {self : Nat} {property : PropertyNode} {answer : ChangeCallback → Result}

theorem eachNotified_iff {self fuel : Nat}
    (hproperty : s.nodes.node self = some property) {result : Result} {callbacks : List ChangeCallback}
    (h : s.notifyListeners answer fuel self self = some (result,callbacks)) :
    s.EachNotified self callbacks ↔ ∀ above names node, NamesBelow s.nodes above self names → names ≠ [] →
      s.nodes.node above = some node → s.vecListeners above ≠ [] → TellsNames node property names := by
  constructor
  · intro hnotified above names node hnames hne hnode hlisteners
    obtain ⟨listener,hlistener⟩ := exists_mem_of_ne_nil _ hlisteners
    have hcount := hnotified.each above names listener hnames
    have hmem := count_pos_iff.mp (hcount ▸ count_pos_iff.mpr hlistener)
    obtain ⟨-,-,-,node',hnode',hpath⟩ := of_mem_notifyListeners hproperty hproperty h hmem
    cases hnode.symm.trans hnode'
    rw [relativeName,if_neg hne] at hpath
    exact (strRelativePath_eq_iff node property names).mp hpath.symm
  · intro htells
    have hpath : ∀ above names node, NamesBelow s.nodes above self names → s.nodes.node above = some node →
        s.vecListeners above ≠ [] → strRelativePath node property = relativeName s.nodes self names := by
      intro above names node hnames hnode hlisteners
      rw [relativeName]
      split
      · next hnil =>
        subst hnil
        cases hnames.eq_self
        cases hnode.symm.trans hproperty
        rw [strRelativePath,drop_length,hproperty]
        rfl
      · next hne =>
        exact (strRelativePath_eq_iff node property names).mpr (htells above names node hnames hne hnode hlisteners)
    refine ⟨fun above names listener hnames => ?_,fun callback hmem => ?_⟩
    · obtain ⟨node,hnode⟩ := exists_node_of_below s.forest (below_of_namesBelow hnames) hproperty
      by_cases hlisteners : s.vecListeners above = []
      · rw [hlisteners,count_nil]
        refine count_eq_zero.mpr fun hmem => ?_
        obtain ⟨hlistener,-⟩ := of_mem_notifyListeners hproperty hproperty h hmem
        exact not_mem_nil (hlisteners ▸ hlistener)
      · rw [← hpath above names node hnames hnode hlisteners]
        exact count_notifyListeners hproperty hproperty h (below_of_namesBelow hnames) hnode listener
    · obtain ⟨hlistener,haffected,hbelow,node,hnode,hrelative⟩ := of_mem_notifyListeners hproperty hproperty h hmem
      obtain ⟨names,hnames⟩ := exists_namesBelow hbelow
      exact ⟨haffected,names,hnames,hrelative.trans (hpath _ names node hnames hnode (ne_nil_of_mem hlistener))⟩

def Unheard (s : ListenedNodes) (self : Nat) : Prop :=
  ∀ above, Below s.nodes.parentOf above self → s.vecListeners above = []

theorem eachNotified_nil : s.EachNotified self [] ↔ s.Unheard self := by
  constructor
  · intro hnotified above hbelow
    obtain ⟨names,hnames⟩ := exists_namesBelow hbelow
    refine eq_nil_iff_forall_not_mem.mpr fun listener hlistener => ?_
    have hcount := hnotified.each above names listener hnames
    exact count_eq_zero.mp hcount.symm hlistener
  · intro hunheard
    refine ⟨fun above names listener hnames => ?_,fun _ hmem => absurd hmem not_mem_nil⟩
    rw [hunheard above (below_of_namesBelow hnames)]
    rfl

private theorem callbacks_eq_nil_iff {self fuel : Nat} (hproperty : s.nodes.node self = some property) {result : Result}
    {callbacks : List ChangeCallback} (h : s.notifyListeners answer fuel self self = some (result,callbacks)) :
    callbacks = [] ↔ s.Unheard self := by
  constructor
  · rintro rfl above hbelow
    obtain ⟨up,hup⟩ := exists_node_of_below s.forest hbelow hproperty
    refine eq_nil_iff_forall_not_mem.mpr fun listener hlistener => ?_
    have hcount := count_notifyListeners hproperty hproperty h hbelow hup listener
    exact count_eq_zero.mp hcount.symm hlistener
  · intro hunheard
    refine eq_nil_iff_forall_not_mem.mpr fun callback hmem => ?_
    obtain ⟨hlistener,-,hbelow,-⟩ := of_mem_notifyListeners hproperty hproperty h hmem
    exact not_mem_nil (hunheard _ hbelow ▸ hlistener)

def PathsTellNames (s : ListenedNodes) (self : Nat) (property : PropertyNode) : Prop :=
  ∀ above names node, NamesBelow s.nodes above self names → names ≠ [] → s.nodes.node above = some node →
    s.vecListeners above ≠ [] → TellsNames node property names

theorem call_eq (answer : ChangeCallback → Result) (s : ListenedNodes) {self : Nat} {property : PropertyNode}
    (hproperty : s.nodes.node self = some property) (valueCall : ValueCall) :
    ∃ result callbacks s', s.call answer self valueCall = some (result,s',callbacks) ∧
      s'.values self = (valueCall.apply (s.values self)).2.1 ∧
      ((valueCall.apply (s.values self)).2.2 = false ∧ callbacks = [] ∨
        (valueCall.apply (s.values self)).2.2 = true ∧ (callbacks = [] ↔ s.Unheard self) ∧
          (s.EachNotified self callbacks ↔ s.PathsTellNames self property)) := by
  rw [call]
  obtain ⟨result,values,notifies⟩ := valueCall.apply (s.values self)
  dsimp only
  cases notifies with
  | false =>
    exact ⟨result,[],{s with values := Function.update s.values self values},rfl,Function.update_self ..,
      .inl ⟨rfl,rfl⟩⟩
  | true =>
    generalize hs' : ({s with values := Function.update s.values self values} : ListenedNodes) = s'
    have hnodes : s'.nodes.node self = some property := hs' ▸ hproperty
    obtain ⟨⟨nResult,callbacks⟩,hwalk⟩ :
        ∃ outcome, s'.notifyListeners answer (s'.nodes.next + 1) self self = some outcome :=
      notifyListeners_isSome hnodes hnodes (lt_succ_of_le (card_aboveIn_le))
    have hnil := callbacks_eq_nil_iff hnodes hwalk
    have heach := eachNotified_iff hnodes hwalk
    subst hs'
    refine ⟨nResult,callbacks,{s with values := Function.update s.values self values},?_,Function.update_self ..,
      .inr ⟨rfl,hnil,?_⟩⟩
    · rw [if_pos rfl,hwalk]
      rfl
    · exact Iff.trans ⟨fun h => ⟨h.each,h.others⟩,fun h => ⟨h.each,h.others⟩⟩ heach

/-- A call notifies as it should exactly if nobody listens, or its numbers tell whether the values change, and then
the paths tell the names. -/
theorem notifies_change_iff (answer : ChangeCallback → Result) (s : ListenedNodes) {self : Nat}
    {property : PropertyNode} (hproperty : s.nodes.node self = some property) (valueCall : ValueCall) :
    s.NotifiesChange answer self valueCall ↔ s.Unheard self ∨ valueCall.NumbersDiffer (s.values self) ∧
        (valueCall.Changes (s.values self) → s.PathsTellNames self property) := by
  obtain ⟨result,callbacks,s',hcall,hvalues,hcallbacks⟩ := call_eq answer s hproperty valueCall
  have hmeets : s.NotifiesChange answer self valueCall ↔ (¬valueCall.Changes (s.values self) → callbacks = []) ∧
        (valueCall.Changes (s.values self) → s.EachNotified self callbacks) := by
    rw [← ValueCall.changes_iff,not_ne_iff,← hvalues]
    constructor
    · rintro ⟨_,_,_,hcall',hsame,hchanged⟩
      cases hcall.symm.trans hcall'
      exact ⟨hsame,hchanged⟩
    · rintro ⟨hsame,hchanged⟩
      exact ⟨result,s',callbacks,hcall,hsame,hchanged⟩
  have hdiffer := ValueCall.notifies_iff (s.values self) valueCall
  rw [ValueCall.changes_iff] at hdiffer
  rw [hmeets,← hdiffer]
  obtain ⟨hnotifies,rfl⟩ | ⟨hnotifies,hnil,heach⟩ := hcallbacks
  · rw [hnotifies,eachNotified_nil]
    by_cases hchanges : valueCall.Changes (s.values self)
    · simp [hchanges]
    · simp [hchanges]
  · have hquiet : s.Unheard self → s.PathsTellNames self property :=
      fun hunheard above names node hnames _ _ hlisteners =>
      absurd (hunheard above (below_of_namesBelow hnames)) hlisteners
    rw [hnotifies,hnil,heach]
    by_cases hchanges : valueCall.Changes (s.values self)
    · simpa [hchanges] using hquiet
    · simp [hchanges]

/-- A speed below a car, to which a listener of the car listens. -/
private def carNodes : PropertyNodes where
  node
    | 0 => some ⟨none,"Car","Car",[1]⟩
    | 1 => some ⟨some 0,"Speed","Car.Speed",[]⟩
    | _ => none
  next := 2

theorem carNodes_eq {id : Nat} {node : PropertyNode} (h : carNodes.node id = some node) :
    id = 0 ∧ node = ⟨none,"Car","Car",[1]⟩ ∨ id = 1 ∧ node = ⟨some 0,"Speed","Car.Speed",[]⟩ := by
  match id, h with
  | 0, h => exact .inl ⟨rfl,(Option.some.inj h).symm⟩
  | 1, h => exact .inr ⟨rfl,(Option.some.inj h).symm⟩

private theorem carNodes_parentOf {id parent : Nat} (h : carNodes.parentOf id = some parent) : id = 1 ∧ parent = 0 := by
  obtain ⟨node,hnode,hparent⟩ := exists_of_parentOf h
  obtain ⟨rfl,rfl⟩ | ⟨rfl,rfl⟩ := carNodes_eq hnode
  · cases hparent
  · exact ⟨rfl,(Option.some.inj hparent).symm⟩

private theorem carNodes_forest : carNodes.Forest where
  fresh h := by obtain ⟨rfl,-⟩ | ⟨rfl,-⟩ := carNodes_eq h <;> decide
  listed h hchild := by
    obtain ⟨rfl,rfl⟩ | ⟨rfl,rfl⟩ := carNodes_eq h
    · cases mem_singleton.mp hchild
      rfl
    · exact absurd hchild not_mem_nil
  child h := by
    obtain ⟨rfl,rfl⟩ := carNodes_parentOf h
    exact ⟨_,rfl,mem_singleton_self 1⟩
  nodup h := by obtain ⟨-,rfl⟩ | ⟨-,rfl⟩ := carNodes_eq h <;> decide
  grounded := ⟨id,fun _ _ h => by
    obtain ⟨rfl,rfl⟩ := carNodes_parentOf h
    decide⟩

def carTree : ListenedNodes where
  nodes := carNodes
  forest := carNodes_forest
  values _ := .integers 5 []
  vecListeners
    | 0 => [7]
    | _ => []

private theorem namesBelow_speed {above : Nat} {names : List String} (h : NamesBelow carNodes above 1 names) :
    names = [] ∨ above = 0 ∧ names = ["Speed"] := by
  cases h with
  | self => exact .inl rfl
  | child hup hnode hparent =>
    cases hnode
    cases hparent
    cases hup with
    | self => exact .inr ⟨rfl,rfl⟩
    | child _ hroot hnone =>
      cases hroot
      cases hnone

theorem speed_change_told : carTree.NotifiesChange (fun _ => .errNoError) 1 (.setValue (.integer 6)) := by
  refine (notifies_change_iff _ carTree (rfl : carTree.nodes.node 1 = some ⟨some 0,"Speed","Car.Speed",[]⟩) _).mpr
    (.inr ⟨trivial,fun _ above names node hnames hne hnode _ => ?_⟩)
  obtain rfl | ⟨rfl,rfl⟩ := namesBelow_speed hnames
  · exact absurd rfl hne
  · cases hnode
    exact .inl ⟨"Car".toList,rfl,.inl rfl⟩

/-- An integer that becomes a float of the same value: the type has changed and nobody is told. -/
theorem integer_turned_float : ¬∀ (answer : ChangeCallback → Result) (s : ListenedNodes) (self : Nat)
    (property : PropertyNode), s.nodes.node self = some property →
    ∀ valueCall, s.NotifiesChange answer self valueCall := by
  intro h
  let valueCall : ValueCall := .setValue (.float (.ofInt32 5))
  obtain ⟨result,s',callbacks,hcall,-,hchanged⟩ := h (fun _ => .errNoError) carTree 1 _ rfl valueCall
  obtain ⟨_,_,_,hcall',hvalues,hcallbacks⟩ := call_eq (fun _ => .errNoError) carTree
    (rfl : carTree.nodes.node 1 = some ⟨some 0,"Speed","Car.Speed",[]⟩) valueCall
  cases hcall.symm.trans hcall'
  obtain ⟨-,rfl⟩ | ⟨hnotifies,-⟩ := hcallbacks
  · have hfloat : s'.values 1 ≠ carTree.values 1 := hvalues ▸ nofun
    have hunheard := eachNotified_nil.mp (hchanged hfloat)
    have hlistener : [7] = [] := hunheard 0 (.step .refl rfl)
    cases hlistener
  · have hsilent : (valueCall.apply (carTree.values 1)).2.2 = false := by decide
    exact false_ne_true (hsilent.symm.trans hnotifies)

end ListenedNodes

end FepParticipant.PropertyTree
