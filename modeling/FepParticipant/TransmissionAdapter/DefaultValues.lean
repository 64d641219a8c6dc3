import FepParticipant.Library.SplitTokens
import FepParticipant.Result
import Mathlib.Data.List.TakeWhile

/-! The default values of a new sample: each leaf of the signal is looked up in its description by a visitor with one
position in the path. -/
namespace FepParticipant.TransmissionAdapter
open Library List Nat

/-- The types of a codec for which a default value is converted. -/
inductive LeafType where
  | bool | int8 | uInt8 | int16 | uInt16 | int32 | uInt32 | int64 | uInt64 | float | double

mutual

/-- `DDLElement`, with its default value if that is valid. -/
inductive DDLElement where
  | mk (strName : List Char) (arraySize : Nat) (defaultValue : Option (List Char)) (typeObject : DDLType)

/-- What a type object is visited as. -/
inductive DDLType where
  | dataType (type : LeafType)
  | complex (strName : List Char) (elements : List DDLElement)

end

namespace DDLElement

def strName : DDLElement → List Char
  | mk strName _ _ _ => strName

def defaultValue : DDLElement → Option (List Char)
  | mk _ _ defaultValue _ => defaultValue

end DDLElement

/-- `m_nPathIndex` and `m_poElementFound`. -/
structure LookupState where
  nPathIndex : Nat
  poElementFound : Option DDLElement

section Visitor
variable (strStructName : List Char) (strPathList : List (List Char))

mutual

def visitElement : DDLElement → LookupState → LookupState
  | .mk strName arraySize defaultValue typeObject, state =>
    if strPathList[state.nPathIndex]? = some strName then
      if state.nPathIndex + 1 = strPathList.length then
        ⟨state.nPathIndex + 1,some (.mk strName arraySize defaultValue typeObject)⟩
      else visitType typeObject {state with nPathIndex := state.nPathIndex + 1}
    else state

/-- At the beginning of the path the structure must be the signal's. -/
def visitType : DDLType → LookupState → LookupState
  | .dataType _, state => state
  | .complex strName elements, state =>
    if state.poElementFound.isNone ∧ (0 < state.nPathIndex ∨ strStructName = strName) then visitElements elements state
    else state

def visitElements : List DDLElement → LookupState → LookupState
  | [], state => state
  | element::elements, state =>
    if state.poElementFound.isSome then state else visitElements elements (visitElement element state)

end

end Visitor

/-- A structure of the description with its name. -/
structure DDLComplex where
  strName : List Char
  elements : List DDLElement

def visitDDL (strStructName : List Char) (strPathList : List (List Char)) :
    List DDLComplex → LookupState → LookupState
  | [], state => state
  | complex::structs, state =>
    if state.poElementFound.isSome then state
    else visitDDL strStructName strPathList structs
      (visitType strStructName strPathList (.complex complex.strName complex.elements) state)

/-- A leaf of a sample: its path, with the indices in arrays, and the element it belongs to. -/
structure Leaf where
  path : List (List Char × Option Nat)
  owner : DDLElement
  type : LeafType

namespace Leaf

def names (leaf : Leaf) : List (List Char) := leaf.path.map Prod.fst

def under (component : List Char × Option Nat) (leaf : Leaf) : Leaf := {leaf with path := component::leaf.path}

end Leaf

def components (strName : List Char) (arraySize : Nat) : List (List Char × Option Nat) :=
  if arraySize ≤ 1 then [(strName,none)] else (List.range arraySize).map fun index => (strName,some index)

mutual

def elementLeaves : DDLElement → List Leaf
  | .mk strName arraySize defaultValue typeObject =>
    (components strName arraySize).flatMap fun component =>
      (typeLeaves (.mk strName arraySize defaultValue typeObject) typeObject).map (Leaf.under component)

def typeLeaves (owner : DDLElement) : DDLType → List Leaf
  | .dataType type => [⟨[],owner,type⟩]
  | .complex _ elements => leaves elements

def leaves : List DDLElement → List Leaf
  | [] => []
  | element::elements => elementLeaves element ++ leaves elements

end

/-- Names are tokens of a path without an index, and a default value has a text. -/
def DDLElement.IsProper (element : DDLElement) : Prop :=
  IsToken '.' element.strName ∧ '[' ∉ element.strName ∧ element.defaultValue ≠ some []

mutual

def ElementWellFormed : DDLElement → Prop
  | .mk strName arraySize defaultValue typeObject =>
    DDLElement.IsProper (.mk strName arraySize defaultValue typeObject) ∧ TypeWellFormed typeObject

def TypeWellFormed : DDLType → Prop
  | .dataType _ => True
  | .complex _ elements => (elements.map DDLElement.strName).Nodup ∧ WellFormed elements

def WellFormed : List DDLElement → Prop
  | [] => True
  | element::elements => ElementWellFormed element ∧ WellFormed elements

end

/-- A description, in which the structures and the elements of each of them have different names. -/
structure DDLDescription where
  structs : List DDLComplex
  distinct : (structs.map DDLComplex.strName).Nodup
  wellFormed : ∀ complex ∈ structs, TypeWellFormed (.complex complex.strName complex.elements)

/-- What is left of a part of a path without the brackets and what stands between them. -/
def removeIndex (strValue : List Char) : List Char :=
  match strValue.dropWhile (· ≠ '[') with
  | [] => strValue
  | bracket::index =>
    match (bracket::index).dropWhile (· ≠ ']') with
    | [] => strValue
    | _::rest => strValue.takeWhile (· ≠ '[') ++ rest

/-- `StructElement`, with its type if it is one that a default value is converted for. -/
structure StructElement where
  name : List Char
  type : Option LeafType

/-- The codec of the DDL library for the sample, with the results of its functions, and the conversions of texts. -/
structure DefaultsCoder (V : Type) where
  isValid : Result
  elements : List StructElement
  getElement : Nat → Result
  setElementValue : Nat → V → Result
  convert : LeafType → List Char → V
  zero : V

section Initialization
variable {V : Type} (coder : DefaultsCoder V) (structs : List DDLComplex) (strSignalName : List Char)

/-- The text of the default value; it is empty if there is none. -/
def strDefaultValue (name : List Char) : List Char :=
  match (visitDDL strSignalName ((tokens '.' name).map removeIndex) structs ⟨0,none⟩).poElementFound with
  | some poElementFound => poElementFound.defaultValue.getD []
  | none => []

/-- The value for an element: of an unknown type it is zero. -/
def valueFor (pElem : StructElement) : V :=
  let text := strDefaultValue structs strSignalName pElem.name
  if text = [] then coder.zero
  else match pElem.type with
    | some type => coder.convert type text
    | none => coder.zero

/-- One pass of the loop. The result is that of the first failure. -/
def initializeElement (idx : Nat) (pElem : StructElement) (state : (Nat → Option V) × Result) :
    (Nat → Option V) × Result :=
  if isFailed (coder.getElement idx) then (state.1,if isOk state.2 then coder.getElement idx else state.2)
  else
    let value := valueFor coder structs strSignalName pElem
    let nLocalResult := coder.setElementValue idx value
    (if isOk nLocalResult then Function.update state.1 idx (some value) else state.1,
      if isOk state.2 then nLocalResult else state.2)

def initializeElements : Nat → List StructElement → (Nat → Option V) × Result → (Nat → Option V) × Result
  | _, [], state => state
  | idx, pElem::elements, state =>
    initializeElements (idx + 1) elements (initializeElement coder structs strSignalName idx pElem state)

/-- `InitializeSampleWithDefaultValues`: what it has set, and its result. -/
def initializeSampleWithDefaultValues : (Nat → Option V) × Result :=
  if isFailed coder.isValid then (fun _ => none,coder.isValid)
  else initializeElements coder structs strSignalName 0 coder.elements (fun _ => none,.errNoError)

end Initialization

def componentText (component : List Char × Option Nat) : List Char :=
  match component.2 with
  | none => component.1
  | some index => component.1 ++ '[' :: Nat.toDigits 10 index ++ [']']

namespace Leaf

/-- The entry of the codec: its dotted path with indices. -/
def entry (leaf : Leaf) : StructElement := ⟨['.'].intercalate (leaf.path.map componentText),some leaf.type⟩

/-- The names in its path are tokens without an index, and a default has a text. -/
def IsProper (leaf : Leaf) : Prop :=
  (∀ component ∈ leaf.path, IsToken '.' component.1 ∧ '[' ∉ component.1) ∧ leaf.owner.defaultValue ≠ some []

/-- The default of its element, or zero. -/
def value {V : Type} (coder : DefaultsCoder V) (leaf : Leaf) : V :=
  match leaf.owner.defaultValue with
  | some text => coder.convert leaf.type text
  | none => coder.zero

end Leaf

variable {strStructName : List Char} {strPathList : List (List Char)}

theorem visitElements_of_isSome {state : LookupState} (h : state.poElementFound.isSome = true)
    (elements : List DDLElement) : visitElements strStructName strPathList elements state = state := by
  cases elements with
  | nil => rw [visitElements]
  | cons element elements => rw [visitElements,if_pos h]

theorem fst_of_mem_components {strName : List Char} {arraySize : Nat} {component : List Char × Option Nat}
    (h : component ∈ components strName arraySize) : component.1 = strName := by
  rw [components] at h
  split at h
  · rw [mem_singleton.mp h]
  · obtain ⟨index,-,rfl⟩ := mem_map.mp h
    rfl

theorem names_of_mem_elementLeaves {element : DDLElement} {leaf : Leaf} (h : leaf ∈ elementLeaves element) :
    ∃ names, leaf.names = element.strName::names := by
  cases element with
  | mk strName arraySize defaultValue typeObject =>
    obtain ⟨component,hcomponent,hleaf⟩ := mem_flatMap.mp h
    obtain ⟨below,-,rfl⟩ := mem_map.mp hleaf
    exact ⟨below.names,congrArg (· :: below.names) (fst_of_mem_components hcomponent)⟩

theorem names_of_mem_leaves {elements : List DDLElement} {leaf : Leaf} (h : leaf ∈ leaves elements) :
    ∃ element ∈ elements, ∃ names, leaf.names = element.strName::names := by
  induction elements with
  | nil => cases h
  | cons element elements ih =>
    rw [leaves,mem_append] at h
    rcases h with h | h
    · exact ⟨element,mem_cons_self,names_of_mem_elementLeaves h⟩
    · obtain ⟨found,hmem,hnames⟩ := ih h
      exact ⟨found,mem_cons_of_mem _ hmem,hnames⟩

theorem drop_eq_cons {index : Nat} {name : List Char} {names : List (List Char)}
    (h : strPathList.drop index = name::names) :
    strPathList[index]? = some name ∧ strPathList.drop (index + 1) = names ∧
      (names = [] ↔ index + 1 = strPathList.length) := by
  have hget : strPathList[index]? = some name := by
    rw [← head?_drop,h,head?_cons]
  have hdrop : strPathList.drop (index + 1) = names := by
    rw [← drop_drop,h,drop_one,tail_cons]
  refine ⟨hget,hdrop,?_⟩
  obtain ⟨hlt,-⟩ := List.getElem?_eq_some_iff.mp hget
  rw [← hdrop,drop_eq_nil_iff]
  omega

mutual

/-- The element takes the first name of what is left of the path, and its type the rest. -/
theorem visitElement_leaf (element : DDLElement) (hwell : ElementWellFormed element) (leaf : Leaf)
    (hleaf : leaf ∈ elementLeaves element) (index : Nat) (hpath : strPathList.drop index = leaf.names) :
    (visitElement strStructName strPathList element ⟨index,none⟩).poElementFound = some leaf.owner := by
  cases element with
  | mk strName arraySize defaultValue typeObject =>
    obtain ⟨names,hnames⟩ := names_of_mem_elementLeaves hleaf
    obtain ⟨component,-,hleaf⟩ := mem_flatMap.mp hleaf
    obtain ⟨below,hbelow,rfl⟩ := mem_map.mp hleaf
    have hrest : below.names = names := (List.cons.inj hnames).2
    obtain ⟨hget,hdrop,hend⟩ := drop_eq_cons (hpath.trans hnames)
    subst hrest
    rw [visitElement,if_pos (show strPathList[index]? = some strName from hget)]
    cases typeObject with
    | dataType type =>
      rw [typeLeaves,mem_singleton] at hbelow
      subst hbelow
      rw [if_pos (hend.mp rfl)]
      rfl
    | complex strName elements =>
      have hmore : below.names ≠ [] := by
        obtain ⟨element,-,rest,hbelowNames⟩ := names_of_mem_leaves hbelow
        rw [hbelowNames]
        exact cons_ne_nil _ _
      rw [if_neg (mt hend.mpr hmore)]
      exact visitType_leaf (.complex strName elements) hwell.2 _ below hbelow (index + 1) (succ_pos _) hdrop hmore

theorem visitType_leaf (typeObject : DDLType) (hwell : TypeWellFormed typeObject) (owner : DDLElement) (leaf : Leaf)
    (hleaf : leaf ∈ typeLeaves owner typeObject) (index : Nat) (hindex : 0 < index)
    (hpath : strPathList.drop index = leaf.names) (hnames : leaf.names ≠ []) :
    (visitType strStructName strPathList typeObject ⟨index,none⟩).poElementFound = some leaf.owner := by
  cases typeObject with
  | dataType type =>
    rw [typeLeaves,mem_singleton] at hleaf
    exact absurd (by rw [hleaf]; rfl) hnames
  | complex strName elements =>
    rw [visitType,if_pos ⟨rfl,.inl hindex⟩]
    exact visitElements_leaf elements hwell.1 hwell.2 leaf (by rwa [typeLeaves] at hleaf) index hpath

/-- Only the element that the leaf is below has the name that comes next. -/
theorem visitElements_leaf (elements : List DDLElement) (hdistinct : (elements.map DDLElement.strName).Nodup)
    (hwell : WellFormed elements) (leaf : Leaf) (hleaf : leaf ∈ leaves elements) (index : Nat)
    (hpath : strPathList.drop index = leaf.names) :
    (visitElements strStructName strPathList elements ⟨index,none⟩).poElementFound = some leaf.owner := by
  cases elements with
  | nil =>
    rw [leaves] at hleaf
    cases hleaf
  | cons element elements =>
    rw [leaves,mem_append] at hleaf
    rw [visitElements,if_neg (by simp)]
    rcases hleaf with hleaf | hleaf
    · have hfound := visitElement_leaf element hwell.1 leaf hleaf index hpath
      rw [visitElements_of_isSome (by rw [hfound]; rfl),hfound]
    · obtain ⟨other,hother,names,hnames⟩ := names_of_mem_leaves hleaf
      have hne : element.strName ≠ other.strName := fun hsame =>
        (nodup_cons.mp hdistinct).1 (hsame ▸ mem_map_of_mem hother)
      have hsame : visitElement strStructName strPathList element ⟨index,none⟩ = ⟨index,none⟩ := by
        cases element with
        | mk strName arraySize defaultValue typeObject =>
          have hget := (drop_eq_cons (hpath.trans hnames)).1
          rw [visitElement,if_neg]
          rw [hget,Option.some.injEq]
          exact hne.symm
      rw [hsame]
      exact visitElements_leaf elements (nodup_cons.mp hdistinct).2 hwell.2 leaf hleaf index hpath

end

theorem visitDDL_leaf {structs : List DDLComplex} (hdistinct : (structs.map DDLComplex.strName).Nodup)
    (hwell : ∀ complex ∈ structs, TypeWellFormed (.complex complex.strName complex.elements))
    {complex : DDLComplex} (hcomplex : complex ∈ structs) (hname : complex.strName = strStructName) {leaf : Leaf}
    (hleaf : leaf ∈ leaves complex.elements) (hpath : strPathList = leaf.names) :
    (visitDDL strStructName strPathList structs ⟨0,none⟩).poElementFound = some leaf.owner := by
  induction structs with
  | nil => cases hcomplex
  | cons other structs ih =>
    obtain ⟨hother,hdistinct⟩ := nodup_cons.mp hdistinct
    obtain ⟨hfirst,hwell⟩ := forall_mem_cons.mp hwell
    rw [visitDDL,if_neg (by simp)]
    rcases mem_cons.mp hcomplex with rfl | hcomplex
    · rw [TypeWellFormed] at hfirst
      have hfound : (visitElements strStructName _ complex.elements ⟨0,none⟩).poElementFound = _ :=
        visitElements_leaf complex.elements hfirst.1 hfirst.2 leaf hleaf 0 hpath
      rw [visitType,if_pos ⟨rfl,.inr hname.symm⟩]
      cases structs with
      | nil => rwa [visitDDL]
      | cons next structs => rwa [visitDDL,if_pos (by rw [hfound]; rfl)]
    · have hne : strStructName ≠ other.strName := fun hsame =>
        hother (by rw [← hsame,← hname]; exact mem_map_of_mem hcomplex)
      rw [visitType,if_neg (by simp [hne])]
      exact ih hdistinct hwell hcomplex

theorem not_mem_toDigits {c : Char} (hc : c.isDigit = false) (index : Nat) : c ∉ Nat.toDigits 10 index :=
  fun hmem => by
    rw [isDigit_of_mem_toDigits (by decide) (by decide) hmem] at hc
    cases hc

theorem removeIndex_componentText {component : List Char × Option Nat} (h : '[' ∉ component.1) :
    removeIndex (componentText component) = component.1 := by
  obtain ⟨name,index⟩ := component
  have hname : ∀ c ∈ name, decide (c ≠ '[') = true := fun c hc => decide_eq_true fun hsame => h (hsame ▸ hc)
  cases index with
  | none => rw [componentText,removeIndex,dropWhile_eq_nil_iff.mpr hname]
  | some index =>
    have hindex : ∀ c ∈ '[' :: Nat.toDigits 10 index, decide (c ≠ ']') = true :=
      forall_mem_cons.mpr ⟨by decide,fun c hc => decide_eq_true fun hsame =>
        not_mem_toDigits (c := ']') (by decide) index (hsame ▸ hc)⟩
    have htext : componentText (name,some index) = name ++ (('[' :: Nat.toDigits 10 index) ++ [']']) := by
      simp [componentText]
    rw [htext,removeIndex,dropWhile_append_of_pos hname,cons_append,dropWhile_cons_of_neg (by decide)]
    dsimp only
    rw [← cons_append,dropWhile_append_of_pos hindex,dropWhile_cons_of_neg (by decide),
      takeWhile_append_of_pos hname,cons_append,takeWhile_cons_of_neg (by decide)]
    simp

mutual

theorem elementLeaves_proper (element : DDLElement) (hwell : ElementWellFormed element) (leaf : Leaf)
    (hleaf : leaf ∈ elementLeaves element) : leaf.IsProper := by
  cases element with
  | mk strName arraySize defaultValue typeObject =>
    obtain ⟨component,hcomponent,hleaf⟩ := mem_flatMap.mp hleaf
    obtain ⟨below,hbelow,rfl⟩ := mem_map.mp hleaf
    obtain ⟨hpath,howner⟩ := typeLeaves_proper typeObject hwell.2 _ hwell.1 below hbelow
    refine ⟨forall_mem_cons.mpr ⟨?_,hpath⟩,howner⟩
    rw [fst_of_mem_components hcomponent]
    exact ⟨hwell.1.1,hwell.1.2.1⟩

theorem typeLeaves_proper (typeObject : DDLType) (hwell : TypeWellFormed typeObject) (owner : DDLElement)
    (howner : owner.IsProper) (leaf : Leaf) (hleaf : leaf ∈ typeLeaves owner typeObject) : leaf.IsProper := by
  cases typeObject with
  | dataType type =>
    rw [typeLeaves,mem_singleton] at hleaf
    subst hleaf
    exact ⟨nofun,howner.2.2⟩
  | complex strName elements => exact leaves_proper elements hwell.2 leaf hleaf

theorem leaves_proper (elements : List DDLElement) (hwell : WellFormed elements) (leaf : Leaf)
    (hleaf : leaf ∈ leaves elements) : leaf.IsProper := by
  cases elements with
  | nil =>
    rw [leaves] at hleaf
    cases hleaf
  | cons element elements =>
    rw [leaves,mem_append] at hleaf
    rcases hleaf with hleaf | hleaf
    · exact elementLeaves_proper element hwell.1 leaf hleaf
    · exact leaves_proper elements hwell.2 leaf hleaf

end

/-- The path that is looked up for an entry is that of its leaf. -/
theorem path_entry {leaf : Leaf} (h : leaf.IsProper) : (tokens '.' leaf.entry.name).map removeIndex = leaf.names := by
  have htokens : tokens '.' leaf.entry.name = leaf.path.map componentText := by
    refine tokens_intercalate_iff.mpr (forall_mem_map.mpr fun component hcomponent => ?_)
    obtain ⟨⟨hne,hpoint⟩,-⟩ := h.1 component hcomponent
    obtain ⟨name,index⟩ := component
    cases index with
    | none => exact ⟨hne,hpoint⟩
    | some index =>
      refine ⟨by simp [componentText],?_⟩
      have hdigits := not_mem_toDigits (c := '.') (by decide) index
      simp_all [componentText]
  rw [htokens,map_map]
  exact map_congr_left fun component hcomponent => removeIndex_componentText (h.1 component hcomponent).2

section Initialization
variable {V : Type} {coder : DefaultsCoder V} {structs : List DDLComplex} {strSignalName : List Char}

/-- What getting and setting one element gives. -/
def localResult (coder : DefaultsCoder V) (idx : Nat) (value : V) : Result :=
  if isFailed (coder.getElement idx) then coder.getElement idx else coder.setElementValue idx value

/-- The first failure for values from an index on. -/
def firstFailure (coder : DefaultsCoder V) : Nat → List V → Result
  | _, [] => .errNoError
  | idx, value::values =>
    if isFailed (localResult coder idx value) then localResult coder idx value else firstFailure coder (idx + 1) values

theorem initializeElement_eq (idx : Nat) (pElem : StructElement) (state : (Nat → Option V) × Result) :
    initializeElement coder structs strSignalName idx pElem state =
      (if isOk (localResult coder idx (valueFor coder structs strSignalName pElem)) then
          Function.update state.1 idx (some (valueFor coder structs strSignalName pElem)) else state.1,
        if isOk state.2 then localResult coder idx (valueFor coder structs strSignalName pElem) else state.2) := by
  rw [initializeElement,localResult]
  split
  case isTrue hfailed =>
    have hnot : ¬isOk (coder.getElement idx) = true := by
      rw [(Bool.not_eq_true' _).mp hfailed]
      exact Bool.false_ne_true
    rw [if_neg hnot]
  case isFalse => rfl

/-- An element is set if that succeeds, and what is before or behind the elements stays as it is. -/
theorem initializeElements_fst (elements : List StructElement) (idx : Nat) (state : (Nat → Option V) × Result) :
    (∀ i < idx, (initializeElements coder structs strSignalName idx elements state).1 i = state.1 i) ∧
      ∀ i pElem, elements[i]? = some pElem →
        (initializeElements coder structs strSignalName idx elements state).1 (idx + i) =
          if isOk (localResult coder (idx + i) (valueFor coder structs strSignalName pElem)) then
            some (valueFor coder structs strSignalName pElem) else state.1 (idx + i) := by
  induction elements generalizing idx state with
  | nil => exact ⟨fun i _ => rfl,nofun⟩
  | cons first elements ih =>
    rw [initializeElements]
    obtain ⟨hbefore,hset⟩ := ih (idx + 1) (initializeElement coder structs strSignalName idx first state)
    have hother : ∀ i ≠ idx, (initializeElement coder structs strSignalName idx first state).1 i = state.1 i := by
      intro i hi
      rw [initializeElement_eq]
      split
      · exact Function.update_of_ne hi _ _
      · rfl
    refine ⟨fun i hi => (hbefore i (by omega)).trans (hother i (by omega)),fun i pElem hget => ?_⟩
    cases i with
    | zero =>
      have hfirst : pElem = first := (Option.some.inj hget).symm
      subst hfirst
      rw [Nat.add_zero idx,hbefore idx (Nat.lt_succ_self _),initializeElement_eq]
      split
      · exact Function.update_self ..
      · rfl
    | succ i =>
      have hnext := hset i pElem hget
      rw [hother _ (by omega),show idx + 1 + i = idx + (i + 1) by omega] at hnext
      exact hnext

theorem initializeElements_snd (elements : List StructElement) (idx : Nat) (state : (Nat → Option V) × Result) :
    (initializeElements coder structs strSignalName idx elements state).2 =
      if isOk state.2 then firstFailure coder idx
        (elements.map (valueFor coder structs strSignalName)) else state.2 := by
  induction elements generalizing idx state with
  | nil =>
    split
    case isTrue hok => exact (isOk_iff _).mp hok
    case isFalse => rfl
  | cons first elements ih =>
    rw [initializeElements,ih,initializeElement_eq,map_cons,firstFailure]
    by_cases hok : isOk state.2 = true
    · rw [if_pos hok,if_pos hok,isFailed]
      cases isOk (localResult coder idx (valueFor coder structs strSignalName first)) <;> rfl
    · rw [if_neg hok,if_neg hok,if_neg hok]

/-- The value for an entry of the codec is that of its leaf. -/
private theorem valueFor_entry (description : DDLDescription) {complex : DDLComplex}
    (hcomplex : complex ∈ description.structs)
    (hname : complex.strName = strSignalName) {leaf : Leaf} (hleaf : leaf ∈ leaves complex.elements) :
    valueFor coder description.structs strSignalName leaf.entry = leaf.value coder := by
  have hwell := description.wellFormed complex hcomplex
  have hproper := leaves_proper complex.elements hwell.2 leaf hleaf
  have hfound := visitDDL_leaf description.distinct description.wellFormed hcomplex hname hleaf (path_entry hproper)
  have htext : strDefaultValue description.structs strSignalName leaf.entry.name =
      leaf.owner.defaultValue.getD [] := by rw [strDefaultValue,hfound]
  rw [valueFor,htext,Leaf.value]
  cases hdefault : leaf.owner.defaultValue with
  | none => rfl
  | some text => exact if_neg fun hempty => hproper.2 (by rw [hdefault,← hempty]; rfl)

/-- If the codec lists the leaves, each that can be set holds the default of its element, or zero if there is none,
and the first failure is returned. -/
theorem default_values (description : DDLDescription) (complex : DDLComplex) (hcomplex : complex ∈ description.structs)
    (coder : DefaultsCoder V) (hvalid : isOk coder.isValid = true)
    (hentries : coder.elements = (leaves complex.elements).map Leaf.entry) :
    (∀ idx leaf, (leaves complex.elements)[idx]? = some leaf →
      (initializeSampleWithDefaultValues coder description.structs complex.strName).1 idx =
        if isOk (localResult coder idx (leaf.value coder)) then some (leaf.value coder) else none) ∧
      (initializeSampleWithDefaultValues coder description.structs complex.strName).2 =
        firstFailure coder 0 ((leaves complex.elements).map (Leaf.value coder)) := by
  rw [initializeSampleWithDefaultValues,if_neg (by simpa [isFailed] using hvalid)]
  constructor
  · intro idx leaf hleaf
    have hentry : coder.elements[idx]? = some leaf.entry := by rw [hentries,getElem?_map,hleaf,Option.map_some]
    have hset := (@initializeElements_fst V coder description.structs complex.strName coder.elements 0
      (fun _ => none,.errNoError)).2 idx leaf.entry hentry
    rwa [Nat.zero_add,valueFor_entry description hcomplex rfl (mem_of_getElem? hleaf)] at hset
  · rw [initializeElements_snd,hentries,map_map]
    exact congrArg _ (map_congr_left fun leaf hleaf => valueFor_entry description hcomplex rfl hleaf)

end Initialization

/-- Element `a`, and an inner structure that has an element `a` as well. -/
def nested : DDLComplex where
  strName := ['S']
  elements := [.mk ['a'] 1 (some ['1']) (.dataType .int8),
    .mk ['b'] 1 none (.complex ['T'] [.mk ['a'] 1 (some ['2']) (.dataType .uInt8)])]

def nestedDescription : DDLDescription where
  structs := [⟨['T'],[.mk ['a'] 1 (some ['2']) (.dataType .uInt8)]⟩,nested]
  distinct := by decide
  wellFormed := by
    simp [TypeWellFormed,WellFormed,ElementWellFormed,DDLElement.IsProper,DDLElement.strName,
      DDLElement.defaultValue,IsToken,nested]

def nestedCoder : DefaultsCoder (List Char) where
  isValid := .errNoError
  elements := [⟨['a'],some .int8⟩,⟨['b','.','a'],some .uInt8⟩]
  getElement _ := .errNoError
  setElementValue idx _ := if idx = 0 then .errFailed else .errNoError
  convert _ text := text
  zero := ['0']

theorem default_values_nested :
    (initializeSampleWithDefaultValues nestedCoder nestedDescription.structs ['S']).1 1 = some ['2'] ∧
      (initializeSampleWithDefaultValues nestedCoder nestedDescription.structs ['S']).2 = .errFailed := by
  obtain ⟨hset,hresult⟩ := default_values nestedDescription nested (by simp [nestedDescription]) nestedCoder rfl rfl
  exact ⟨hset 1 ⟨[(['b'],none),(['a'],none)],.mk ['a'] 1 (some ['2']) (.dataType .uInt8),.uInt8⟩ rfl,hresult⟩

end FepParticipant.TransmissionAdapter
