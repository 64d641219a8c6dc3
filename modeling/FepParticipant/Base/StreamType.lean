import FepParticipant.DataRegistry.DataRegistryFEP2
import FepParticipant.Library.OrderedMap
import Mathlib.Data.List.TakeWhile
import Mathlib.Data.String.Basic

/-! Properties and stream types, their comparison and their assignment. -/
namespace FepParticipant.Base
open Library DataRegistry Signals List OrderedMap

/-- `Properties`: the map of the names to the values and types, ordered by the names. -/
structure Properties where
  properties : List (String × String × String)
  sorted : OrderedMap.Sorted properties

namespace Properties

def empty : Properties := ⟨[],List.Pairwise.nil⟩

def setProperty (self : Properties) (name value type : String) : Properties :=
  ⟨OrderedMap.assign (name,value,type) self.properties,sorted_assign self.sorted⟩

def find (self : Properties) (name : String) : Option (String × String) :=
  (self.properties.find? fun current => current.1 == name).map Prod.snd

def getProperty (self : Properties) (name : String) : String := ((self.find name).map Prod.fst).getD ""

/-- `isEqual` asks for the own properties only. -/
def isEqual (self properties : Properties) : Bool :=
  self.properties.all fun current => current.2.1 == properties.getProperty current.1

def copyTo (self properties : Properties) : Properties :=
  self.properties.foldl (fun properties current => properties.setProperty current.1 current.2.1 current.2.2) properties

/-- `getPropertyNames` pushes back on a list that has been resized, and the values. -/
def getPropertyNames (self : Properties) : List String :=
  List.replicate self.properties.length "" ++ self.properties.map fun current => current.2.1

end Properties

def cStr (text : String) : String := String.ofList (text.toList.takeWhile fun character => character != Char.ofNat 0)

theorem cStr_cStr (text : String) : cStr (cStr text) = cStr text := by
  rw [cStr,cStr,String.toList_ofList,takeWhile_idem]

/-- `StreamType` with the name of its `StreamMetaType`. -/
structure StreamType where
  metaTypeName : String
  toProperties : Properties

namespace StreamType

def getMetaTypeName (type : StreamType) : String := cStr type.metaTypeName

/-- `operator==`. -/
def equals (left right : StreamType) : Bool :=
  if left.getMetaTypeName != right.getMetaTypeName then false
  else left.toProperties.isEqual right.toProperties

/-- `operator=` from the interface; what the type held before is not removed. -/
def assign (type streamtype : StreamType) : StreamType :=
  ⟨streamtype.getMetaTypeName,streamtype.toProperties.copyTo type.toProperties⟩

def toRegistry (type : StreamType) : DataRegistry.StreamType :=
  ⟨type.getMetaTypeName,type.toProperties.properties.map fun current => (current.1,current.2.1)⟩

end StreamType

namespace Properties
variable {self properties : Properties} {name value : String}

def names (self : Properties) : List String := self.properties.map Prod.fst

/-- The names with their values. -/
def values (self : Properties) : List (String × String) := self.properties.map fun current => (current.1,current.2.1)

theorem sorted_values (self : Properties) : OrderedMap.Sorted self.values := pairwise_map.mpr self.sorted

theorem names_eq_map_values : self.names = self.values.map Prod.fst := by
  rw [names,values,map_map]
  rfl

theorem getProperty_of_mem (h : (name,value) ∈ self.values) : self.getProperty name = value := by
  obtain ⟨⟨found,value',type⟩,hmem,heq⟩ := mem_map.mp h
  cases heq
  rw [getProperty,find,(OrderedMap.find?_eq_some_iff self.sorted).mpr hmem]
  rfl

theorem getProperty_of_not_mem (h : name ∉ self.names) : self.getProperty name = "" := by
  have hnone : (self.properties.find? fun current => current.1 == name) = none := by
    rw [find?_eq_none]
    intro current hcurrent heq
    exact h (mem_map.mpr ⟨current,hcurrent,eq_of_beq heq⟩)
  rw [getProperty,find,hnone]
  rfl

theorem isEqual_iff : self.isEqual properties = true ↔
    ∀ current ∈ self.values, current.2 = properties.getProperty current.1 := by
  rw [isEqual,all_eq_true,values,forall_mem_map]
  exact forall_congr' fun _ => imp_congr_right fun _ => beq_iff_eq

theorem properties_copyTo (self properties : Properties) : (self.copyTo properties).properties =
    self.properties.foldl (fun map entry => OrderedMap.assign entry map) properties.properties := by
  rw [copyTo]
  induction self.properties generalizing properties with
  | nil => rfl
  | cons current rest ih => exact ih _

private theorem mem_values : (name,value) ∈ self.values ↔ ∃ type, (name,value,type) ∈ self.properties := by
  rw [values,mem_map]
  constructor
  · rintro ⟨⟨name,value,type⟩,hmem,heq⟩
    cases heq
    exact ⟨type,hmem⟩
  · rintro ⟨type,hmem⟩
    exact ⟨_,hmem,rfl⟩

private theorem mem_names : name ∈ self.names ↔ ∃ value, (name,value) ∈ self.values := by
  rw [names_eq_map_values,mem_map]
  constructor
  · rintro ⟨⟨name,value⟩,hmem,rfl⟩
    exact ⟨value,hmem⟩
  · rintro ⟨value,hmem⟩
    exact ⟨_,hmem,rfl⟩

theorem mem_values_copyTo : (name,value) ∈ (self.copyTo properties).values ↔
    (name,value) ∈ self.values ∨ (name,value) ∈ properties.values ∧ name ∉ self.names := by
  rw [mem_values,mem_values,mem_values,properties_copyTo,← exists_and_right,← exists_or]
  exact exists_congr fun type => mem_foldl_assign properties.sorted self.sorted

theorem copyTo_empty : self.copyTo empty = self := by
  have hproperties : (self.copyTo empty).properties = self.properties :=
    (properties_copyTo self empty).trans (foldl_assign_nil self.sorted)
  cases self
  exact Properties.mk.injEq .. |>.mpr hproperties

theorem values_eq_iff : self.values = properties.values ↔
    self.isEqual properties = true ∧ ∀ name, name ∈ self.names ↔ name ∈ properties.names := by
  constructor
  · intro h
    refine ⟨isEqual_iff.mpr fun current hcurrent => ?_,fun name => ?_⟩
    · exact (getProperty_of_mem (h ▸ hcurrent)).symm
    · rw [names_eq_map_values,names_eq_map_values,h]
  · rintro ⟨hequal,hnames⟩
    rw [isEqual_iff] at hequal
    refine self.sorted_values.ext properties.sorted_values fun ⟨name,value⟩ => ?_
    constructor
    · intro hmem
      obtain ⟨other,hother⟩ := mem_names.mp ((hnames name).mp (mem_names.mpr ⟨value,hmem⟩))
      have hvalue : value = properties.getProperty name := hequal _ hmem
      rw [getProperty_of_mem hother] at hvalue
      exact hvalue ▸ hother
    · intro hmem
      obtain ⟨own,hown⟩ := mem_names.mp ((hnames name).mpr (mem_names.mpr ⟨value,hmem⟩))
      have hvalue := hequal _ hown
      rw [getProperty_of_mem hmem] at hvalue
      exact hvalue ▸ hown

theorem isEqual_copyTo : self.isEqual (self.copyTo properties) = true :=
  isEqual_iff.mpr fun _ hcurrent => (getProperty_of_mem (mem_values_copyTo.mpr (.inl hcurrent))).symm

theorem copyTo_isEqual_iff : (self.copyTo properties).isEqual self = true ↔
    ∀ name value, (name,value) ∈ properties.values → name ∉ self.names → value = "" := by
  rw [isEqual_iff]
  constructor
  · intro h name value hmem hname
    have hvalue := h (name,value) (mem_values_copyTo.mpr (.inr ⟨hmem,hname⟩))
    rwa [getProperty_of_not_mem hname] at hvalue
  · rintro h ⟨name,value⟩ hmem
    rcases mem_values_copyTo.mp hmem with hown | ⟨hother,hname⟩
    · exact (getProperty_of_mem hown).symm
    · rw [h name value hother hname]
      exact (getProperty_of_not_mem hname).symm

theorem getPropertyNames_perm_iff : self.getPropertyNames.Perm self.names ↔ self.properties = [] := by
  constructor
  · intro h
    have hlength := h.length_eq
    rw [getPropertyNames,names,length_append,length_replicate,length_map,length_map] at hlength
    exact length_eq_zero_iff.mp (by omega)
  · intro h
    rw [getPropertyNames,names,h]
    exact .refl _

end Properties

namespace StreamType
variable {left right : StreamType}

/-- The names of the meta types and the values of all properties are the same. -/
def SameType (left right : StreamType) : Prop :=
  left.getMetaTypeName = right.getMetaTypeName ∧ left.toProperties.values = right.toProperties.values

/-- The comparison can tell the types apart: by their meta types or by a property of the left one with another value
on the right, empty if it is not there; or they have the same properties. -/
def Tells (left right : StreamType) : Prop :=
  left.getMetaTypeName ≠ right.getMetaTypeName ∨
    (∃ name value, (name,value) ∈ left.toProperties.values ∧ value ≠ right.toProperties.getProperty name) ∨
    ∀ name, name ∈ left.toProperties.names ↔ name ∈ right.toProperties.names

theorem equals_iff : left.equals right = true ↔
    left.getMetaTypeName = right.getMetaTypeName ∧ left.toProperties.isEqual right.toProperties = true := by
  rw [equals]
  by_cases hname : left.getMetaTypeName = right.getMetaTypeName
  · simp [hname]
  · simp [hname]

theorem SameType.symm (h : left.SameType right) : right.SameType left := ⟨h.1.symm,h.2.symm⟩

theorem tells_of_sameType (h : left.SameType right) : left.Tells right :=
  .inr (.inr (Properties.values_eq_iff.mp h.2).2)

private theorem tells_of_not_equals (h : ¬left.equals right = true) : left.Tells right := by
  by_cases hname : left.getMetaTypeName = right.getMetaTypeName
  · refine .inr (.inl ?_)
    by_contra hsame
    refine h (equals_iff.mpr ⟨hname,Properties.isEqual_iff.mpr fun ⟨name,value⟩ hmem => ?_⟩)
    by_contra hvalue
    exact hsame ⟨name,value,hmem,hvalue⟩
  · exact .inl hname

theorem equals_iff_sameType_iff : (left.equals right = true ↔ left.SameType right) ↔ left.Tells right := by
  constructor
  · intro h
    by_cases hsame : left.SameType right
    · exact tells_of_sameType hsame
    · exact tells_of_not_equals fun hequal => hsame (h.mp hequal)
  · rintro (hname | ⟨name,value,hmem,hvalue⟩ | hnames)
    · exact iff_of_false (fun hequal => hname (equals_iff.mp hequal).1) fun hsame => hname hsame.1
    · refine iff_of_false (fun hequal => hvalue ?_) fun hsame => hvalue ?_
      · exact Properties.isEqual_iff.mp (equals_iff.mp hequal).2 _ hmem
      · exact (Properties.getProperty_of_mem (hsame.2 ▸ hmem)).symm
    · rw [equals_iff,SameType,Properties.values_eq_iff]
      exact and_congr_right fun _ => (and_iff_left hnames).symm

theorem isEqual_toRegistry : left.toRegistry.isEqual right.toRegistry = left.equals right := by
  have hproperty (name : String) : right.toRegistry.getProperty name = right.toProperties.getProperty name := by
    rw [DataRegistry.StreamType.getProperty,toRegistry,find?_map,Option.map_map,Properties.getProperty,
      Properties.find,Option.map_map]
    rfl
  have hproperties : left.toRegistry.properties.all (fun property =>
        property.2 == right.toRegistry.getProperty property.1) =
      left.toProperties.isEqual right.toProperties := by
    rw [toRegistry,all_map,Properties.isEqual]
    exact congrArg _ (funext fun current => congrArg (current.2.1 == ·) (hproperty current.1))
  rw [DataRegistry.StreamType.isEqual,hproperties,equals]
  by_cases hname : left.getMetaTypeName = right.getMetaTypeName
  · simp [toRegistry,hname]
  · simp [toRegistry,hname]

/-- `registerDataIn` or `registerDataOut`. -/
abbrev Register := DataRegistryFEP2 → String → DataRegistry.StreamType → DataRegistryFEP2 × Result

def registerTwice (register : Register) (registry : DataRegistryFEP2) (name : String) (first second : StreamType) :
    Result :=
  (register (register registry name first.toRegistry).1 name second.toRegistry).2

variable {registry : DataRegistryFEP2} {name : String}

theorem find?_of_free {σ : Type} {signals : List σ} {nameOf : σ → String}
    (hfree : ∀ signal ∈ signals, nameOf signal ≠ name) : signals.find? (fun signal => nameOf signal == name) = none :=
  find?_eq_none.mpr fun signal hsignal heq => hfree signal hsignal (eq_of_beq heq)

theorem registerTwice_in (hfree : ∀ signal ∈ registry.ins, signal.name ≠ name)
    (hleft : isSupportedMetaType left.toRegistry = true) (hright : isSupportedMetaType right.toRegistry = true) :
    registerTwice DataRegistryFEP2.registerDataIn registry name left right =
      if left.equals right then .errNoError else .errInvalidType := by
  have hnone : registry.ins.find? (fun signal => signal.name == name) = none := find?_of_free hfree
  simp only [registerTwice,DataRegistryFEP2.registerDataIn,hleft,hright,hnone,Bool.not_true,Bool.false_eq_true,
    if_false,find?_append,Option.none_or,find?_singleton,DataSignal.new,beq_self_eq_true,if_true,
    isEqual_toRegistry]

theorem registerTwice_out (hfree : ∀ signal ∈ registry.outs, signal.name ≠ name)
    (hleft : isSupportedMetaType left.toRegistry = true) (hright : isSupportedMetaType right.toRegistry = true) :
    registerTwice DataRegistryFEP2.registerDataOut registry name left right =
      if left.equals right then .errNoError else .errInvalidType := by
  have hnone : registry.outs.find? (fun signal => signal.name == name) = none := find?_of_free hfree
  simp only [registerTwice,DataRegistryFEP2.registerDataOut,hleft,hright,hnone,Bool.not_true,Bool.false_eq_true,
    if_false,find?_append,Option.none_or,find?_singleton,DataSignal.new,beq_self_eq_true,if_true,
    isEqual_toRegistry]

def RefusedInEitherOrder (register : Register) (registry : DataRegistryFEP2) (name : String)
    (left right : StreamType) : Prop :=
  ¬left.SameType right → isFailed (registerTwice register registry name left right) = true ∧
    isFailed (registerTwice register registry name right left) = true

theorem refusedInEitherOrder_iff {register : Register}
    (h : ∀ {first second : StreamType}, isSupportedMetaType first.toRegistry = true →
      isSupportedMetaType second.toRegistry = true →
      registerTwice register registry name first second = if first.equals second then .errNoError else .errInvalidType)
    (hleft : isSupportedMetaType left.toRegistry = true) (hright : isSupportedMetaType right.toRegistry = true) :
    RefusedInEitherOrder register registry name left right ↔ left.Tells right ∧ right.Tells left := by
  have hfailed (first second : StreamType) :
      isFailed (if first.equals second then Result.errNoError else .errInvalidType) = true ↔
        ¬first.equals second = true := by
    split
    · exact iff_of_false (by decide) (fun h => h ‹_›)
    · exact iff_of_true (by decide) ‹_›
  rw [RefusedInEitherOrder,h hleft hright,h hright hleft,hfailed,hfailed]
  by_cases hsame : left.SameType right
  · exact iff_of_true (fun hdiffer => absurd hsame hdiffer) ⟨tells_of_sameType hsame,tells_of_sameType hsame.symm⟩
  · rw [imp_iff_right hsame,← equals_iff_sameType_iff,← equals_iff_sameType_iff]
    have hsame' : ¬right.SameType left := fun h => hsame h.symm
    refine and_congr ?_ ?_
    · exact (iff_false_right hsame).symm
    · exact (iff_false_right hsame').symm

private theorem equals_assign_iff :
    ((left.assign right).equals right = true ∧ right.equals (left.assign right) = true) ↔
    ∀ name value, (name,value) ∈ left.toProperties.values → name ∉ right.toProperties.names → value = "" := by
  have hname : (left.assign right).getMetaTypeName = right.getMetaTypeName := cStr_cStr right.metaTypeName
  rw [equals_iff,equals_iff,← Properties.copyTo_isEqual_iff]
  constructor
  · exact fun h => h.1.2
  · exact fun h => ⟨⟨hname,h⟩,hname.symm,Properties.isEqual_copyTo⟩

/-- The comparison, the refusal of a second type, the assignment, the copy into an empty property set and the list of
names, each with the types for which it is right. -/
theorem comparison_and_assignment :
    ((left.equals right = true ↔ left.SameType right) ↔ left.Tells right) ∧
    (isSupportedMetaType left.toRegistry = true → isSupportedMetaType right.toRegistry = true →
      ((∀ signal ∈ registry.ins, signal.name ≠ name) →
        (RefusedInEitherOrder DataRegistryFEP2.registerDataIn registry name left right ↔
          left.Tells right ∧ right.Tells left)) ∧
      ((∀ signal ∈ registry.outs, signal.name ≠ name) →
        (RefusedInEitherOrder DataRegistryFEP2.registerDataOut registry name left right ↔
          left.Tells right ∧ right.Tells left))) ∧
    (((left.assign right).equals right = true ∧ right.equals (left.assign right) = true) ↔
      ∀ name value, (name,value) ∈ left.toProperties.values → name ∉ right.toProperties.names → value = "") ∧
    left.toProperties.copyTo .empty = left.toProperties ∧
    (left.toProperties.getPropertyNames.Perm left.toProperties.names ↔ left.toProperties.properties = []) := by
  refine ⟨equals_iff_sameType_iff,fun hleft hright => ⟨fun hins => ?_,fun houts => ?_⟩,equals_assign_iff,
    Properties.copyTo_empty,Properties.getPropertyNames_perm_iff⟩
  · exact refusedInEitherOrder_iff (registerTwice_in hins) hleft hright
  · exact refusedInEitherOrder_iff (registerTwice_out houts) hleft hright

def rawWith (name value : String) : StreamType := ⟨metaTypeRaw,Properties.empty.setProperty name value "string"⟩

/-- Two values of one property are told apart, and the second registration is refused. -/
theorem different_values_refused :
    RefusedInEitherOrder DataRegistryFEP2.registerDataIn .new "image" (rawWith "width" "1") (rawWith "width" "2") ∧
      (rawWith "width" "1").toProperties.copyTo .empty = (rawWith "width" "1").toProperties := by
  have hleft : (rawWith "width" "1").Tells (rawWith "width" "2") :=
    .inr (.inl ⟨"width","1",mem_cons_self,by decide +kernel⟩)
  have hright : (rawWith "width" "2").Tells (rawWith "width" "1") :=
    .inr (.inl ⟨"width","2",mem_cons_self,by decide +kernel⟩)
  obtain ⟨-,hregister,-,hcopy,-⟩ := @comparison_and_assignment (rawWith "width" "1") (rawWith "width" "2")
    .new "image"
  have hrefused := (hregister (by decide +kernel) (by decide +kernel)).1 fun _ h => absurd h not_mem_nil
  exact ⟨hrefused.mpr ⟨hleft,hright⟩,hcopy⟩

/-- A type without properties is equal to one that has a property, which is not equal to it. -/
theorem fewer_properties_equal : (⟨metaTypeRaw,.empty⟩ : StreamType).equals (rawWith "width" "1") = true ∧
      ¬(⟨metaTypeRaw,.empty⟩ : StreamType).SameType (rawWith "width" "1") ∧
      (rawWith "width" "1").equals ⟨metaTypeRaw,.empty⟩ = false := by
  refine ⟨by decide +kernel,fun hsame => ?_,by decide +kernel⟩
  exact absurd hsame.2 (by decide +kernel)

end StreamType

end FepParticipant.Base
