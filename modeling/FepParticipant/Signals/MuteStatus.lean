import FepParticipant.PropertyTree.TreeGrowth
import FepParticipant.Signals.SignalComponents

/-! The muting of output signals: a property of the participant, a property of each signal, and the flag of
each transmitter. When the properties tell whether a transmitter is muted. -/
namespace FepParticipant.Signals
open Library List Option PropertyTree Property

/-- `g_strElementHeaderPath_bGlobalMute`. -/
def globalMutePath : String := "Header.GlobalMute"

/-- `g_strSignalRegistryPath_RegisteredOutSignals`. -/
def registeredOutSignals : String := "ComponentConfig.SignalRegistry.RegisteredOutputSignals"

def outSignalPath (strSignalName field : String) : String :=
  registeredOutSignals ++ "." ++ strSignalName ++ "." ++ field

/-- `g_strSignalRegistryField_MutedSignal`. -/
def mutedSignalField : String := "bMutedSignal"

/-- The fields that a registration sets and the removal deletes. -/
def outSignalFields : List String := ["strSignalType","szSignalSize","bMappedSignal",mutedSignalField]

/-- A registered output signal with its handle, and `m_bIsMuted` of its transmitter. -/
structure OutputSignal where
  hSignalHandle : Nat
  strSignalName : String
  bIsMuted : Bool

/-- The output signals of the registry and the property tree. -/
structure MuteStatus where
  bAllowRegistration : Bool
  lstSignals : List OutputSignal
  tree : Property

/-- The operations, with what decides a registration before and behind the check of the name. -/
inductive MuteOperation where
  | registerSignal (strSignalName strSignalType : String) (szSampleSize : Nat) (hSignalHandle : Nat)
      (checked created : Result)
  | unregisterSignal (hSignalHandle : Nat)
  | setRegistrationAllowed (bAllow : Bool)
  | muteSignal (hSignal : Nat)
  | unmuteSignal (hSignal : Nat)
  | muteAll
  | unmuteAll
  | update (strAffectedSignal : String) (eSignalDirection : SignalDirection) (bMuteSignal : Bool)

namespace MuteStatus
variable (bIsMuted : Bool)

def setProperty (status : MuteStatus) (strPath : String) (value : Variant) : MuteStatus :=
  {status with tree := Property.setPropertyValue (pathNames strPath) value status.tree}

def deleteProperty (status : MuteStatus) (strPath : String) : MuteStatus :=
  {status with tree := Property.deleteProperty (pathNames strPath) status.tree}

/-- A participant with properties that were set before. -/
def new (properties : List (String × Variant)) : MuteStatus :=
  (properties.foldl (fun (status : MuteStatus) property => status.setProperty property.1 property.2)
    ⟨true,[],Property.create "" (.string "")⟩).setProperty globalMutePath (.boolean false)

variable (status : MuteStatus)

def setSignalProperties (strSignalName : String) (fields : List (String × Variant)) : MuteStatus :=
  fields.foldl (fun status field => status.setProperty (outSignalPath strSignalName field.1) field.2) status

def deleteSignalProperties (strSignalName : String) (fields : List String) : MuteStatus :=
  fields.foldl (fun status field => status.deleteProperty (outSignalPath strSignalName field)) status

/-- `GetSignalNameFromHandle`, with what else the handle stands for. -/
def findHandle (hSignal : Nat) : Option OutputSignal :=
  status.lstSignals.find? fun signal => signal.hSignalHandle == hSignal

def findName (strSignalName : String) : Option OutputSignal :=
  status.lstSignals.find? fun signal => signal.strSignalName == strSignalName

/-- `Mute` and `Unmute` of the transmitters that are meant. -/
def setMuted (meant : OutputSignal → Bool) : MuteStatus :=
  { status with
    lstSignals := status.lstSignals.map fun signal =>
      if meant signal then {signal with bIsMuted := bIsMuted} else signal }

/-- The signal gets into the list. -/
def addSignal (hSignalHandle : Nat) (strSignalName : String) : MuteStatus :=
  {status with lstSignals := status.lstSignals ++ [⟨hSignalHandle,strSignalName,false⟩]}

/-- `RegisterSignal` of an output signal; no other live signal has its handle. -/
def registerSignal (strSignalName strSignalType : String) (szSampleSize hSignalHandle : Nat)
    (checked created : Result) : Option (MuteStatus × Result) :=
  if !status.bAllowRegistration then some (status,.errInvalidState)
  else if isFailed checked then some (status,checked)
  else if (status.findName strSignalName).isSome then some (status,.errResourceInUse)
  else if isFailed created then some (status,created)
  else if (status.findHandle hSignalHandle).isSome then none
  else
    some ((status.addSignal hSignalHandle strSignalName).setSignalProperties strSignalName
      [("strSignalType",.string strSignalType),("szSignalSize",.integer (Int32.ofNat szSampleSize)),
        ("bMappedSignal",.boolean false),(mutedSignalField,.boolean false)],created)

/-- `UnregisterSignal` of an output signal. -/
def unregisterSignal (hSignalHandle : Nat) : MuteStatus × Result :=
  if !status.bAllowRegistration then (status,.errInvalidState)
  else
    match status.findHandle hSignalHandle with
    | none => (status,.errNotFound)
    | some signal =>
      let deleted := status.deleteSignalProperties signal.strSignalName outSignalFields
      ({deleted with lstSignals := deleted.lstSignals.eraseP fun signal => signal.hSignalHandle == hSignalHandle},
        .errNoError)

/-- `MuteSignal` and `UnmuteSignal`, which dereference the handle. -/
def setSignalMuted (hSignal : Nat) : Option (MuteStatus × Result) :=
  (status.findHandle hSignal).map fun signal =>
    ((status.setProperty (outSignalPath signal.strSignalName mutedSignalField) (.boolean bIsMuted)).setMuted bIsMuted
      fun signal => signal.hSignalHandle == hSignal,.errNoError)

/-- `MuteAll` and `UnmuteAll`. -/
def setAllMuted : MuteStatus × Result :=
  ((status.setProperty globalMutePath (.boolean bIsMuted)).setMuted bIsMuted fun _ => true,.errNoError)

/-- `Update` for a mute signal command, with the result that is transmitted. -/
def update (strAffectedSignal : String) (eSignalDirection : SignalDirection) (bMuteSignal : Bool) :
    Option (MuteStatus × Result) :=
  if eSignalDirection = .sdInput then some (status,.errNotSupported)
  else if strAffectedSignal = "*" then some (status.setAllMuted bMuteSignal)
  else if eSignalDirection = .sdUndefined then some (status,.errInvalidArg)
  else
    match status.findName strAffectedSignal with
    | none => some (status,.errNotFound)
    | some signal => status.setSignalMuted bMuteSignal signal.hSignalHandle

def call : MuteOperation → Option (MuteStatus × Result)
  | .registerSignal strSignalName strSignalType szSampleSize hSignalHandle checked created =>
    status.registerSignal strSignalName strSignalType szSampleSize hSignalHandle checked created
  | .unregisterSignal hSignalHandle => some (status.unregisterSignal hSignalHandle)
  | .setRegistrationAllowed bAllow => some ({status with bAllowRegistration := bAllow},.errNoError)
  | .muteSignal hSignal => status.setSignalMuted true hSignal
  | .unmuteSignal hSignal => status.setSignalMuted false hSignal
  | .muteAll => some (status.setAllMuted true)
  | .unmuteAll => some (status.setAllMuted false)
  | .update strAffectedSignal eSignalDirection bMuteSignal =>
    status.update strAffectedSignal eSignalDirection bMuteSignal

def step (operation : MuteOperation) : Option MuteStatus := (status.call operation).map Prod.fst

def globalMute : Bool := status.tree.getFlag (pathNames globalMutePath)

def mutedSignal (strSignalName : String) : Bool :=
  status.tree.getFlag (pathNames (outSignalPath strSignalName mutedSignalField))

/-- The transmitters are muted as the property tree says. -/
def InStep : Prop :=
  ∀ signal ∈ status.lstSignals, signal.bIsMuted = (status.globalMute || status.mutedSignal signal.strSignalName)

/-- The registration gets to the end. -/
def registers (strSignalName : String) (hSignalHandle : Nat) (checked created : Result) : Bool :=
  status.bAllowRegistration && isOk checked && (status.findName strSignalName).isNone && isOk created &&
    (status.findHandle hSignalHandle).isNone

/-- A signal has a place for its property in the tree to be muted, and is not unmuted under the global mute. -/
def CarefulMute (hSignal : Nat) : Prop :=
  ∀ signal ∈ status.findHandle hSignal,
    if bIsMuted then status.globalMute = false → "" ∉ pathNames (outSignalPath signal.strSignalName mutedSignalField)
    else status.globalMute = false

def CarefulMuteAll : Prop :=
  bIsMuted = false → ∀ signal ∈ status.lstSignals, status.mutedSignal signal.strSignalName = false

/-- Nothing is registered or unmuted under the global mute, which ends with no signal muted on its own; no muted
signal has a name without a place in the tree, or one below a deleted property. -/
def Careful : MuteOperation → Prop
  | .registerSignal strSignalName _ _ hSignalHandle checked created =>
    status.registers strSignalName hSignalHandle checked created = true → status.globalMute = false
  | .unregisterSignal hSignalHandle => status.bAllowRegistration = true → status.globalMute = false →
    ∀ signal ∈ status.findHandle hSignalHandle, ∀ other ∈ status.lstSignals, other.hSignalHandle ≠ hSignalHandle →
      status.mutedSignal other.strSignalName = true → ∀ field ∈ outSignalFields,
        ¬pathNames (outSignalPath signal.strSignalName field) <+:
          pathNames (outSignalPath other.strSignalName mutedSignalField)
  | .muteSignal hSignal => status.CarefulMute true hSignal
  | .unmuteSignal hSignal => status.CarefulMute false hSignal
  | .muteAll => status.CarefulMuteAll true
  | .unmuteAll => status.CarefulMuteAll false
  | .update strAffectedSignal eSignalDirection bMuteSignal =>
    eSignalDirection ≠ .sdInput →
      if strAffectedSignal = "*" then status.CarefulMuteAll bMuteSignal
      else eSignalDirection = .sdOutput → ∀ signal ∈ status.findName strAffectedSignal,
        status.CarefulMute bMuteSignal signal.hSignalHandle
  | .setRegistrationAllowed _ => True

end MuteStatus

variable {field : String}
variable {strSignalName : String}

theorem pathNames_outSignalPath (hfield : ProperName field) : pathNames (outSignalPath strSignalName field) =
      ((registeredOutSignals ++ "." ++ strSignalName).toList.splitOn '.').map String.ofList ++ [field] := by
  rw [outSignalPath,pathNames_point (registeredOutSignals ++ "." ++ strSignalName) field,pathNames_name hfield]

theorem outSignalPath_inj {strSignalName other field' : String} (hfield : ProperName field)
    (hfield' : ProperName field')
    (h : pathNames (outSignalPath strSignalName field) = pathNames (outSignalPath other field')) :
    strSignalName = other ∧ field = field' := by
  rw [pathNames_outSignalPath hfield,pathNames_outSignalPath hfield'] at h
  obtain ⟨hbefore,hlast⟩ := append_inj' h rfl
  have htext := congrArg String.toList (splitOn_point_injective hbefore)
  simp only [String.toList_append,append_right_inj] at htext
  exact ⟨String.toList_injective htext,head_eq_of_cons_eq hlast⟩

theorem properName_of_mem (hfield : field ∈ outSignalFields) : ProperName field := by
  revert field
  decide

theorem pathNames_globalMutePath : pathNames globalMutePath = ["Header","GlobalMute"] := by
  decide

theorem not_prefix_globalMutePath (hfield : field ∈ outSignalFields) :
    ¬pathNames (outSignalPath strSignalName field) <+: pathNames globalMutePath := by
  intro hbelow
  rw [pathNames_outSignalPath (properName_of_mem hfield),pathNames_globalMutePath] at hbelow
  have hother : ∀ field ∈ outSignalFields, field ∉ ["Header","GlobalMute"] := by decide
  exact hother field hfield (hbelow.subset (mem_append_right _ (mem_singleton_self field)))

theorem outSignalPath_ne_globalMutePath (strSignalName : String)
    (hfield : field ∈ outSignalFields) : pathNames (outSignalPath strSignalName field) ≠ pathNames globalMutePath :=
  fun hsame => not_prefix_globalMutePath hfield ⟨[],(append_nil _).trans hsame⟩

-- what the paths are is not computed again
attribute [irreducible] outSignalPath globalMutePath

namespace MuteStatus

variable {status after : MuteStatus} {strSignalName : String} {hSignal : Nat}
variable {value : Variant} {result : Result}

/-- The signals differ in their handles and in their names, and the property tree is one. -/
structure Kept (status : MuteStatus) : Prop where
  tree : status.tree.WellNamed
  handles : (status.lstSignals.map OutputSignal.hSignalHandle).Nodup
  names : (status.lstSignals.map OutputSignal.strSignalName).Nodup

@[simp] theorem lstSignals_setProperty (strPath : String) :
    (status.setProperty strPath value).lstSignals = status.lstSignals := rfl

@[simp] theorem lstSignals_addSignal :
    (status.addSignal hSignal strSignalName).lstSignals = status.lstSignals ++ [⟨hSignal,strSignalName,false⟩] := rfl

section
variable (h : status.tree.WellNamed)
include h

theorem wellNamed_setProperty (strPath : String) (value : Variant) :
    (status.setProperty strPath value).tree.WellNamed :=
  h.setPropertyValue _ value

theorem wellNamed_deleteProperty (strPath : String) : (status.deleteProperty strPath).tree.WellNamed :=
  Property.NamesMeet.deleteProperty h ⟨nodup_nil,not_mem_nil⟩
    (fun _ _ hless hall => ⟨hall.1.sublist hless,fun hmem => hall.2 (hless.subset hmem)⟩) _

theorem globalMute_setProperty {field : String} (hfield : field ∈ outSignalFields) (value : Variant) :
    (status.setProperty (outSignalPath strSignalName field) value).globalMute = status.globalMute := by
  have hne := outSignalPath_ne_globalMutePath strSignalName hfield
  rw [globalMute,setProperty,getFlag_setPropertyValue_of_ne h value hne.symm,globalMute]

theorem mutedSignal_setProperty {field other : String} (hfield : field ∈ outSignalFields)
    (hother : other ≠ strSignalName ∨ field ≠ mutedSignalField) :
    (status.setProperty (outSignalPath strSignalName field) value).mutedSignal other = status.mutedSignal other := by
  have hmuted : ProperName mutedSignalField := by decide
  have hne : pathNames (outSignalPath other mutedSignalField) ≠ pathNames (outSignalPath strSignalName field) := by
    intro hsame
    obtain ⟨hname,hsameField⟩ := outSignalPath_inj hmuted (properName_of_mem hfield) hsame
    exact hother.elim (fun h => h hname) fun h => h hsameField.symm
  rw [mutedSignal,setProperty,getFlag_setPropertyValue_of_ne h value hne,mutedSignal]

theorem mutedSignal_setProperty_self (b : Bool) :
    (status.setProperty (outSignalPath strSignalName mutedSignalField) (.boolean b)).mutedSignal strSignalName =
      (b && decide ("" ∉ pathNames (outSignalPath strSignalName mutedSignalField))) := by
  rw [mutedSignal,setProperty,getFlag_setPropertyValue h]

theorem globalMute_setProperty_self (b : Bool) : (status.setProperty globalMutePath (.boolean b)).globalMute = b := by
  rw [globalMute,setProperty,getFlag_setPropertyValue h,pathNames_globalMutePath]
  simp

theorem mutedSignal_setProperty_global (value : Variant) (other : String) :
    (status.setProperty globalMutePath value).mutedSignal other = status.mutedSignal other := by
  have hfield : mutedSignalField ∈ outSignalFields := by decide
  have hne := outSignalPath_ne_globalMutePath other hfield
  rw [mutedSignal,setProperty,getFlag_setPropertyValue_of_ne h value hne,mutedSignal]

theorem globalMute_deleteProperty (hfield : field ∈ outSignalFields) :
    (status.deleteProperty (outSignalPath strSignalName field)).globalMute = status.globalMute := by
  have hne : pathNames (outSignalPath strSignalName field) ≠ [] := by
    rw [pathNames_outSignalPath (properName_of_mem hfield)]
    exact append_ne_nil_of_right_ne_nil _ (cons_ne_nil _ _)
  rw [globalMute,deleteProperty,getFlag_deleteProperty h hne,if_neg (not_prefix_globalMutePath hfield)]
  rfl

theorem mutedSignal_deleteProperty (hfield : field ∈ outSignalFields)
    (other : String) : (status.deleteProperty (outSignalPath strSignalName field)).mutedSignal other =
      if pathNames (outSignalPath strSignalName field) <+: pathNames (outSignalPath other mutedSignalField) then false
      else status.mutedSignal other := by
  have hne : pathNames (outSignalPath strSignalName field) ≠ [] := by
    rw [pathNames_outSignalPath (properName_of_mem hfield)]
    exact append_ne_nil_of_right_ne_nil _ (cons_ne_nil _ _)
  rw [mutedSignal,deleteProperty,getFlag_deleteProperty h hne,mutedSignal]

end

theorem Kept.findHandle_eq_some (h : status.Kept) {signal : OutputSignal} :
    status.findHandle hSignal = some signal ↔ signal ∈ status.lstSignals ∧ signal.hSignalHandle = hSignal :=
  OrderedMap.find?_key_eq_some_iff h.handles

theorem Kept.setMuted (h : status.Kept) (bIsMuted : Bool) (meant : OutputSignal → Bool) :
    (status.setMuted bIsMuted meant).Kept := by
  have hsame {α : Type} (key : OutputSignal → α)
      (hkey : ∀ signal, key {signal with bIsMuted := bIsMuted} = key signal) :
      (status.setMuted bIsMuted meant).lstSignals.map key = status.lstSignals.map key := by
    rw [MuteStatus.setMuted,List.map_map]
    refine map_congr_left fun signal _ => ?_
    rw [Function.comp_apply]
    split
    · exact hkey signal
    · rfl
  exact ⟨h.tree,hsame OutputSignal.hSignalHandle (fun _ => rfl) ▸ h.handles,
    hsame OutputSignal.strSignalName (fun _ => rfl) ▸ h.names⟩

theorem Kept.setProperty (h : status.Kept) (strPath : String) (value : Variant) :
    (status.setProperty strPath value).Kept :=
  ⟨wellNamed_setProperty h.tree strPath value,h.handles,h.names⟩

theorem Kept.addSignal (h : status.Kept) (hname : ∀ signal ∈ status.lstSignals, signal.strSignalName ≠ strSignalName)
    (hhandle : ∀ signal ∈ status.lstSignals, signal.hSignalHandle ≠ hSignal) :
    (status.addSignal hSignal strSignalName).Kept := by
  refine ⟨h.tree,?_,?_⟩
  · rw [MuteStatus.addSignal,map_append,map_singleton,← concat_eq_append]
    refine h.handles.concat fun hmem => ?_
    obtain ⟨signal,hsignal,hsame⟩ := mem_map.mp hmem
    exact hhandle signal hsignal hsame
  · rw [MuteStatus.addSignal,map_append,map_singleton,← concat_eq_append]
    refine h.names.concat fun hmem => ?_
    obtain ⟨signal,hsignal,hsame⟩ := mem_map.mp hmem
    exact hname signal hsignal hsame

theorem inStep_setMuted (bIsMuted : Bool) (meant : OutputSignal → Bool) :
    (status.setMuted bIsMuted meant).InStep ↔ ∀ signal ∈ status.lstSignals,
      (if meant signal then bIsMuted else signal.bIsMuted) =
        (status.globalMute || status.mutedSignal signal.strSignalName) := by
  rw [InStep,MuteStatus.setMuted,List.forall_mem_map]
  refine forall₂_congr fun signal _ => ?_
  cases meant signal <;> rfl

theorem setSignalMuted_inStep (h : status.Kept) (hstep : status.InStep) {bIsMuted : Bool}
    (hcall : status.setSignalMuted bIsMuted hSignal = some (after,result)) :
    after.Kept ∧ (after.InStep ↔ status.CarefulMute bIsMuted hSignal) := by
  obtain ⟨signal,hfound,hafter⟩ := map_eq_some_iff.mp hcall
  obtain rfl : _ = after := congrArg Prod.fst hafter
  obtain ⟨hmem,rfl⟩ := h.findHandle_eq_some.mp hfound
  have hfield : mutedSignalField ∈ outSignalFields := by decide
  refine ⟨(h.setProperty _ _).setMuted _ _,?_⟩
  rw [inStep_setMuted,lstSignals_setProperty,globalMute_setProperty h.tree hfield,CarefulMute,hfound]
  have hself : (∀ found ∈ some signal, if bIsMuted then status.globalMute = false →
        "" ∉ pathNames (outSignalPath found.strSignalName mutedSignalField) else status.globalMute = false) ↔
      bIsMuted = (status.globalMute ||
        (bIsMuted && decide ("" ∉ pathNames (outSignalPath signal.strSignalName mutedSignalField)))) := by
    cases bIsMuted <;> cases status.globalMute <;> simp
  rw [hself]
  constructor
  · intro hall
    simpa [mutedSignal_setProperty_self h.tree] using hall signal hmem
  · intro hsignal other hother
    by_cases hhandle : other.hSignalHandle = signal.hSignalHandle
    · obtain rfl := inj_on_of_nodup_map h.handles hother hmem hhandle
      simpa [mutedSignal_setProperty_self h.tree] using hsignal
    · have hname : other.strSignalName ≠ signal.strSignalName := fun hsame =>
        hhandle (congrArg _ (inj_on_of_nodup_map h.names hother hmem hsame))
      rw [mutedSignal_setProperty h.tree hfield (.inl hname),if_neg (by simpa using hhandle)]
      exact hstep other hother

theorem setAllMuted_inStep (h : status.Kept) (bIsMuted : Bool) :
    (status.setAllMuted bIsMuted).1.Kept ∧
    ((status.setAllMuted bIsMuted).1.InStep ↔ status.CarefulMuteAll bIsMuted) := by
  refine ⟨(h.setProperty _ _).setMuted _ _,?_⟩
  rw [setAllMuted,inStep_setMuted,lstSignals_setProperty,globalMute_setProperty_self h.tree,CarefulMuteAll,
    forall_comm]
  refine forall_congr' fun signal => ?_
  rw [forall_comm]
  refine forall_congr' fun hmem => ?_
  rw [mutedSignal_setProperty_global h.tree,if_pos rfl]
  cases bIsMuted <;> cases status.mutedSignal signal.strSignalName <;> simp

private theorem setSignalProperties_cons (field : String × Variant)
    (fields : List (String × Variant)) : status.setSignalProperties strSignalName (field::fields) =
      (status.setProperty (outSignalPath strSignalName field.1) field.2).setSignalProperties strSignalName fields :=
  rfl

theorem deleteSignalProperties_cons (fields : List String) :
    status.deleteSignalProperties strSignalName (field::fields) =
      (status.deleteProperty (outSignalPath strSignalName field)).deleteSignalProperties strSignalName fields :=
  rfl

theorem setSignalProperties_spec (h : status.Kept)
    {fields : List (String × Variant)} (hfields : ∀ field ∈ fields, field.1 ∈ outSignalFields) :
    (status.setSignalProperties strSignalName fields).Kept ∧
      (status.setSignalProperties strSignalName fields).lstSignals = status.lstSignals ∧
      (status.setSignalProperties strSignalName fields).globalMute = status.globalMute ∧
      ∀ other, other ≠ strSignalName →
        (status.setSignalProperties strSignalName fields).mutedSignal other = status.mutedSignal other := by
  induction fields generalizing status with
  | nil => exact ⟨h,rfl,rfl,fun _ _ => rfl⟩
  | cons field fields ih =>
    rw [forall_mem_cons] at hfields
    obtain ⟨hkept,hlist,hglobal,hother⟩ := ih (h.setProperty (outSignalPath strSignalName field.1) field.2) hfields.2
    rw [globalMute_setProperty h.tree hfields.1] at hglobal
    rw [setSignalProperties_cons]
    refine ⟨hkept,hlist,hglobal,fun other hne => ?_⟩
    rw [hother other hne,mutedSignal_setProperty h.tree hfields.1 (.inl hne)]

theorem setSignalProperties_append (fields : List (String × Variant))
    (field : String × Variant) : status.setSignalProperties strSignalName (fields ++ [field]) =
      (status.setSignalProperties strSignalName fields).setProperty (outSignalPath strSignalName field.1) field.2 := by
  rw [setSignalProperties,foldl_append]
  rfl

theorem registerSignal_cases {strSignalType : String} {szSampleSize : Nat} {checked created result : Result}
    (hcall : status.registerSignal strSignalName strSignalType szSampleSize hSignal checked created =
      some (after,result)) : (status.registers strSignalName hSignal checked created = false ∧ after = status) ∨
    (status.registers strSignalName hSignal checked created = true ∧
      ∃ fields : List (String × Variant), (∀ field ∈ fields, field.1 ∈ outSignalFields) ∧
        after = (status.addSignal hSignal strSignalName).setSignalProperties strSignalName
          (fields ++ [(mutedSignalField,.boolean false)])) := by
  cases hregisters : status.registers strSignalName hSignal checked created with
  | true =>
    simp only [registers,Bool.and_eq_true,isNone_iff_eq_none] at hregisters
    obtain ⟨⟨⟨⟨hallow,hchecked⟩,hname⟩,hcreated⟩,hhandle⟩ := hregisters
    simp only [registerSignal,isFailed,hallow,hchecked,hname,hcreated,hhandle,Bool.not_true,Bool.false_eq_true,
      if_false,isSome_none] at hcall
    refine .inr ⟨rfl,[("strSignalType",.string strSignalType),("szSignalSize",.integer (Int32.ofNat szSampleSize)),
      ("bMappedSignal",.boolean false)],?_,congrArg Prod.fst (some.inj hcall.symm)⟩
    simp [outSignalFields]
  | false =>
    refine .inl ⟨rfl,?_⟩
    rw [registerSignal,isFailed,isFailed] at hcall
    split at hcall
    · exact congrArg Prod.fst (some.inj hcall.symm)
    · split at hcall
      · exact congrArg Prod.fst (some.inj hcall.symm)
      · split at hcall
        · exact congrArg Prod.fst (some.inj hcall.symm)
        · split at hcall
          · exact congrArg Prod.fst (some.inj hcall.symm)
          · split at hcall
            · cases hcall
            · simp_all [registers]

theorem registerSignal_inStep (h : status.Kept) (hstep : status.InStep) {strSignalType : String}
    {szSampleSize : Nat} {checked created result : Result}
    (hcall : status.registerSignal strSignalName strSignalType szSampleSize hSignal checked created =
      some (after,result)) : after.Kept ∧ (after.InStep ↔
      (status.registers strSignalName hSignal checked created = true → status.globalMute = false)) := by
  rcases registerSignal_cases hcall with ⟨hnot,rfl⟩ | ⟨hregisters,fields,hfields,rfl⟩
  · exact ⟨h,iff_of_true hstep fun hregisters => absurd (hnot.symm.trans hregisters) Bool.false_ne_true⟩
  · have hfree := hregisters
    simp only [registers,Bool.and_eq_true,isNone_iff_eq_none] at hfree
    have hname : ∀ signal ∈ status.lstSignals, signal.strSignalName ≠ strSignalName := fun signal hmem hsame =>
      find?_eq_none.mp hfree.1.1.2 signal hmem (beq_iff_eq.mpr hsame)
    have hhandle : ∀ signal ∈ status.lstSignals, signal.hSignalHandle ≠ hSignal := fun signal hmem hsame =>
      find?_eq_none.mp hfree.2 signal hmem (beq_iff_eq.mpr hsame)
    have hadded : (status.addSignal hSignal strSignalName).Kept := h.addSignal hname hhandle
    obtain ⟨hkept,hlist,hglobal,hother⟩ := setSignalProperties_spec hadded hfields
    rw [setSignalProperties_append]
    refine ⟨hkept.setProperty _ _,?_⟩
    have hfield : mutedSignalField ∈ outSignalFields := by decide
    rw [InStep,lstSignals_setProperty,hlist,globalMute_setProperty hkept.tree hfield,hglobal,lstSignals_addSignal,
      forall_mem_append,forall_mem_singleton,mutedSignal_setProperty_self hkept.tree,Bool.false_and,
      Bool.or_false,imp_iff_right hregisters]
    refine (and_iff_right fun signal hmem => ?_).trans eq_comm
    rw [mutedSignal_setProperty hkept.tree hfield (.inl (hname signal hmem)),hother _ (hname signal hmem)]
    exact hstep signal hmem

theorem deleteSignalProperties_spec (h : status.Kept) {fields : List String}
    (hfields : ∀ field ∈ fields, field ∈ outSignalFields) : (status.deleteSignalProperties strSignalName fields).Kept ∧
      (status.deleteSignalProperties strSignalName fields).lstSignals = status.lstSignals ∧
      (status.deleteSignalProperties strSignalName fields).globalMute = status.globalMute ∧
      ∀ other, (status.deleteSignalProperties strSignalName fields).mutedSignal other = true ↔
        status.mutedSignal other = true ∧ ∀ field ∈ fields,
          ¬pathNames (outSignalPath strSignalName field) <+: pathNames (outSignalPath other mutedSignalField) := by
  induction fields generalizing status with
  | nil => exact ⟨h,rfl,rfl,fun other => (and_iff_left fun _ hmem => absurd hmem not_mem_nil).symm⟩
  | cons field fields ih =>
    rw [forall_mem_cons] at hfields
    have hdeleted : (status.deleteProperty (outSignalPath strSignalName field)).Kept :=
      ⟨wellNamed_deleteProperty h.tree _,h.handles,h.names⟩
    obtain ⟨hkept,hlist,hglobal,hmuted⟩ := ih hdeleted hfields.2
    rw [globalMute_deleteProperty h.tree hfields.1] at hglobal
    rw [deleteSignalProperties_cons]
    refine ⟨hkept,hlist,hglobal,fun other => ?_⟩
    rw [hmuted other,mutedSignal_deleteProperty h.tree hfields.1,forall_mem_cons]
    by_cases hbelow :
        pathNames (outSignalPath strSignalName field) <+: pathNames (outSignalPath other mutedSignalField)
    · simp [hbelow]
    · simp [hbelow]

private theorem or_flag_eq_iff {other before after : Bool} {p : Prop} (h : after = true ↔ before = true ∧ p) :
    (other || before) = (other || after) ↔ (other = false → before = true → p) := by
  cases other <;> cases before <;> cases after <;> simp_all

theorem unregisterSignal_inStep (h : status.Kept) (hstep : status.InStep) : (status.unregisterSignal hSignal).1.Kept ∧
      ((status.unregisterSignal hSignal).1.InStep ↔ status.Careful (.unregisterSignal hSignal)) := by
  rw [unregisterSignal,Careful]
  cases hallow : status.bAllowRegistration with
  | false => exact ⟨h,iff_of_true hstep fun hnot => absurd hnot Bool.false_ne_true⟩
  | true =>
    cases hfound : status.findHandle hSignal with
    | none => exact ⟨h,iff_of_true hstep fun _ _ signal hsignal => nomatch hsignal⟩
    | some signal =>
      obtain ⟨hkept,hlist,hglobal,hmuted⟩ := deleteSignalProperties_spec h fun _ hfield => hfield
      refine ⟨⟨hkept.tree,hkept.handles.sublist (eraseP_sublist.map _),hkept.names.sublist (eraseP_sublist.map _)⟩,?_⟩
      have hleft : ∀ other ∈ status.lstSignals, (other.bIsMuted = ((status.deleteSignalProperties signal.strSignalName
          outSignalFields).globalMute || (status.deleteSignalProperties signal.strSignalName
            outSignalFields).mutedSignal other.strSignalName) ↔
          (status.globalMute = false → status.mutedSignal other.strSignalName = true → ∀ field ∈ outSignalFields,
            ¬pathNames (outSignalPath signal.strSignalName field) <+:
              pathNames (outSignalPath other.strSignalName mutedSignalField))) := by
        intro other hother
        rw [hstep other hother,hglobal]
        exact or_flag_eq_iff (hmuted other.strSignalName)
      dsimp only
      constructor
      · intro hafter _ hglobalMute found hsame other hother hhandle
        cases hsame
        have hmem' := (OrderedMap.mem_eraseP_key_iff h.handles).mpr ⟨hother,hhandle⟩
        exact (hleft other hother).mp (hafter other hmem') hglobalMute
      · intro hcareful other hother
        obtain ⟨hbefore,hhandle⟩ := (OrderedMap.mem_eraseP_key_iff h.handles).mp hother
        exact (hleft other hbefore).mpr fun hglobalMute => hcareful rfl hglobalMute signal rfl other hbefore hhandle

theorem step_inStep (h : status.Kept) (hstep : status.InStep) {operation : MuteOperation}
    (hnext : status.step operation = some after) : after.Kept ∧ (after.InStep ↔ status.Careful operation) := by
  obtain ⟨⟨next,result⟩,hcall,rfl⟩ := map_eq_some_iff.mp hnext
  cases operation with
  | registerSignal => exact registerSignal_inStep h hstep hcall
  | unregisterSignal hSignal =>
    obtain rfl : _ = next := congrArg Prod.fst (some.inj hcall)
    exact unregisterSignal_inStep h hstep
  | setRegistrationAllowed bAllow =>
    cases hcall
    exact ⟨⟨h.tree,h.handles,h.names⟩,iff_of_true hstep trivial⟩
  | muteSignal => exact setSignalMuted_inStep h hstep hcall
  | unmuteSignal => exact setSignalMuted_inStep h hstep hcall
  | muteAll =>
    cases hcall
    exact setAllMuted_inStep h true
  | unmuteAll =>
    cases hcall
    exact setAllMuted_inStep h false
  | update strAffectedSignal eSignalDirection bMuteSignal =>
    rw [call,update] at hcall
    rw [Careful]
    split at hcall
    · rename_i hinput
      cases hcall
      exact ⟨h,iff_of_true hstep fun hnot => absurd hinput hnot⟩
    · rename_i hinput
      rw [imp_iff_right hinput]
      split at hcall
      · rename_i hall
        rw [if_pos hall]
        cases hcall
        exact setAllMuted_inStep h bMuteSignal
      · rename_i hone
        rw [if_neg hone]
        split at hcall
        · rename_i hundefined
          cases hcall
          exact ⟨h,iff_of_true hstep fun hnot => absurd (hundefined.symm.trans hnot) nofun⟩
        · rename_i hundefined
          have houtput : eSignalDirection = .sdOutput := by
            cases eSignalDirection with
            | sdUndefined => exact absurd rfl hundefined
            | sdInput => exact absurd rfl hinput
            | sdOutput => rfl
          rw [imp_iff_right houtput]
          split at hcall
          · rename_i hnone
            cases hcall
            rw [hnone]
            exact ⟨h,iff_of_true hstep nofun⟩
          · rename_i signal hfound
            rw [hfound]
            simp only [mem_def,some.injEq,forall_eq']
            exact setSignalMuted_inStep h hstep hcall

theorem wellNamed_new (properties : List (String × Variant)) : (new properties).tree.WellNamed := by
  refine wellNamed_setProperty ?_ _ _
  have hfold (start : MuteStatus) (h : start.tree.WellNamed) : (properties.foldl
      (fun (status : MuteStatus) property => status.setProperty property.1 property.2) start).tree.WellNamed := by
    induction properties generalizing start with
    | nil => exact h
    | cons property properties ih => exact ih _ (wellNamed_setProperty h _ _)
  exact hfold _ (Property.WellNamed.create "" _)

private theorem lstSignals_new (properties : List (String × Variant)) : (new properties).lstSignals = [] := by
  have hfold (start : MuteStatus) : (properties.foldl
      (fun (status : MuteStatus) property => status.setProperty property.1 property.2) start).lstSignals =
        start.lstSignals := by
    induction properties generalizing start with
    | nil => rfl
    | cons property properties ih => exact ih _
  exact hfold _

theorem new_inStep (properties : List (String × Variant)) : (new properties).Kept ∧ (new properties).InStep := by
  have hnil := lstSignals_new properties
  refine ⟨⟨wellNamed_new properties,?_,?_⟩,?_⟩
  · rw [hnil]
    exact nodup_nil
  · rw [hnil]
    exact nodup_nil
  · rw [InStep,hnil]
    exact fun _ hmem => absurd hmem not_mem_nil

theorem careful_of_step_none {operation : MuteOperation} (hnone : status.step operation = none) :
    status.Careful operation := by
  rw [step,map_eq_none_iff] at hnone
  have hmute {bIsMuted : Bool} {hSignal : Nat} (hcall : status.setSignalMuted bIsMuted hSignal = none) :
      status.CarefulMute bIsMuted hSignal := by
    rw [CarefulMute,map_eq_none_iff.mp hcall]
    nofun
  cases operation with
  | registerSignal strSignalName strSignalType szSampleSize hSignalHandle checked created =>
    intro hregisters
    simp only [registers,Bool.and_eq_true,isNone_iff_eq_none] at hregisters
    obtain ⟨⟨⟨⟨hallow,hchecked⟩,hname⟩,hcreated⟩,hhandle⟩ := hregisters
    simp [call,registerSignal,isFailed,hallow,hchecked,hname,hcreated,hhandle] at hnone
  | unregisterSignal hSignalHandle => cases hnone
  | setRegistrationAllowed bAllow => cases hnone
  | muteSignal hSignal => exact hmute hnone
  | unmuteSignal hSignal => exact hmute hnone
  | muteAll => cases hnone
  | unmuteAll => cases hnone
  | update strAffectedSignal eSignalDirection bMuteSignal =>
    rw [call,update] at hnone
    intro hinput
    rw [if_neg hinput] at hnone
    split
    · rename_i hall
      rw [if_pos hall] at hnone
      cases hnone
    · rename_i hone
      rintro rfl signal hfound
      rw [if_neg hone,if_neg (by decide),hfound] at hnone
      exact hmute hnone

/-- The transmitters are muted as the properties say after each operation of a run exactly if each operation is
careful. -/
theorem mute_status (properties : List (String × Variant)) (operations : List MuteOperation) :
    Throughout step (fun status operation => ∀ after, status.step operation = some after → after.InStep)
      (new properties) operations ↔ Throughout step Careful (new properties) operations := by
  have hsame (status : MuteStatus) (operation : MuteOperation) (h : status.Kept ∧ status.InStep) :
      (∀ after, status.step operation = some after → after.InStep) ↔ status.Careful operation := by
    cases hstep : status.step operation with
    | none => exact iff_of_true nofun (careful_of_step_none hstep)
    | some after =>
      rw [← (step_inStep h.1 h.2 hstep).2]
      exact ⟨fun hall => hall after rfl,fun hstep after' heq => some.inj heq ▸ hstep⟩
  have hkeeps (status : MuteStatus) (operation : MuteOperation) (after : MuteStatus) (h : status.Kept ∧ status.InStep)
      (hcareful : status.Careful operation) (hstep : status.step operation = some after) :
      after.Kept ∧ after.InStep := by
    obtain ⟨hkept,hiff⟩ := step_inStep h.1 h.2 hstep
    exact ⟨hkept,hiff.mpr hcareful⟩
  exact throughout_iff hsame hkeeps (new_inStep properties) operations

/-- A signal that is registered under the global mute is not muted. -/
theorem registered_under_global_mute : ¬∀ (properties : List (String × Variant)) (operations : List MuteOperation),
    Throughout step (fun status operation => ∀ after, status.step operation = some after → after.InStep)
      (new properties) operations := by
  intro h
  have hrun := h [] [.muteAll,.registerSignal "Speed" "tFloat64" 8 1 .errNoError .errNoError]
  have hmuted : ((new []).setAllMuted true).1.InStep := hrun.1 _ rfl
  have hregistered := (hrun.2 _ rfl).1 _ rfl
  have hkept := (setAllMuted_inStep (new_inStep []).1 true).1
  have hcareful : ((new []).setAllMuted true).1.Careful
      (.registerSignal "Speed" "tFloat64" 8 1 .errNoError .errNoError) :=
    (step_inStep hkept hmuted rfl).2.mp hregistered
  have hglobal : ((new []).setAllMuted true).1.globalMute = true := globalMute_setProperty_self (wellNamed_new []) true
  exact Bool.false_ne_true ((hcareful rfl).symm.trans hglobal)

end MuteStatus
end FepParticipant.Signals
