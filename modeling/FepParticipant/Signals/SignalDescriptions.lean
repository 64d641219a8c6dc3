import FepParticipant.Result
import FepParticipant.Incident
import FepParticipant.Library.LookupCache
import FepParticipant.Library.Reachability

/-! The manager of the data description, over the description library, and the registry's signal descriptions: the
current one, the descriptions of signal types resolved from it once, and the description objects behind them. -/
namespace FepParticipant.Signals
open Library Bool Nat

/-- The library of data descriptions: `D` is a description, `E` a datatype, struct or enum of one; imports take
functions of the text. -/
structure DDLLibrary (D E : Type) where
  createDefault : D
  setXML : String → Result
  createNew : String → Result
  /-- The messages with severity `importer_error`, the last one first. -/
  importerErrors : String → List String
  getErrorDesc : String → String
  getDDL : String → D
  hasDynamicStructs : D → Bool
  getDatatypes : D → List E
  getStructs : D → List E
  getEnums : D → List E
  getName : E → String
  getDataTypeByName : D → String → Option E
  getStructByName : D → String → Option E
  getEnumByName : D → String → Option E
  isEqual : E → E → Result
  /-- The error of the comparison of an imported description with the current one. -/
  getLastDDLErrorDescription : D → D → String
  merge : D → D → D × Result
  /-- `DDLResolver`: the description of a type on its own. -/
  getResolvedXML : D → String → Option String

structure DDLManager (D : Type) where
  ddl : D
  strError : String

namespace DDLManager

variable {D E : Type} (library : DDLLibrary D E) (manager : DDLManager D)

def new : DDLManager D := ⟨library.createDefault,""⟩

def importResult (strDDL : String) : Result :=
  if isOk (library.setXML strDDL) then library.createNew strDDL else library.setXML strDDL

/-- The description that is current after the import is searched for dynamic structs, and so
is the old one if it failed. -/
def loadDDL (strDDL : String) : DDLManager D × Result :=
  let imported := isOk (importResult library strDDL)
  let loaded : DDLManager D :=
    if imported then ⟨library.getDDL strDDL,manager.strError⟩
    else ⟨manager.ddl,"\n".intercalate (library.importerErrors strDDL)⟩
  if library.hasDynamicStructs loaded.ddl then
    (⟨loaded.ddl,"Could not load DDL: File contains dynamic arrays, these are not allowed.\n" ++ loaded.strError⟩,
      .errInvalidType)
  else (loaded,if imported then .errNoError else .errInvalidArg)

def compareEach (namesake : String → Option E) (result : Result) (entries : List E) : Result :=
  entries.foldl (fun result entry =>
    if isFailed result then result
    else match namesake (library.getName entry) with
      | none => result
      | some current => library.isEqual entry current) result

/-- Datatypes, structs and enums are compared one after the other. -/
def compareDDL (imported current : D) : Result :=
  let datatypes := compareEach library (library.getDataTypeByName current) .errNoError (library.getDatatypes imported)
  let structs := compareEach library (library.getStructByName current) datatypes (library.getStructs imported)
  compareEach library (library.getEnumByName current) structs (library.getEnums imported)

def mergeDDL (strDDL : String) : DDLManager D × Result :=
  if isFailed (importResult library strDDL) then (⟨manager.ddl,library.getErrorDesc strDDL⟩,.errInvalidArg)
  else
    let imported := library.getDDL strDDL
    if isOk (compareDDL library imported manager.ddl) && !library.hasDynamicStructs imported then
      let (merged,result) := library.merge manager.ddl imported
      (⟨merged,manager.strError⟩,result)
    else
      let dynamic := if library.hasDynamicStructs imported then
        "Could not merge DDL: File contains dynamic arrays, these are not allowed.\n" else ""
      (⟨manager.ddl,dynamic ++ library.getLastDDLErrorDescription imported manager.ddl⟩,.errInvalidType)

def clearDDL : DDLManager D := ⟨library.createDefault,manager.strError⟩

/-- Only structs are resolved. -/
def resolveType (strType : String) : Option String :=
  if strType.isEmpty then none
  else if (library.getStructs manager.ddl).any (library.getName · == strType) then
    library.getResolvedXML manager.ddl strType
  else none

end DDLManager

/-- The part of `cSignalRegistry` that holds descriptions. -/
structure SignalRegistry (D : Type) where
  descriptionMan : DDLManager D
  descriptionMap : List (String × String)
  hasMappingComponent : Bool

namespace DescriptionFlags
variable (ui32DescriptionFlags : Nat)

def isReplace : Bool := ui32DescriptionFlags.testBit 0

def isMerge : Bool := ui32DescriptionFlags.testBit 1

def isFile : Bool := ui32DescriptionFlags.testBit 2

end DescriptionFlags

/-- What the file system and the mapping component answer. -/
structure RegistrationAnswers where
  readTextFile : Option String
  resetSignalDescription : Result

inductive RegistryAction where
  | registerSignalDescription (strDescription : Option String) (ui32DescriptionFlags : Nat)
      (answers : RegistrationAnswers)
  | clearSignalDescriptions (answers : RegistrationAnswers)
  | resolveSignalType (strSignalType : Option String)

namespace SignalRegistry
open DescriptionFlags

variable {D E : Type} (library : DDLLibrary D E) (registry : SignalRegistry D)

def new (hasMappingComponent : Bool) : SignalRegistry D := ⟨.new library,[],hasMappingComponent⟩

/-- The text of a description, or the error of a call that has none. -/
def description (strDescription : Option String) (ui32DescriptionFlags : Nat) (answers : RegistrationAnswers) :
    Except Result String :=
  match strDescription with
  | none => .error .errInvalidArg
  | some text =>
    if isReplace ui32DescriptionFlags && isMerge ui32DescriptionFlags then .error .errInvalidArg
    else if isFile ui32DescriptionFlags then
      match answers.readTextFile with
      | none => .error .errInvalidFile
      | some contents => .ok contents
    else .ok text

/-- The mapping component is told the description after a success. -/
def notifyMapping (result : Result) (answers : RegistrationAnswers) : Result :=
  if isOk result && registry.hasMappingComponent then answers.resetSignalDescription else result

def descriptionInvalid (error : String) : Incident :=
  ⟨.fsiSignalDescriptionInvalid,.criticalLocal,error,"SignalRegistry"⟩

def registered (text : String) (ui32DescriptionFlags : Nat) : DDLManager D × Result :=
  if isReplace ui32DescriptionFlags || !isMerge ui32DescriptionFlags then registry.descriptionMan.loadDDL library text
  else registry.descriptionMan.mergeDDL library text

def registerSignalDescription (strDescription : Option String) (ui32DescriptionFlags : Nat)
    (answers : RegistrationAnswers) : SignalRegistry D × Result × List Incident :=
  match description strDescription ui32DescriptionFlags answers with
  | .error result => (registry,result,[])
  | .ok text =>
    let (manager,result) := registry.registered library text ui32DescriptionFlags
    ({registry with descriptionMan := manager},registry.notifyMapping result answers,
      if isFailed result then [descriptionInvalid manager.strError] else [])

def clearSignalDescriptions (answers : RegistrationAnswers) : SignalRegistry D × Result :=
  ({registry with descriptionMan := registry.descriptionMan.clearDDL library, descriptionMap := []},
    registry.notifyMapping .errNoError answers)

/-- What `ResolveSignalType` returns and hands out. -/
def resolveSignalType (strSignalType : Option String) : SignalRegistry D × Result × Option String :=
  match strSignalType with
  | none => (registry,.errPointer,none)
  | some strType =>
    let (description,descriptionMap) :=
      LookupCache.lookup (registry.descriptionMan.resolveType library) registry.descriptionMap strType
    ({registry with descriptionMap := descriptionMap},
      if description.isSome then .errNoError else .errNotFound,description)

def step : RegistryAction → SignalRegistry D
  | .registerSignalDescription text flags answers => (registry.registerSignalDescription library text flags answers).1
  | .clearSignalDescriptions answers => (registry.clearSignalDescriptions library answers).1
  | .resolveSignalType type => (registry.resolveSignalType library type).1

structure ResolvesCurrent : Prop where
  succeeds (type : String) : (registry.resolveSignalType library (some type)).2.1 = .errNoError ↔
    (registry.descriptionMan.resolveType library type).isSome = true
  description (type : String) :
    (registry.resolveSignalType library (some type)).2.2 = registry.descriptionMan.resolveType library type

/-- A registered description changes the resolution of no type that has been resolved since the
descriptions were cleared. -/
def KeepsResolved : RegistryAction → Prop
  | .registerSignalDescription strDescription flags answers =>
    ∀ text, description strDescription flags answers = .ok text → ∀ type,
      (registry.descriptionMap.lookup type).isSome = true →
        (registry.registered library text flags).1.resolveType library type =
          registry.descriptionMan.resolveType library type
  | .clearSignalDescriptions _ | .resolveSignalType _ => True

def CacheCoherent : Prop := LookupCache.Coherent (registry.descriptionMan.resolveType library) registry.descriptionMap

variable {library} {registry}

private theorem resolvesCurrent_of_coherent (h : registry.CacheCoherent library) :
    registry.ResolvesCurrent library := by
  have hlookup (type : String) := LookupCache.Coherent.lookup_fst h type
  refine ⟨fun type => ?_,hlookup⟩
  simp only [resolveSignalType,hlookup type]
  split <;> simp_all

private theorem coherent_step {action : RegistryAction} (h : registry.CacheCoherent library)
    (hkeeps : registry.KeepsResolved library action) : (registry.step library action).CacheCoherent library := by
  cases action with
  | registerSignalDescription strDescription flags answers =>
    cases htext : description strDescription flags answers with
    | error result =>
      simp only [step,registerSignalDescription,htext]
      exact h
    | ok text =>
      simp only [step,registerSignalDescription,htext]
      exact (LookupCache.Coherent.change_iff h).mpr (hkeeps text htext)
  | clearSignalDescriptions answers => exact LookupCache.coherent_nil
  | resolveSignalType strSignalType =>
    cases strSignalType with
    | none => exact h
    | some type => exact LookupCache.Coherent.lookup_snd h type

/-- In every run in which no registered description changes what a resolved type resolves to, `ResolveSignalType`
succeeds exactly for the types of the current description, and hands these out. -/
theorem resolves_current (library : DDLLibrary D E) (hasMappingComponent : Bool)
    (hreach : Reaches (fun registry action => some (step library registry action)) (KeepsResolved library)
      (new library hasMappingComponent) registry) : registry.ResolvesCurrent library := by
  refine resolvesCurrent_of_coherent (hreach.invariant LookupCache.coherent_nil fun s action s' h hkeeps hstep => ?_)
  cases hstep
  exact coherent_step h hkeeps

end SignalRegistry

/-- A library in which every text describes one struct `T`, whose resolution is the text. -/
def oneStructLibrary : DDLLibrary String String where
  createDefault := ""
  setXML _ := .errNoError
  createNew _ := .errNoError
  importerErrors _ := []
  getErrorDesc _ := ""
  getDDL text := text
  hasDynamicStructs _ := false
  getDatatypes _ := []
  getStructs ddl := if ddl = "" then [] else ["T"]
  getEnums _ := []
  getName name := name
  getDataTypeByName _ _ := none
  getStructByName ddl name := if ddl ≠ "" ∧ name = "T" then some "T" else none
  getEnumByName _ _ := none
  isEqual _ _ := .errNoError
  getLastDDLErrorDescription _ _ := ""
  merge current imported := (if current = "" then imported else current,.errNoError)
  getResolvedXML ddl type := if type = "T" then some ddl else none

def replaceBy (text : String) : RegistryAction := .registerSignalDescription (some text) 1 ⟨none,.errNoError⟩

def mergeWith (text : String) : RegistryAction := .registerSignalDescription (some text) 2 ⟨none,.errNoError⟩

namespace SignalRegistry

def oneStructRun (actions : List RegistryAction) : SignalRegistry String :=
  actions.foldl (step oneStructLibrary) (new oneStructLibrary false)

/-- A description that changes nothing of a resolved type, and one that replaces it behind a clear. -/
def mergedThenReplaced : List RegistryAction :=
  [mergeWith "one",.resolveSignalType (some "T"),mergeWith "two",.resolveSignalType (some "U"),
    .clearSignalDescriptions ⟨none,.errNoError⟩,replaceBy "two",.resolveSignalType (some "T")]

theorem resolves_current_after_merge :
    (oneStructRun mergedThenReplaced).ResolvesCurrent oneStructLibrary ∧
      ((oneStructRun mergedThenReplaced).resolveSignalType oneStructLibrary (some "T")).2.2 = some "two" := by
  have hfirst : KeepsResolved oneStructLibrary (new oneStructLibrary false) (mergeWith "one") := by
    intro text _ type hcached
    simp [new] at hcached
  have hsecond : KeepsResolved oneStructLibrary (oneStructRun [mergeWith "one",.resolveSignalType (some "T")])
      (mergeWith "two") := by
    intro text htext type _
    cases htext
    rfl
  have hthird : KeepsResolved oneStructLibrary (oneStructRun (mergedThenReplaced.take 5)) (replaceBy "two") := by
    intro text _ type hcached
    exact absurd hcached Bool.false_ne_true
  have hreach : Reaches (fun registry action => some (step oneStructLibrary registry action))
      (KeepsResolved oneStructLibrary) (new oneStructLibrary false) (oneStructRun mergedThenReplaced) :=
    .head hfirst rfl (.head (a := .resolveSignalType (some "T")) trivial rfl (.head hsecond rfl
      (.head (a := .resolveSignalType (some "U")) trivial rfl
        (.head (a := .clearSignalDescriptions ⟨none,.errNoError⟩) trivial rfl
          (.head hthird rfl (.head (a := .resolveSignalType (some "T")) trivial rfl .refl))))))
  exact ⟨resolves_current oneStructLibrary false hreach,by decide⟩

/-- A replaced description leaves the cached one in place: it is handed out for the new one. -/
theorem stale_description :
    ¬(oneStructRun [replaceBy "one",.resolveSignalType (some "T"),replaceBy "two"]).ResolvesCurrent
      oneStructLibrary := by
  intro h
  have hdescription := h.description "T"
  exact absurd hdescription (by decide)

end SignalRegistry

structure DescriptionObjects (D : Type) where
  registry : SignalRegistry D
  /-- `m_poDDL`, the only object that is not deleted. -/
  object : Nat
  nextObject : Nat
  /-- The description of the mapping configuration. -/
  given : Nat
  object_lt : object < nextObject
  given_lt : given < nextObject

inductive DescriptionCall where
  | registerSignalDescription (strDescription : Option String) (ui32DescriptionFlags : Nat)
      (readTextFile : Option String)
  | clearSignalDescriptions
  | resolveSignalType (strSignalType : Option String)

/-- `LoadDDL` is called for the text of the description. -/
def DescriptionFlags.isLoad (ui32DescriptionFlags : Nat) : Bool :=
  isReplace ui32DescriptionFlags || !isMerge ui32DescriptionFlags

def RefusedNew {D E : Type} (library : DDLLibrary D E) (text : String) (ui32DescriptionFlags : Nat) : Prop :=
  DescriptionFlags.isLoad ui32DescriptionFlags = true ∧ isOk (DDLManager.importResult library text) = true ∧
    library.hasDynamicStructs (library.getDDL text) = true

namespace DescriptionCall

/-- The action of the signal registry in a call; `ResetSignalDescription` always succeeds. -/
def action : DescriptionCall → RegistryAction
  | registerSignalDescription strDescription flags readTextFile =>
    .registerSignalDescription strDescription flags ⟨readTextFile,.errNoError⟩
  | clearSignalDescriptions => .clearSignalDescriptions ⟨none,.errNoError⟩
  | resolveSignalType strSignalType => .resolveSignalType strSignalType

def ReplacesByDynamic {D E : Type} (library : DDLLibrary D E) : DescriptionCall → Prop
  | registerSignalDescription strDescription flags readTextFile =>
    ∃ text, SignalRegistry.description strDescription flags ⟨readTextFile,.errNoError⟩ = .ok text ∧
      RefusedNew library text flags
  | clearSignalDescriptions | resolveSignalType _ => False

end DescriptionCall

def DDLLibrary.FailedMergeKeeps {D E : Type} (library : DDLLibrary D E) : Prop :=
  ∀ current imported, isFailed (library.merge current imported).2 = true →
    (library.merge current imported).1 = current

namespace DDLManager

variable {D E : Type} {library : DDLLibrary D E} {manager : DDLManager D} {text : String}

theorem loadDDL_of_refused (h : isOk (importResult library text) = false) :
    (manager.loadDDL library text).1.ddl = manager.ddl ∧ isFailed (manager.loadDDL library text).2 = true := by
  simp only [loadDDL,h,false_eq_true,if_false]
  split <;> exact ⟨rfl,rfl⟩

/-- A text that can be imported is refused exactly if it has dynamic structs, when it is the description already. -/
theorem loadDDL_of_imported (h : isOk (importResult library text) = true) :
    isFailed (manager.loadDDL library text).2 = library.hasDynamicStructs (library.getDDL text) := by
  simp only [loadDDL,h,if_true]
  cases hdynamic : library.hasDynamicStructs (library.getDDL text) <;> rfl

theorem mergeDDL_of_failed (hmerge : library.FailedMergeKeeps)
    (h : isFailed (manager.mergeDDL library text).2 = true) : (manager.mergeDDL library text).1.ddl = manager.ddl := by
  unfold mergeDDL at h ⊢
  by_cases himport : isFailed (importResult library text) = true
  · rw [if_pos himport]
  · rw [if_neg himport] at h ⊢
    dsimp only at h ⊢
    split at h
    · rename_i hmerged
      rw [if_pos hmerged]
      exact hmerge _ _ h
    · rename_i hrefused
      rw [if_neg hrefused]

end DDLManager

namespace DescriptionObjects
open SignalRegistry DescriptionFlags

variable {D E : Type} (library : DDLLibrary D E) (objects : DescriptionObjects D)
variable {result : Result} {text : String} {flags : Nat}

/-- A participant whose mapping component has got the description of the registry (`cSignalMapping::SetModule`). -/
def start (descriptionMan : DDLManager D) (descriptionMap : List (String × String)) : DescriptionObjects D :=
  ⟨⟨descriptionMan,descriptionMap,true⟩,0,1,0,Nat.zero_lt_one,Nat.zero_lt_one⟩

/-- The manager has deleted its object and holds a new one. -/
def replaceObject : DescriptionObjects D :=
  { objects with
    object := objects.nextObject
    nextObject := objects.nextObject + 1
    object_lt := lt_succ_self _
    given_lt := lt_succ_of_lt objects.given_lt }

/-- `cSignalMapping::ResetSignalDescription`. -/
def resetSignalDescription : DescriptionObjects D × Result :=
  ({objects with given := objects.object, given_lt := objects.object_lt},.errNoError)

/-- The mapping component is told the description after a success. -/
def notifyMapping (result : Result) : DescriptionObjects D × Result :=
  if isOk result && objects.registry.hasMappingComponent then objects.resetSignalDescription else (objects,result)

/-- `LoadDDL` deletes the object if the text can be imported, and `MergeDDL` merges into it. -/
def register (text : String) (ui32DescriptionFlags : Nat) : DescriptionObjects D × Result :=
  let registered := objects.registry.registered library text ui32DescriptionFlags
  let next := {objects with registry := {objects.registry with descriptionMan := registered.1}}
  (if isLoad ui32DescriptionFlags && isOk (DDLManager.importResult library text) then next.replaceObject else next,
    registered.2)

def registerSignalDescription (strDescription : Option String) (ui32DescriptionFlags : Nat)
    (readTextFile : Option String) : DescriptionObjects D × Result :=
  match description strDescription ui32DescriptionFlags ⟨readTextFile,.errNoError⟩ with
  | .error result => (objects,result)
  | .ok text =>
    let (registered,result) := objects.register library text ui32DescriptionFlags
    registered.notifyMapping result

def clearSignalDescriptions : DescriptionObjects D × Result :=
  let cleared := objects.registry.clearSignalDescriptions library ⟨none,.errNoError⟩
  ({objects with registry := cleared.1} : DescriptionObjects D).replaceObject.notifyMapping cleared.2

def resolveSignalType (strSignalType : Option String) : DescriptionObjects D × Result :=
  let (registry,result,_) := objects.registry.resolveSignalType library strSignalType
  ({objects with registry := registry},result)

def call : DescriptionCall → DescriptionObjects D × Result
  | .registerSignalDescription strDescription flags readTextFile =>
    objects.registerSignalDescription library strDescription flags readTextFile
  | .clearSignalDescriptions => objects.clearSignalDescriptions library
  | .resolveSignalType strSignalType => objects.resolveSignalType library strSignalType

def step (call : DescriptionCall) : Option (DescriptionObjects D) := some (objects.call library call).1

def MappingAlive : Prop := objects.given = objects.object

instance : Decidable objects.MappingAlive := inferInstanceAs (Decidable (_ = _))

/-- Every type is resolved as before, and the mapping component has been given nothing else. -/
structure Unchanged (objects next : DescriptionObjects D) : Prop where
  resolved (type : String) : (next.registry.resolveSignalType library (some type)).2 =
    (objects.registry.resolveSignalType library (some type)).2
  given : next.given = objects.given

/-- A registration that fails changes nothing, and after it and after a clear the mapping component refers to the
object that is alive. -/
def Atomic (objects : DescriptionObjects D) (call : DescriptionCall) : Prop :=
  let outcome := objects.call library call
  match call with
  | .registerSignalDescription .. =>
    (isFailed outcome.2 = true → objects.Unchanged library outcome.1) ∧ outcome.1.MappingAlive
  | .clearSignalDescriptions => outcome.1.MappingAlive
  | .resolveSignalType _ => True

/-- The mapping component is there and refers to the object that is alive. -/
structure Informed : Prop where
  hasMapping : objects.registry.hasMappingComponent = true
  alive : objects.MappingAlive

variable {library} {objects}

@[simp] theorem notifyMapping_registry (result : Result) :
    (objects.notifyMapping result).1.registry = objects.registry := by
  unfold notifyMapping
  split <;> rfl

@[simp] theorem notifyMapping_snd (result : Result) : (objects.notifyMapping result).2 = result := by
  unfold notifyMapping
  split
  · rename_i hok
    exact ((isOk_iff result).mp (and_eq_true_iff.mp hok).1).symm
  · rfl

theorem register_registry (text : String) (flags : Nat) : (objects.register library text flags).1.registry =
    {objects.registry with descriptionMan := (objects.registry.registered library text flags).1} := by
  unfold register
  split <;> rfl

theorem registry_call (call : DescriptionCall) :
    (objects.call library call).1.registry = objects.registry.step library call.action := by
  cases call with
  | registerSignalDescription strDescription flags readTextFile =>
    simp only [DescriptionObjects.call,DescriptionCall.action,SignalRegistry.step,registerSignalDescription,
      SignalRegistry.registerSignalDescription]
    cases description strDescription flags ⟨readTextFile,.errNoError⟩ with
    | error result => rfl
    | ok text =>
      simp only [notifyMapping_registry]
      exact register_registry text flags
  | clearSignalDescriptions =>
    simp only [DescriptionObjects.call,clearSignalDescriptions,notifyMapping_registry]
    rfl
  | resolveSignalType strSignalType => rfl

theorem resolveSignalType_congr (registry next : SignalRegistry D)
    (hddl : next.descriptionMan.ddl = registry.descriptionMan.ddl)
    (hmap : next.descriptionMap = registry.descriptionMap) (strSignalType : Option String) :
    (next.resolveSignalType library strSignalType).2 = (registry.resolveSignalType library strSignalType).2 := by
  have hresolve : next.descriptionMan.resolveType library = registry.descriptionMan.resolveType library := by
    funext strType
    simp only [DDLManager.resolveType,hddl]
  cases strSignalType with
  | none => rfl
  | some strType => simp only [SignalRegistry.resolveSignalType,hresolve,hmap]

theorem notifyMapping_of_failed {result : Result} (h : isFailed result = true) :
    (objects.notifyMapping result).1 = objects := by
  unfold notifyMapping
  rw [if_neg fun hok => (isFailed_iff result).mp h ((isOk_iff result).mp (and_eq_true_iff.mp hok).1)]

theorem mappingAlive_notifyMapping (objects : DescriptionObjects D) (h : objects.registry.hasMappingComponent = true)
    (hok : isOk result = true) : (objects.notifyMapping result).1.MappingAlive := by
  unfold notifyMapping
  rw [if_pos (and_eq_true_iff.mpr ⟨hok,h⟩)]
  rfl

theorem registered_of_load {flags : Nat} (h : isLoad flags = true) (registry : SignalRegistry D) (text : String) :
    registry.registered library text flags = registry.descriptionMan.loadDDL library text := if_pos h

private theorem registered_of_merge {flags : Nat} (h : isLoad flags = false) (registry : SignalRegistry D)
    (text : String) :
    registry.registered library text flags = registry.descriptionMan.mergeDDL library text :=
  if_neg (eq_false_iff.mp h)

theorem register_of_refusedNew (objects : DescriptionObjects D) {text : String} {flags : Nat}
    (h : RefusedNew library text flags) : (objects.register library text flags).1.object = objects.nextObject ∧
      (objects.register library text flags).1.given = objects.given ∧
      isFailed (objects.register library text flags).2 = true := by
  obtain ⟨hload,himport,hdynamic⟩ := h
  unfold register
  dsimp only
  rw [registered_of_load hload,hload,himport,Bool.and_self,if_pos rfl]
  exact ⟨rfl,rfl,(DDLManager.loadDDL_of_imported himport).trans hdynamic⟩

theorem register_of_failed (hmerge : library.FailedMergeKeeps) {text : String} {flags : Nat}
    (hnew : ¬RefusedNew library text flags) (hfailed : isFailed (objects.register library text flags).2 = true) :
    ((objects.register library text flags).1.MappingAlive ↔ objects.MappingAlive) ∧
      objects.Unchanged library (objects.register library text flags).1 := by
  have hkept : (isLoad flags && isOk (DDLManager.importResult library text)) = false ∧
      (objects.registry.registered library text flags).1.ddl = objects.registry.descriptionMan.ddl := by
    change isFailed (objects.registry.registered library text flags).2 = true at hfailed
    cases hload : isLoad flags with
    | false =>
      rw [registered_of_merge hload] at hfailed ⊢
      exact ⟨rfl,DDLManager.mergeDDL_of_failed hmerge hfailed⟩
    | true =>
      rw [registered_of_load hload] at hfailed ⊢
      cases himport : isOk (DDLManager.importResult library text) with
      | false => exact ⟨rfl,(DDLManager.loadDDL_of_refused himport).1⟩
      | true =>
        rw [DDLManager.loadDDL_of_imported himport] at hfailed
        exact absurd ⟨hload,himport,hfailed⟩ hnew
  obtain ⟨hobject,hddl⟩ := hkept
  unfold register
  dsimp only
  rw [hobject,if_neg Bool.false_ne_true]
  refine ⟨Iff.rfl,fun type => ?_,rfl⟩
  exact resolveSignalType_congr objects.registry
    {objects.registry with descriptionMan := (objects.registry.registered library text flags).1} hddl rfl (some type)

private theorem mappingAlive_clear (h : objects.Informed) :
    (objects.clearSignalDescriptions library).1.MappingAlive := by
  have hok : isOk (objects.registry.clearSignalDescriptions library ⟨none,.errNoError⟩).2 = true := by
    simp only [SignalRegistry.clearSignalDescriptions,SignalRegistry.notifyMapping]
    split <;> rfl
  exact mappingAlive_notifyMapping (replaceObject { objects with registry := (objects.registry.clearSignalDescriptions
    library ⟨none,.errNoError⟩).1 }) h.hasMapping hok

/-- One call is atomic exactly if its description is not refused after the object has been replaced. -/
theorem atomic_iff (hmerge : library.FailedMergeKeeps) (h : objects.Informed) (call : DescriptionCall) :
    objects.Atomic library call ↔ ¬call.ReplacesByDynamic library := by
  cases call with
  | clearSignalDescriptions => exact iff_of_true (mappingAlive_clear h) id
  | resolveSignalType strSignalType => exact iff_of_true trivial id
  | registerSignalDescription strDescription flags readTextFile =>
    unfold Atomic DescriptionCall.ReplacesByDynamic
    simp only [DescriptionObjects.call,registerSignalDescription]
    cases htext : description strDescription flags ⟨readTextFile,.errNoError⟩ with
    | error result =>
      refine iff_of_true ⟨fun _ => ⟨fun _ => rfl,rfl⟩,h.alive⟩ ?_
      rintro ⟨text,hno,-⟩
      cases hno
    | ok text =>
      simp only [notifyMapping_snd]
      by_cases hnew : RefusedNew library text flags
      · refine iff_of_false ?_ fun hno => hno ⟨text,rfl,hnew⟩
        obtain ⟨hobject,hgiven,hfailed⟩ := register_of_refusedNew objects hnew
        rintro ⟨-,halive⟩
        rw [notifyMapping_of_failed hfailed,MappingAlive,hobject,hgiven] at halive
        exact absurd halive (Nat.ne_of_lt objects.given_lt)
      · have hother : ¬∃ other, Except.ok text = Except.ok (ε := Result) other ∧ RefusedNew library other flags := by
          rintro ⟨other,hsame,hrefused⟩
          cases hsame
          exact hnew hrefused
        refine iff_of_true ?_ hother
        cases hfailed : isFailed (objects.register library text flags).2 with
        | true =>
          rw [notifyMapping_of_failed hfailed]
          obtain ⟨halive,hunchanged⟩ := register_of_failed hmerge hnew hfailed
          exact ⟨fun _ => hunchanged,halive.mpr h.alive⟩
        | false =>
          have hmapping : (objects.register library text flags).1.registry.hasMappingComponent = true := by
            rw [register_registry]
            exact h.hasMapping
          refine ⟨fun hno => absurd hno false_ne_true,mappingAlive_notifyMapping _ hmapping ?_⟩
          rwa [isFailed,not_eq_false'] at hfailed

private theorem step_hasMappingComponent (registry : SignalRegistry D) (action : RegistryAction) :
    (registry.step library action).hasMappingComponent = registry.hasMappingComponent := by
  cases action with
  | registerSignalDescription strDescription flags answers =>
    simp only [SignalRegistry.step,SignalRegistry.registerSignalDescription]
    split <;> rfl
  | clearSignalDescriptions answers => rfl
  | resolveSignalType strSignalType => cases strSignalType <;> rfl

private theorem informed_call (h : objects.Informed) {call : DescriptionCall} (hatomic : objects.Atomic library call) :
    (objects.call library call).1.Informed := by
  constructor
  · rw [registry_call,step_hasMappingComponent]
    exact h.hasMapping
  · cases call with
    | registerSignalDescription strDescription flags readTextFile => exact hatomic.2
    | clearSignalDescriptions => exact hatomic
    | resolveSignalType strSignalType => exact h.alive

/-- In a run every call is atomic exactly if none registers a description that is refused after the object has been
replaced. -/
theorem registration_atomic_iff (library : DDLLibrary D E) (hmerge : library.FailedMergeKeeps)
    (descriptionMan : DDLManager D) (descriptionMap : List (String × String)) (calls : List DescriptionCall) :
    Throughout (step library) (Atomic library) (start descriptionMan descriptionMap) calls ↔
      ∀ call ∈ calls, ¬call.ReplacesByDynamic library := by
  have hinformed : (start descriptionMan descriptionMap : DescriptionObjects D).Informed := ⟨rfl,rfl⟩
  have hcalls : Throughout (step library) (Atomic library) (start descriptionMan descriptionMap) calls ↔
      Throughout (step library) (fun _ call => ¬call.ReplacesByDynamic library) (start descriptionMan descriptionMap)
        calls := by
    have hinformed_step (objects : DescriptionObjects D) (call : DescriptionCall) (next : DescriptionObjects D)
        (h : objects.Informed) (hcall : ¬call.ReplacesByDynamic library)
        (hstep : objects.step library call = some next) : next.Informed := by
      cases hstep
      exact informed_call h ((atomic_iff hmerge h call).mpr hcall)
    exact throughout_iff (fun objects call h => atomic_iff hmerge h call) hinformed_step hinformed calls
  rw [hcalls]
  exact throughout_iff_forall _ calls

end DescriptionObjects

def dynamicStructLibrary : DDLLibrary String String :=
  {oneStructLibrary with hasDynamicStructs := fun ddl => ddl == "dynamic"}

namespace DescriptionObjects

def replacing (text : String) : DescriptionCall := .registerSignalDescription (some text) 1 none

def merging (text : String) : DescriptionCall := .registerSignalDescription (some text) 2 none

/-- The run up to a description that is replaced, merged into and cleared; to merge a dynamic struct is refused. -/
theorem registration_atomic_cleared : Throughout (step dynamicStructLibrary) (Atomic dynamicStructLibrary)
    (start (.new dynamicStructLibrary) [])
    [replacing "one",.resolveSignalType (some "T"),merging "dynamic",.clearSignalDescriptions] := by
  have hmerge : dynamicStructLibrary.FailedMergeKeeps := fun _ _ hfailed => absurd hfailed false_ne_true
  have hreplacing : ¬(replacing "one").ReplacesByDynamic dynamicStructLibrary := by
    rintro ⟨text,htext,-,-,hdynamic⟩
    cases htext
    exact absurd hdynamic (by decide)
  have hmerging : ¬(merging "dynamic").ReplacesByDynamic dynamicStructLibrary := by
    rintro ⟨text,htext,hload,-⟩
    exact absurd hload (by decide)
  refine (registration_atomic_iff dynamicStructLibrary hmerge _ [] _).mpr ?_
  simp only [List.forall_mem_cons,List.not_mem_nil]
  exact ⟨hreplacing,id,hmerging,id,fun _ hno => hno.elim⟩

/-- A dynamic struct that is to replace the description is refused, and is the description. -/
theorem refused_description_stays : ¬∀ calls, Throughout (step dynamicStructLibrary) (Atomic dynamicStructLibrary)
    (start (.new dynamicStructLibrary) []) calls := by
  intro h
  obtain ⟨⟨-,halive⟩,-⟩ := h [replacing "dynamic"]
  exact absurd halive (by decide)

end DescriptionObjects
end FepParticipant.Signals
