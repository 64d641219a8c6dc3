import FepParticipant.Result
import Mathlib.Data.List.Perm.Basic

/-! The configuration of the log file strategy, node by node, and when neither the order of the nodes nor the
refresh of all of them at once makes a difference. -/
namespace FepParticipant.Incidents
open List Bool

/-- The four configured values, as the strategy holds them. -/
structure LogFileConfig where
  bEnabled : Bool
  bEnableCSVFormat : Bool
  bOverwriteExisting : Bool
  strLogFilePath : String
  deriving DecidableEq

/-- The nodes below the property of the strategy. -/
inductive LogFileNode where
  | bEnable
  | bEnableCSV
  | bOverwriteExisting
  | strPath
  deriving DecidableEq

/-- The strategy with the path of its open log file, the files that exist, and those that were emptied. -/
structure LogFileStrategy where
  config : LogFileConfig
  pLogFile : Option String
  existing : List String
  emptied : List String

/-- The paths that `OpenLogFile` can open; `canOpen` tells what `fopen` can. -/
def opens (canOpen : String → Bool) (oPath : String) : Bool := oPath != "" && canOpen oPath

namespace LogFileStrategy

/-- `OpenLogFile` with the path of the strategy. -/
def openLogFile (canOpen : String → Bool) (strategy : LogFileStrategy) : LogFileStrategy × Result :=
  let oPath := strategy.config.strLogFilePath
  if oPath = "" then (strategy,.errInvalidArg)
  else if canOpen oPath then
    ({ strategy with
      pLogFile := some oPath
      existing := if oPath ∈ strategy.existing then strategy.existing else oPath::strategy.existing
      emptied :=
        if oPath ∈ strategy.existing ∧ strategy.config.bOverwriteExisting = false then strategy.emptied
        else oPath::strategy.emptied },.errNoError)
  else ({strategy with pLogFile := none},.errOpenFailed)

/-- `RefreshConfiguration` for one node that has the configured value. -/
def refreshNode (canOpen : String → Bool) (values : LogFileConfig) (node : LogFileNode)
    (strategy : LogFileStrategy) : LogFileStrategy × Result :=
  match node with
  | .bEnable =>
    let strategy := {strategy with config := {strategy.config with bEnabled := values.bEnabled}}
    if strategy.config.bEnabled then strategy.openLogFile canOpen else (strategy,.errNoError)
  | .bEnableCSV =>
    ({strategy with config := {strategy.config with bEnableCSVFormat := values.bEnableCSVFormat}},.errNoError)
  | .bOverwriteExisting =>
    let strategy := {strategy with config := {strategy.config with bOverwriteExisting := values.bOverwriteExisting}}
    if strategy.config.bEnabled then strategy.openLogFile canOpen else (strategy,.errNoError)
  | .strPath =>
    let strategy := {strategy with config := {strategy.config with strLogFilePath := values.strLogFilePath}}
    if strategy.config.bEnabled then strategy.openLogFile canOpen else (strategy,.errNoError)

/-- `RefreshConfiguration` for the base path: one node after the other, until one fails. -/
def refreshAll (canOpen : String → Bool) (values : LogFileConfig) :
    List LogFileNode → LogFileStrategy → LogFileStrategy × Result
  | [], strategy => (strategy,.errNoError)
  | node::nodes, strategy =>
    let (strategy,nResult) := refreshNode canOpen values node strategy
    if isOk nResult then refreshAll canOpen values nodes strategy else (strategy,nResult)

def refreshEach (canOpen : String → Bool) (values : LogFileConfig) (nodes : List LogFileNode)
    (strategy : LogFileStrategy) : LogFileStrategy :=
  nodes.foldl (fun strategy node => (refreshNode canOpen values node strategy).1) strategy

end LogFileStrategy

/-- The nodes in one of their orders. -/
def allNodes : List LogFileNode := [.bEnable,.bEnableCSV,.bOverwriteExisting,.strPath]

namespace LogFileStrategy

def unemptied (strategy : LogFileStrategy) : LogFileStrategy := {strategy with emptied := []}

/-- What a refresh leaves: the configured values; the configured file open if it is enabled and can be opened; a
failure if it cannot, and no other; and no prior file emptied unless files are to be overwritten. -/
structure Refreshed (canOpen : String → Bool) (values : LogFileConfig) (prior : LogFileStrategy)
    (after : LogFileStrategy × Result) : Prop where
  config : after.1.config = values
  opened : values.bEnabled = true → opens canOpen values.strLogFilePath = true →
    after.1.pLogFile = some values.strLogFilePath
  closed : values.bEnabled = true → opens canOpen values.strLogFilePath = false →
    after.1.pLogFile = none ∧ isFailed after.2 = true
  failed : isFailed after.2 = true → values.bEnabled = true ∧ opens canOpen values.strLogFilePath = false
  emptied : ∀ path ∈ after.1.emptied, path ∈ prior.existing → values.bOverwriteExisting = true

def OrderIndependent (canOpen : String → Bool) (values : LogFileConfig) (prior : LogFileStrategy) : Prop :=
  ∀ nodes : List LogFileNode, nodes.Perm allNodes →
    Refreshed canOpen values prior (refreshAll canOpen values nodes prior.unemptied) ∧
    ∀ order : List LogFileNode, order.Perm allNodes →
      (refreshEach canOpen values order prior).config = values ∧
      (refreshEach canOpen values order prior).pLogFile = (refreshAll canOpen values nodes prior.unemptied).1.pLogFile

/-- Nothing is opened on the way that should not be: to be disabled, the strategy is disabled or has the configured
file open already; to be enabled, the prior file can be opened too, or all but the enabling is as before. -/
def OpensProperly (canOpen : String → Bool) (values : LogFileConfig) (prior : LogFileStrategy) : Prop :=
  let before := prior.config
  if values.bEnabled = false then
    before.bEnabled = false ∨
      (opens canOpen before.strLogFilePath = true ∧ values.strLogFilePath = before.strLogFilePath ∧
        prior.pLogFile = some before.strLogFilePath ∧
        (before.bOverwriteExisting = true → before.strLogFilePath ∈ prior.existing → values.bOverwriteExisting = true))
  else if opens canOpen before.strLogFilePath = false then
    values = {before with bEnabled := true} ∧ (before.strLogFilePath ≠ "" ∨ prior.pLogFile = none)
  else if opens canOpen values.strLogFilePath = true then
    before.bOverwriteExisting = true →
      before.strLogFilePath ∈ prior.existing ∨ values.strLogFilePath ∈ prior.existing → values.bOverwriteExisting = true
  else
    values.strLogFilePath ≠ "" ∧ values.bEnableCSVFormat = before.bEnableCSVFormat ∧
      values.bOverwriteExisting = before.bOverwriteExisting

end LogFileStrategy

namespace LogFileConfig

def set (values : LogFileConfig) : LogFileNode → LogFileConfig → LogFileConfig
  | .bEnable, config => {config with bEnabled := values.bEnabled}
  | .bEnableCSV, config => {config with bEnableCSVFormat := values.bEnableCSVFormat}
  | .bOverwriteExisting, config => {config with bOverwriteExisting := values.bOverwriteExisting}
  | .strPath, config => {config with strLogFilePath := values.strLogFilePath}

def setAll (values : LogFileConfig) (nodes : List LogFileNode) (config : LogFileConfig) : LogFileConfig :=
  nodes.foldl (fun config node => values.set node config) config

theorem setAll_cons (values : LogFileConfig) (node : LogFileNode) (nodes : List LogFileNode) (config : LogFileConfig) :
    values.setAll (node::nodes) config = values.setAll nodes (values.set node config) := rfl

theorem setAll_eq (values : LogFileConfig) (nodes : List LogFileNode) (config : LogFileConfig) :
    values.setAll nodes config = ⟨if .bEnable ∈ nodes then values.bEnabled else config.bEnabled,
        if .bEnableCSV ∈ nodes then values.bEnableCSVFormat else config.bEnableCSVFormat,
        if .bOverwriteExisting ∈ nodes then values.bOverwriteExisting else config.bOverwriteExisting,
        if .strPath ∈ nodes then values.strLogFilePath else config.strLogFilePath⟩ := by
  induction nodes generalizing config with
  | nil => rfl
  | cons node nodes ih =>
    rw [setAll_cons,ih]
    cases node <;> simp [set]

theorem setAll_of_perm {values : LogFileConfig} {nodes : List LogFileNode} (h : nodes.Perm allNodes)
    (config : LogFileConfig) : values.setAll nodes config = values := by
  have hall : ∀ node, node ∈ nodes := fun node => h.mem_iff.mpr (by cases node <;> decide)
  simp [setAll_eq,hall]

end LogFileConfig

namespace LogFileStrategy

variable {canOpen : String → Bool} {values : LogFileConfig} {strategy prior : LogFileStrategy} {node : LogFileNode}
  {nodes : List LogFileNode}
variable {path : String}

/-- All nodes but that of the format open the file, if the strategy is enabled when they have set their value. -/
theorem refreshNode_eq : refreshNode canOpen values node strategy =
      if node ≠ .bEnableCSV ∧ (values.set node strategy.config).bEnabled = true then
        {strategy with config := values.set node strategy.config}.openLogFile canOpen
      else ({strategy with config := values.set node strategy.config},.errNoError) := by
  cases node <;> simp [refreshNode,LogFileConfig.set]

theorem openLogFile_of_opens (h : opens canOpen strategy.config.strLogFilePath = true) :
    strategy.openLogFile canOpen = ({ strategy with
        pLogFile := some strategy.config.strLogFilePath
        existing := if strategy.config.strLogFilePath ∈ strategy.existing then strategy.existing
          else strategy.config.strLogFilePath::strategy.existing
        emptied := if strategy.config.strLogFilePath ∈ strategy.existing ∧ strategy.config.bOverwriteExisting = false
          then strategy.emptied else strategy.config.strLogFilePath::strategy.emptied },.errNoError) := by
  simp only [opens,and_eq_true,bne_iff_ne] at h
  simp only [openLogFile,if_neg h.1,if_pos h.2]

theorem openLogFile_of_not_opens (h : opens canOpen strategy.config.strLogFilePath = false) :
    (strategy.openLogFile canOpen).1 = { strategy with
        pLogFile := if strategy.config.strLogFilePath = "" then strategy.pLogFile else none } ∧
      isOk (strategy.openLogFile canOpen).2 = false := by
  rw [openLogFile]
  by_cases hempty : strategy.config.strLogFilePath = ""
  · simp [hempty]
    rfl
  · have hcanOpen : canOpen strategy.config.strLogFilePath = false := by simpa [opens,hempty] using h
    simp [hempty,hcanOpen]
    rfl

private theorem config_openLogFile : (strategy.openLogFile canOpen).1.config = strategy.config := by
  cases h : opens canOpen strategy.config.strLogFilePath with
  | true => rw [openLogFile_of_opens h]
  | false => rw [(openLogFile_of_not_opens h).1]

theorem refreshNode_of_not_opens (hnode : node ≠ .bEnableCSV)
    (henabled : (values.set node strategy.config).bEnabled = true)
    (hopens : opens canOpen (values.set node strategy.config).strLogFilePath = false) :
    (refreshNode canOpen values node strategy).1 = { strategy with
        config := values.set node strategy.config
        pLogFile := if (values.set node strategy.config).strLogFilePath = "" then strategy.pLogFile else none } ∧
      isOk (refreshNode canOpen values node strategy).2 = false := by
  rw [refreshNode_eq,if_pos ⟨hnode,henabled⟩]
  exact openLogFile_of_not_opens hopens

theorem refreshEach_cons : refreshEach canOpen values (node::nodes) strategy =
      refreshEach canOpen values nodes (refreshNode canOpen values node strategy).1 := rfl

theorem config_refreshNode (canOpen : String → Bool) :
    (refreshNode canOpen values node strategy).1.config = values.set node strategy.config := by
  rw [refreshNode_eq]
  split
  · exact config_openLogFile
  · rfl

theorem config_refreshEach (canOpen : String → Bool) (values : LogFileConfig) (nodes : List LogFileNode)
    (strategy : LogFileStrategy) :
    (refreshEach canOpen values nodes strategy).config = values.setAll nodes strategy.config := by
  induction nodes generalizing strategy with
  | nil => rfl
  | cons node nodes ih => rw [LogFileConfig.setAll_cons,← config_refreshNode canOpen]; exact ih _

theorem refreshAll_eq_refreshEach (h : isOk (refreshAll canOpen values nodes strategy).2 = true) :
    (refreshAll canOpen values nodes strategy).1 = refreshEach canOpen values nodes strategy := by
  induction nodes generalizing strategy with
  | nil => rfl
  | cons node nodes ih =>
    rw [refreshAll] at h ⊢
    cases hok : isOk (refreshNode canOpen values node strategy).2 with
    | true =>
      simp only [hok,if_true] at h ⊢
      exact ih h
    | false => simp only [hok,false_eq_true,if_false] at h

theorem refreshAll_cons : refreshAll canOpen values (node::nodes) strategy =
      if isOk (refreshNode canOpen values node strategy).2 then
        refreshAll canOpen values nodes (refreshNode canOpen values node strategy).1
      else refreshNode canOpen values node strategy := rfl

theorem strLogFilePath_set (config : LogFileConfig) :
    (values.set node config).strLogFilePath = config.strLogFilePath ∨
      (values.set node config).strLogFilePath = values.strLogFilePath := by
  cases node <;> simp [LogFileConfig.set]

theorem isOk_refreshAll (hvalues : opens canOpen values.strLogFilePath = true)
    (hbefore : opens canOpen strategy.config.strLogFilePath = true) :
    isOk (refreshAll canOpen values nodes strategy).2 = true := by
  induction nodes generalizing strategy with
  | nil => rfl
  | cons node nodes ih =>
    have hpath : opens canOpen (values.set node strategy.config).strLogFilePath = true := by
      rcases strLogFilePath_set strategy.config with h | h
      · rw [h]
        exact hbefore
      · rw [h]
        exact hvalues
    have hnode : isOk (refreshNode canOpen values node strategy).2 = true := by
      rw [refreshNode_eq]
      split
      · rw [openLogFile_of_opens hpath]
        rfl
      · rfl
    rw [refreshAll_cons,if_pos hnode]
    refine ih ?_
    rw [config_refreshNode]
    exact hpath

theorem refreshAll_of_disabled (hvalues : values.bEnabled = false) (hbefore : strategy.config.bEnabled = false) :
    refreshAll canOpen values nodes strategy =
      ({strategy with config := values.setAll nodes strategy.config},.errNoError) := by
  induction nodes generalizing strategy with
  | nil => rfl
  | cons node nodes ih =>
    have hset : (values.set node strategy.config).bEnabled = false := by
      cases node <;> simp [LogFileConfig.set,hvalues,hbefore]
    have hnode : refreshNode canOpen values node strategy =
        ({strategy with config := values.set node strategy.config},.errNoError) := by
      rw [refreshNode_eq,if_neg (by simp [hset])]
    rw [refreshAll_cons,hnode]
    exact ih hset

theorem mem_emptied_refreshNode (hmem : path ∈ (refreshNode canOpen values node strategy).1.emptied) :
    path ∈ strategy.emptied ∨ path ∉ strategy.existing ∨
      (opens canOpen path = true ∧ path = (values.set node strategy.config).strLogFilePath ∧
        (values.set node strategy.config).bOverwriteExisting = true) := by
  rw [refreshNode_eq] at hmem
  split at hmem
  · cases hopens : opens canOpen (values.set node strategy.config).strLogFilePath with
    | true =>
      rw [openLogFile_of_opens hopens] at hmem
      dsimp only at hmem
      split at hmem
      · exact .inl hmem
      · rename_i hnot
        rcases mem_cons.mp hmem with rfl | hmem
        · by_cases hexists : (values.set node strategy.config).strLogFilePath ∈ strategy.existing
          · exact .inr (.inr ⟨hopens,rfl,by simpa using fun h => hnot ⟨hexists,h⟩⟩)
          · exact .inr (.inl hexists)
        · exact .inl hmem
    | false =>
      rw [(openLogFile_of_not_opens hopens).1] at hmem
      exact .inl hmem
  · exact .inl hmem

private theorem grows_openLogFile : strategy.existing ⊆ (strategy.openLogFile canOpen).1.existing ∧
    strategy.emptied ⊆ (strategy.openLogFile canOpen).1.emptied := by
  cases hopens : opens canOpen strategy.config.strLogFilePath with
  | true =>
    rw [openLogFile_of_opens hopens]
    dsimp only
    constructor <;> split <;> first | exact Subset.refl _ | exact subset_cons_self _ _
  | false =>
    rw [(openLogFile_of_not_opens hopens).1]
    exact ⟨Subset.refl _,Subset.refl _⟩

theorem grows_refreshNode : strategy.existing ⊆ (refreshNode canOpen values node strategy).1.existing ∧
    strategy.emptied ⊆ (refreshNode canOpen values node strategy).1.emptied := by
  rw [refreshNode_eq]
  split
  · exact @grows_openLogFile canOpen {strategy with config := values.set node strategy.config}
  · exact ⟨Subset.refl _,Subset.refl _⟩

theorem mem_emptied_refreshAll (hmem : path ∈ (refreshAll canOpen values nodes strategy).1.emptied) :
    path ∈ strategy.emptied ∨ path ∉ strategy.existing ∨
      (opens canOpen path = true ∧ (path = strategy.config.strLogFilePath ∨ path = values.strLogFilePath) ∧
        (strategy.config.bOverwriteExisting = true ∨ values.bOverwriteExisting = true)) := by
  induction nodes generalizing strategy with
  | nil => exact .inl hmem
  | cons node nodes ih =>
    have hoverwrite (h : (values.set node strategy.config).bOverwriteExisting = true) :
        strategy.config.bOverwriteExisting = true ∨ values.bOverwriteExisting = true := by
      cases node with
      | bOverwriteExisting => exact .inr h
      | _ => exact .inl h
    have hnode (h : path ∈ (refreshNode canOpen values node strategy).1.emptied) :
        path ∈ strategy.emptied ∨ path ∉ strategy.existing ∨
          (opens canOpen path = true ∧ (path = strategy.config.strLogFilePath ∨ path = values.strLogFilePath) ∧
            (strategy.config.bOverwriteExisting = true ∨ values.bOverwriteExisting = true)) := by
      rcases mem_emptied_refreshNode h with h | h | ⟨hopens,rfl,hset⟩
      · exact .inl h
      · exact .inr (.inl h)
      · exact .inr (.inr ⟨hopens,strLogFilePath_set strategy.config,hoverwrite hset⟩)
    rw [refreshAll_cons] at hmem
    split at hmem
    · rcases ih hmem with h | h | ⟨hopens,hpath,hset⟩
      · exact hnode h
      · exact .inr (.inl fun hold => h (grows_refreshNode.1 hold))
      · rw [config_refreshNode] at hpath hset
        refine .inr (.inr ⟨hopens,?_,hset.elim hoverwrite .inr⟩)
        rcases hpath with hpath | hpath
        · exact hpath ▸ strLogFilePath_set strategy.config
        · exact .inr hpath
    · exact hnode hmem

theorem pLogFile_refreshEach (henabled : values.bEnabled = true) (hpath : values.strLogFilePath ≠ "")
    (hend : values.setAll nodes strategy.config = values)
    (hdone : .bEnable ∉ nodes → .strPath ∉ nodes → strategy.pLogFile =
      if canOpen values.strLogFilePath then some values.strLogFilePath else none) :
    (refreshEach canOpen values nodes strategy).pLogFile =
      if canOpen values.strLogFilePath then some values.strLogFilePath else none := by
  induction nodes generalizing strategy with
  | nil => exact hdone not_mem_nil not_mem_nil
  | cons node nodes ih =>
    rw [LogFileConfig.setAll_cons] at hend
    rw [refreshEach_cons]
    refine ih ((config_refreshNode canOpen).symm ▸ hend) fun henable hstrPath => ?_
    have hset : (values.set node strategy.config).bEnabled = true ∧
        (values.set node strategy.config).strLogFilePath = values.strLogFilePath := by
      rw [LogFileConfig.setAll_eq,if_neg henable,if_neg hstrPath] at hend
      have hbEnabled := congrArg LogFileConfig.bEnabled hend
      have hpath := congrArg LogFileConfig.strLogFilePath hend
      exact ⟨hbEnabled.trans henabled,hpath⟩
    by_cases hcsv : node = .bEnableCSV
    · subst hcsv
      exact hdone (by simp [henable]) (by simp [hstrPath])
    · rw [refreshNode_eq,if_pos ⟨hcsv,hset.1⟩]
      cases hcanOpen : canOpen values.strLogFilePath with
      | true =>
        rw [openLogFile_of_opens (by simp [opens,hset.2,hcanOpen,hpath])]
        simp [hset.2]
      | false =>
        rw [(openLogFile_of_not_opens (by simp [opens,hset.2,hcanOpen])).1]
        simp [hset.2,hpath]

theorem pLogFile_refreshEach_kept {file : Option String}
    (hopen : ∀ strategy : LogFileStrategy, strategy.config.strLogFilePath = path → strategy.pLogFile = file →
      (strategy.openLogFile canOpen).1.pLogFile = file)
    (hvalues : values.strLogFilePath = path) (hbefore : strategy.config.strLogFilePath = path)
    (hfile : strategy.pLogFile = file) : (refreshEach canOpen values nodes strategy).pLogFile = file := by
  induction nodes generalizing strategy with
  | nil => exact hfile
  | cons node nodes ih =>
    have hset : (values.set node strategy.config).strLogFilePath = path :=
      (strLogFilePath_set strategy.config).elim (·.trans hbefore) (·.trans hvalues)
    rw [refreshEach_cons]
    refine ih ((congrArg _ (config_refreshNode canOpen)).trans hset) ?_
    rw [refreshNode_eq]
    split
    · exact hopen _ hset hfile
    · exact hfile

theorem pLogFile_refreshEach_empty (hvalues : values.strLogFilePath = "")
    (hbefore : strategy.config.strLogFilePath = "") :
    (refreshEach canOpen values nodes strategy).pLogFile = strategy.pLogFile := by
  refine pLogFile_refreshEach_kept (fun strategy hpath hfile => ?_) hvalues hbefore rfl
  rw [(openLogFile_of_not_opens (by simp [opens,hpath])).1]
  exact (if_pos hpath).trans hfile

theorem pLogFile_refreshEach_same (hopens : opens canOpen path = true)
    (hvalues : values.strLogFilePath = path) (hbefore : strategy.config.strLogFilePath = path)
    (hfile : strategy.pLogFile = some path) : (refreshEach canOpen values nodes strategy).pLogFile = some path := by
  refine pLogFile_refreshEach_kept (fun strategy hpath _ => ?_) hvalues hbefore hfile
  rw [openLogFile_of_opens (by rw [hpath]; exact hopens)]
  exact congrArg some hpath

theorem refreshAll_of_not_opens (henabled : values.bEnabled = true)
    (hopens : opens canOpen values.strLogFilePath = false) (hend : values.setAll nodes strategy.config = values)
    (hcsv : strategy.config.bEnableCSVFormat = values.bEnableCSVFormat)
    (hoverwrite : strategy.config.bOverwriteExisting = values.bOverwriteExisting)
    (hbefore : opens canOpen strategy.config.strLogFilePath = true ∨
      strategy.config.strLogFilePath = values.strLogFilePath) (hfile : values.strLogFilePath ≠ "" ∨
      strategy.pLogFile = none ∧ strategy.config.strLogFilePath = values.strLogFilePath) (hnot : .bEnable ∈ nodes ∨
      ¬(strategy.config.bEnabled = true ∧ strategy.config.strLogFilePath = values.strLogFilePath)) :
    (refreshAll canOpen values nodes strategy).1.config = values ∧
      (refreshAll canOpen values nodes strategy).1.pLogFile = none ∧
      isOk (refreshAll canOpen values nodes strategy).2 = false := by
  induction nodes generalizing strategy with
  | nil =>
    have hvalues : strategy.config = values := hend
    refine absurd ?_ (hnot.resolve_left not_mem_nil)
    rw [hvalues]
    exact ⟨henabled,rfl⟩
  | cons node nodes ih =>
    have hset : (values.set node strategy.config).bEnableCSVFormat = values.bEnableCSVFormat ∧
        (values.set node strategy.config).bOverwriteExisting = values.bOverwriteExisting := by
      cases node <;> simp [LogFileConfig.set,hcsv,hoverwrite]
    have hpath : opens canOpen (values.set node strategy.config).strLogFilePath = true ∨
        (values.set node strategy.config).strLogFilePath = values.strLogFilePath := by
      rcases strLogFilePath_set strategy.config with h | h
      · rwa [h]
      · exact .inr h
    have hsame (h : strategy.config.strLogFilePath = values.strLogFilePath) :
        (values.set node strategy.config).strLogFilePath = values.strLogFilePath := by
      rcases strLogFilePath_set strategy.config with heq | heq
      · exact heq.trans h
      · exact heq
    rw [refreshAll_cons]
    by_cases hopening : node ≠ .bEnableCSV ∧ (values.set node strategy.config).bEnabled = true
    · cases hnode : opens canOpen (values.set node strategy.config).strLogFilePath with
      | true =>
        have hother : (values.set node strategy.config).strLogFilePath ≠ values.strLogFilePath := fun h => by
          rw [h,hopens] at hnode
          cases hnode
        rw [refreshNode_eq,if_pos hopening,openLogFile_of_opens hnode]
        refine ih hend hset.1 hset.2 hpath (.inl ?_) (.inr fun h => hother h.2)
        exact hfile.elim id fun h => absurd (hsame h.2) hother
      | false =>
        have hconfigured := hpath.resolve_left (by rw [hnode]; exact false_ne_true)
        have hvalues : values.set node strategy.config = values := by
          rw [LogFileConfig.mk.injEq]
          exact ⟨hopening.2.trans henabled.symm,hset.1,hset.2,hconfigured⟩
        obtain ⟨hfirst,hfailed⟩ := refreshNode_of_not_opens hopening.1 hopening.2 hnode
        rw [hfailed,if_neg Bool.false_ne_true,hfirst]
        refine ⟨hvalues,?_,hfailed⟩
        split
        · rename_i hempty
          exact (hfile.resolve_left fun hne => hne (hconfigured.symm.trans hempty)).1
        · rfl
    · rw [refreshNode_eq,if_neg hopening]
      refine ih hend hset.1 hset.2 hpath (hfile.imp_right fun h => ⟨h.1,hsame h.2⟩) ?_
      by_cases hcsvNode : node = .bEnableCSV
      · subst hcsvNode
        rcases hnot with h | h
        · exact .inl ((mem_cons.mp h).resolve_left (by simp))
        · exact .inr h
      · exact .inr fun h => hopening ⟨hcsvNode,h.1⟩

theorem refreshed_of_isOk (hnodes : nodes.Perm allNodes)
    (hok : isOk (refreshAll canOpen values nodes prior.unemptied).2 = true)
    (hopened : values.bEnabled = true → opens canOpen values.strLogFilePath = true ∧
      (refreshEach canOpen values nodes prior.unemptied).pLogFile = some values.strLogFilePath)
    (hemptied : ∀ path ∈ (refreshAll canOpen values nodes prior.unemptied).1.emptied,
      path ∈ prior.existing → values.bOverwriteExisting = true) :
    Refreshed canOpen values prior (refreshAll canOpen values nodes prior.unemptied) := by
  have hnot : ¬isFailed (refreshAll canOpen values nodes prior.unemptied).2 = true := by
    rw [isFailed,hok]
    exact false_ne_true
  refine ⟨?_,fun henabled _ => ?_,fun henabled hopens => ?_,fun hfailed => absurd hfailed hnot,hemptied⟩
  · rw [refreshAll_eq_refreshEach hok,config_refreshEach,LogFileConfig.setAll_of_perm hnodes]
  · rw [refreshAll_eq_refreshEach hok]
    exact (hopened henabled).2
  · rw [(hopened henabled).1] at hopens
    cases hopens

theorem overwrites_of_mem_emptied (hmem : path ∈ (refreshAll canOpen values nodes prior.unemptied).1.emptied)
    (hexists : path ∈ prior.existing) (hbefore : prior.config.bOverwriteExisting = true → opens canOpen path = true →
      path = prior.config.strLogFilePath ∨ path = values.strLogFilePath → values.bOverwriteExisting = true) :
    values.bOverwriteExisting = true := by
  rcases mem_emptied_refreshAll hmem with h | h | ⟨hopens,hpath,hset⟩
  · cases h
  · exact absurd hexists h
  · exact hset.elim (fun h => hbefore h hopens hpath) id

theorem refreshed_of_not_opens (hnodes : nodes.Perm allNodes) (henabled : values.bEnabled = true)
    (hopens : opens canOpen values.strLogFilePath = false)
    (hcsv : values.bEnableCSVFormat = prior.config.bEnableCSVFormat)
    (hoverwrite : values.bOverwriteExisting = prior.config.bOverwriteExisting)
    (hbefore : opens canOpen prior.config.strLogFilePath = true ∨ prior.config.strLogFilePath = values.strLogFilePath)
    (hfile : values.strLogFilePath ≠ "" ∨ prior.pLogFile = none ∧ prior.config.strLogFilePath = values.strLogFilePath) :
    Refreshed canOpen values prior (refreshAll canOpen values nodes prior.unemptied) ∧
    ∀ order : List LogFileNode, order.Perm allNodes → (refreshEach canOpen values order prior).pLogFile =
      (refreshAll canOpen values nodes prior.unemptied).1.pLogFile := by
  have hmem (order : List LogFileNode) (horder : order.Perm allNodes) : .bEnable ∈ order :=
    horder.mem_iff.mpr (by decide)
  have hrun : (refreshAll canOpen values nodes prior.unemptied).1.config = values ∧
      (refreshAll canOpen values nodes prior.unemptied).1.pLogFile = none ∧
      isOk (refreshAll canOpen values nodes prior.unemptied).2 = false :=
    refreshAll_of_not_opens henabled hopens (LogFileConfig.setAll_of_perm hnodes _) hcsv.symm hoverwrite.symm hbefore
      hfile (.inl (hmem nodes hnodes))
  obtain ⟨hconfig,hnone,hfailed⟩ := hrun
  refine ⟨⟨hconfig,fun _ h => ?_,fun _ _ => ⟨hnone,?_⟩,fun _ => ⟨henabled,hopens⟩,fun path hpath hexists => ?_⟩,
    fun order horder => ?_⟩
  · rw [hopens] at h
    cases h
  · rw [isFailed,hfailed]
    rfl
  · exact overwrites_of_mem_emptied hpath hexists fun h _ _ => hoverwrite.trans h
  · rw [hnone]
    by_cases hpath : values.strLogFilePath = ""
    · obtain ⟨hprior,hsame⟩ := hfile.resolve_left (not_not.mpr hpath)
      rw [pLogFile_refreshEach_empty hpath (hsame.trans hpath),hprior]
    · have hcanOpen : canOpen values.strLogFilePath = false := by simpa [opens,hpath] using hopens
      rw [pLogFile_refreshEach henabled hpath (LogFileConfig.setAll_of_perm horder _)
        (fun hnot => absurd (hmem order horder) hnot),hcanOpen,if_neg Bool.false_ne_true]

theorem orderIndependent_of_opensProperly (h : OpensProperly canOpen values prior) :
    OrderIndependent canOpen values prior := by
  intro nodes hnodes
  have hconfig (order : List LogFileNode) (horder : order.Perm allNodes) :
      (refreshEach canOpen values order prior).config = values := by
    rw [config_refreshEach,LogFileConfig.setAll_of_perm horder]
  rw [OpensProperly] at h
  cases henabled : values.bEnabled with
  | false =>
    have hnot : ¬values.bEnabled = true := by rw [henabled]; exact false_ne_true
    rw [if_pos henabled] at h
    rcases h with hdisabled | ⟨hopens,hpath,hfile,hemptied⟩
    · have hrun : refreshAll canOpen values nodes prior.unemptied =
          ({prior.unemptied with config := values.setAll nodes prior.config},.errNoError) :=
        refreshAll_of_disabled henabled hdisabled
      have heach (order : List LogFileNode) : (refreshEach canOpen values order prior).pLogFile = prior.pLogFile := by
        have hrun : refreshAll canOpen values order prior =
            ({prior with config := values.setAll order prior.config},.errNoError) :=
          refreshAll_of_disabled henabled hdisabled
        rw [← refreshAll_eq_refreshEach (by rw [hrun]; rfl),hrun]
      refine ⟨refreshed_of_isOk hnodes (by rw [hrun]; rfl) (fun h => absurd h hnot) ?_,fun order horder => ?_⟩
      · rw [hrun]
        nofun
      · rw [heach,hrun]
        exact ⟨hconfig order horder,rfl⟩
    · have hvalues : opens canOpen values.strLogFilePath = true := by rw [hpath,hopens]
      have hok : isOk (refreshAll canOpen values nodes prior.unemptied).2 = true := isOk_refreshAll hvalues hopens
      have hsame : (refreshEach canOpen values nodes prior.unemptied).pLogFile = some prior.config.strLogFilePath :=
        pLogFile_refreshEach_same hopens hpath rfl hfile
      refine ⟨refreshed_of_isOk hnodes hok (fun h => absurd h hnot) fun path hmem hexists => ?_,
        fun order horder => ⟨hconfig order horder,?_⟩⟩
      · refine overwrites_of_mem_emptied hmem hexists fun hoverwrite _ hsame => hemptied hoverwrite ?_
        rcases hsame with rfl | rfl
        · exact hexists
        · rwa [← hpath]
      · rw [refreshAll_eq_refreshEach hok,hsame]
        exact pLogFile_refreshEach_same hopens hpath rfl hfile
  | true =>
    have hmem (order : List LogFileNode) (horder : order.Perm allNodes) : .bEnable ∈ order :=
      horder.mem_iff.mpr (by decide)
    rw [if_neg (by simp [henabled])] at h
    cases hbefore : opens canOpen prior.config.strLogFilePath with
    | false =>
      rw [if_pos hbefore] at h
      obtain ⟨hvalues,hfile⟩ := h
      have hpath : values.strLogFilePath = prior.config.strLogFilePath := by rw [hvalues]
      have hrun := refreshed_of_not_opens hnodes henabled (hpath ▸ hbefore) (by rw [hvalues]) (by rw [hvalues])
        (.inr hpath.symm) (by rw [hpath]; exact hfile.imp_right fun h => ⟨h,rfl⟩)
      exact ⟨hrun.1,fun order horder => ⟨hconfig order horder,hrun.2 order horder⟩⟩
    | true =>
      rw [if_neg (by simp [hbefore])] at h
      cases hopens : opens canOpen values.strLogFilePath with
      | false =>
        rw [if_neg (by rw [hopens]; exact false_ne_true)] at h
        have hrun := refreshed_of_not_opens hnodes henabled hopens h.2.1 h.2.2 (.inl hbefore) (.inl h.1)
        exact ⟨hrun.1,fun order horder => ⟨hconfig order horder,hrun.2 order horder⟩⟩
      | true =>
        rw [if_pos hopens] at h
        have hok : isOk (refreshAll canOpen values nodes prior.unemptied).2 = true := isOk_refreshAll hopens hbefore
        have hpath : values.strLogFilePath ≠ "" ∧ canOpen values.strLogFilePath = true := by
          simpa [opens] using hopens
        have heach (order : List LogFileNode) (horder : order.Perm allNodes) (strategy : LogFileStrategy) :
            (refreshEach canOpen values order strategy).pLogFile = some values.strLogFilePath := by
          rw [pLogFile_refreshEach henabled hpath.1 (LogFileConfig.setAll_of_perm horder _)
            (fun hnot => absurd (hmem order horder) hnot),hpath.2,if_pos rfl]
        refine ⟨refreshed_of_isOk hnodes hok (fun _ => ⟨hopens,heach nodes hnodes _⟩) fun path hpath hexists => ?_,
          fun order horder => ⟨hconfig order horder,?_⟩⟩
        · refine overwrites_of_mem_emptied hpath hexists fun hoverwrite _ hsame => h hoverwrite ?_
          rcases hsame with rfl | rfl
          · exact .inl hexists
          · exact .inr hexists
        · rw [refreshAll_eq_refreshEach hok,heach order horder,heach nodes hnodes]

theorem opens_of_isOk_refreshNode (hnode : node ≠ .bEnableCSV)
    (henabled : (values.set node strategy.config).bEnabled = true)
    (hok : isOk (refreshNode canOpen values node strategy).2 = true) :
    opens canOpen (values.set node strategy.config).strLogFilePath = true := by
  by_contra hnot
  rw [(refreshNode_of_not_opens hnode henabled (eq_false_iff.mpr hnot)).2] at hok
  exact false_ne_true hok

theorem refreshNode_of_opens (hnode : node ≠ .bEnableCSV)
    (henabled : (values.set node strategy.config).bEnabled = true)
    (hopens : opens canOpen (values.set node strategy.config).strLogFilePath = true) :
    isOk (refreshNode canOpen values node strategy).2 = true ∧
      (refreshNode canOpen values node strategy).1.pLogFile = some (values.set node strategy.config).strLogFilePath ∧
      ((values.set node strategy.config).bOverwriteExisting = true →
        (values.set node strategy.config).strLogFilePath ∈ (refreshNode canOpen values node strategy).1.emptied) := by
  rw [refreshNode_eq,if_pos ⟨hnode,henabled⟩,openLogFile_of_opens hopens]
  refine ⟨rfl,rfl,fun hoverwrite => ?_⟩
  dsimp only
  rw [if_neg (by simp [hoverwrite])]
  exact mem_cons_self

theorem emptied_refreshAll : strategy.emptied ⊆ (refreshAll canOpen values nodes strategy).1.emptied := by
  induction nodes generalizing strategy with
  | nil => exact List.Subset.refl _
  | cons node nodes ih =>
    rw [refreshAll_cons]
    split
    · exact List.Subset.trans grows_refreshNode.2 ih
    · exact grows_refreshNode.2

private theorem refreshAll_of_disabling (hvalues : values.bEnabled = false) :
    refreshAll canOpen values (.bEnable::nodes) strategy =
      ({strategy with config := values.setAll (.bEnable::nodes) strategy.config},.errNoError) := by
  have hnode : refreshNode canOpen values .bEnable strategy =
      ({strategy with config := values.set .bEnable strategy.config},.errNoError) := by
    rw [refreshNode_eq,if_neg (by simp [LogFileConfig.set,hvalues])]
  rw [refreshAll_cons,hnode]
  exact refreshAll_of_disabled hvalues hvalues

private theorem pLogFile_refreshEach_disabling (hvalues : values.bEnabled = false) :
    (refreshEach canOpen values (.bEnable::nodes) strategy).pLogFile = strategy.pLogFile := by
  rw [← refreshAll_eq_refreshEach (by rw [refreshAll_of_disabling hvalues]; rfl),refreshAll_of_disabling hvalues]

section
variable (h : OrderIndependent canOpen values prior)
include h

theorem opensProperly_of_disabling (hvalues : values.bEnabled = false) (hprior : prior.config.bEnabled = true) :
    opens canOpen prior.config.strLogFilePath = true ∧ values.strLogFilePath = prior.config.strLogFilePath ∧
      prior.pLogFile = some prior.config.strLogFilePath ∧ (prior.config.bOverwriteExisting = true →
        prior.config.strLogFilePath ∈ prior.existing → values.bOverwriteExisting = true) := by
  let first : List LogFileNode := [.bEnable,.bEnableCSV,.bOverwriteExisting,.strPath]
  let overwriteFirst : List LogFileNode := [.bOverwriteExisting,.bEnable,.bEnableCSV,.strPath]
  let pathFirst : List LogFileNode := [.strPath,.bEnable,.bEnableCSV,.bOverwriteExisting]
  have hsucceeds (node : LogFileNode) (nodes : List LogFileNode) (hnodes : (node::nodes).Perm allNodes) :
      isOk (refreshNode canOpen values node prior.unemptied).2 = true := by
    by_contra hnot
    have hfailed := (h _ hnodes).1.failed
    rw [refreshAll_cons,if_neg hnot] at hfailed
    have hconfigured := (hfailed (by rw [isFailed,eq_false_iff.mpr hnot]; rfl)).1
    rw [hvalues] at hconfigured
    exact false_ne_true hconfigured
  have hbefore : opens canOpen prior.config.strLogFilePath = true :=
    @opens_of_isOk_refreshNode canOpen values prior.unemptied .bOverwriteExisting (by decide) hprior
      (hsucceeds .bOverwriteExisting overwriteFirst.tail (by decide))
  have hconfigured : opens canOpen values.strLogFilePath = true :=
    @opens_of_isOk_refreshNode canOpen values prior.unemptied .strPath (by decide) hprior
      (hsucceeds .strPath pathFirst.tail (by decide))
  have hsame (order : List LogFileNode) (horder : order.Perm allNodes) :
      (refreshEach canOpen values order prior).pLogFile = prior.pLogFile := by
    have hfirst := ((h first (by decide)).2 first (by decide)).2
    rw [((h first (by decide)).2 order horder).2,← hfirst]
    exact pLogFile_refreshEach_disabling hvalues
  have hfile : prior.pLogFile = some prior.config.strLogFilePath := by
    rw [← hsame overwriteFirst (by decide),refreshEach_cons,pLogFile_refreshEach_disabling hvalues]
    exact (@refreshNode_of_opens canOpen values prior .bOverwriteExisting (by decide) hprior hbefore).2.1
  have hpath : prior.pLogFile = some values.strLogFilePath := by
    rw [← hsame pathFirst (by decide),refreshEach_cons,pLogFile_refreshEach_disabling hvalues]
    exact (@refreshNode_of_opens canOpen values prior .strPath (by decide) hprior hconfigured).2.1
  have hpaths : values.strLogFilePath = prior.config.strLogFilePath := Option.some.inj (hpath.symm.trans hfile)
  refine ⟨hbefore,hpaths,hfile,fun hoverwrite hexists => ?_⟩
  refine (h pathFirst (by decide)).1.emptied values.strLogFilePath ?_ (by rw [hpaths]; exact hexists)
  obtain ⟨hok,-,hemptied⟩ :=
    @refreshNode_of_opens canOpen values prior.unemptied .strPath (by decide) hprior hconfigured
  rw [refreshAll_cons,if_pos hok]
  exact emptied_refreshAll (hemptied hoverwrite)

theorem opensProperly_of_enabling (hvalues : values.bEnabled = true) :
    if opens canOpen prior.config.strLogFilePath = false then
      values = {prior.config with bEnabled := true} ∧ (prior.config.strLogFilePath ≠ "" ∨ prior.pLogFile = none)
    else if opens canOpen values.strLogFilePath = true then
      prior.config.bOverwriteExisting = true →
        prior.config.strLogFilePath ∈ prior.existing ∨ values.strLogFilePath ∈ prior.existing →
        values.bOverwriteExisting = true
    else
      values.strLogFilePath ≠ "" ∧ values.bEnableCSVFormat = prior.config.bEnableCSVFormat ∧
        values.bOverwriteExisting = prior.config.bOverwriteExisting := by
  obtain ⟨hrefreshed,-⟩ := h [.bEnable,.strPath,.bEnableCSV,.bOverwriteExisting] (by decide)
  rw [refreshAll_cons] at hrefreshed
  split
  · rename_i hbefore
    obtain ⟨hfirst,hfailed⟩ := @refreshNode_of_not_opens canOpen values prior.unemptied .bEnable (by decide) hvalues
      hbefore
    rw [LogFileConfig.set,hvalues] at hfirst
    rw [if_neg (by rw [hfailed]; exact false_ne_true)] at hrefreshed
    have hconfig := hrefreshed.config
    rw [hfirst] at hconfig
    refine ⟨hconfig.symm,or_iff_not_imp_left.mpr fun hempty => ?_⟩
    have hclosed := (hrefreshed.closed hvalues (by rw [← hconfig]; exact hbefore)).1
    rw [hfirst] at hclosed
    exact (if_pos (not_not.mp hempty)).symm.trans hclosed
  · rename_i hbefore
    obtain ⟨hok,hfile,hemptied⟩ := @refreshNode_of_opens canOpen values prior.unemptied .bEnable (by decide) hvalues
      (eq_true_of_ne_false hbefore)
    have hconfig : (refreshNode canOpen values .bEnable prior.unemptied).1.config =
        values.set .bEnable prior.config := config_refreshNode _
    rw [if_pos hok] at hrefreshed
    generalize (refreshNode canOpen values .bEnable prior.unemptied).1 = opened at *
    rw [refreshAll_cons] at hrefreshed
    have henabled : (values.set .strPath opened.config).bEnabled = true := by rw [hconfig]; exact hvalues
    split
    · rename_i hopens
      intro hoverwrite hexists
      obtain ⟨hok,-,hemptiedPath⟩ := @refreshNode_of_opens canOpen values opened .strPath (by decide) henabled hopens
      rw [if_pos hok] at hrefreshed
      rcases hexists with hexists | hexists
      · exact hrefreshed.emptied _ (emptied_refreshAll (grows_refreshNode.2 (hemptied hoverwrite))) hexists
      · refine hrefreshed.emptied _ (emptied_refreshAll (hemptiedPath ?_)) hexists
        rw [hconfig]
        exact hoverwrite
    · rename_i hopens
      obtain ⟨hfirst,hfailed⟩ := @refreshNode_of_not_opens canOpen values opened .strPath (by decide) henabled
        (eq_false_iff.mpr hopens)
      rw [if_neg (by rw [hfailed]; exact false_ne_true)] at hrefreshed
      have hclosed := hrefreshed.closed hvalues (eq_false_iff.mpr hopens)
      have hset : values.set .strPath (values.set .bEnable prior.config) = values := by
        rw [← hconfig]
        exact (config_refreshNode _).symm.trans hrefreshed.config
      have hcsv : values.bEnableCSVFormat = prior.config.bEnableCSVFormat := by rw [← hset]; rfl
      have hoverwrite : values.bOverwriteExisting = prior.config.bOverwriteExisting := by rw [← hset]; rfl
      rw [hfirst] at hclosed
      refine ⟨fun hempty => ?_,hcsv,hoverwrite⟩
      have hnone := hclosed.1
      rw [if_pos (show (values.set .strPath opened.config).strLogFilePath = "" from hempty),hfile] at hnone
      cases hnone

private theorem opensProperly_of_orderIndependent : OpensProperly canOpen values prior := by
  rw [OpensProperly]
  cases hvalues : values.bEnabled with
  | false =>
    cases hprior : prior.config.bEnabled with
    | false => exact .inl rfl
    | true => exact .inr (opensProperly_of_disabling h hvalues hprior)
  | true => exact opensProperly_of_enabling h hvalues

end

/-- The order of the nodes makes no difference, and every order leaves what it should, exactly if nothing is opened
that should not be. -/
theorem log_file_configuration (canOpen : String → Bool) (values : LogFileConfig) (prior : LogFileStrategy) :
    OrderIndependent canOpen values prior ↔ OpensProperly canOpen values prior :=
  ⟨opensProperly_of_orderIndependent,orderIndependent_of_opensProperly⟩

/-- A new strategy that is enabled before it has its path: no refresh gets beyond the enabling. -/
theorem enabled_before_path : ¬∀ (canOpen : String → Bool) (values : LogFileConfig) (prior : LogFileStrategy),
      OrderIndependent canOpen values prior := by
  intro h
  have hrefreshed := (h (fun _ => true) ⟨true,true,false,"fep.log"⟩ ⟨⟨false,false,false,""⟩,none,[],[]⟩
    [.bEnable,.bEnableCSV,.bOverwriteExisting,.strPath] (List.Perm.refl _)).1
  exact absurd hrefreshed.config (by decide)

end LogFileStrategy
end FepParticipant.Incidents
