import FepParticipant.Library.Reachability
import FepParticipant.PropertyTree.Property

/-! The nodes of property trees with their parent pointers, lists of subproperties and stored paths,
and the operations that change them. -/
namespace FepParticipant.PropertyTree
open Library List String

structure PropertyNode where
  poParent : Option Nat
  strName : String
  strPath : String
  lstSubproperties : List Nat
  deriving DecidableEq

/-- The nodes that are there, under numbers that stand for pointers to them. -/
structure PropertyNodes where
  node : Nat → Option PropertyNode
  next : Nat

namespace PropertyNodes

def empty : PropertyNodes := ⟨fun _ => none,0⟩

def modify (nodes : PropertyNodes) (id : Nat) (f : PropertyNode → PropertyNode) : PropertyNodes :=
  {nodes with node := fun other => if other = id then (nodes.node id).map f else nodes.node other}

def remove (nodes : PropertyNodes) (id : Nat) : PropertyNodes :=
  {nodes with node := fun other => if other = id then none else nodes.node other}

def joinPath (parentPath name : String) : String := if parentPath = "" then name else parentPath ++ "." ++ name

def eachSubproperty (call : PropertyNodes → Nat → Option (PropertyNodes × Result)) :
    List Nat → PropertyNodes → Option (PropertyNodes × Result)
  | [], nodes => some (nodes,.errNoError)
  | child::rest, nodes => do
    let (nodes,result) ← call nodes child
    if isOk result then eachSubproperty call rest nodes else return (nodes,result)

/-- The end of `SetParent`: a path that has changed is stored, and the subproperties take it over. -/
def updatePath (setParent : PropertyNodes → Nat → Option Nat → Option (PropertyNodes × Result))
    (nodes : PropertyNodes) (self : Nat) (poParent : Option Nat) : Option (PropertyNodes × Result) := do
  let node ← nodes.node self
  let strNewPath ← match poParent with
    | none => some node.strName
    | some parent => (nodes.node parent).map fun p => joinPath p.strPath node.strName
  if strNewPath = node.strPath then return (nodes,.errNoError)
  else
    eachSubproperty (fun nodes child => setParent nodes child (some self)) node.lstSubproperties
      (nodes.modify self fun node => {node with strPath := strNewPath})

/-- The begin of `SetParent`: a node without a parent is added to the new one; for another one the loop runs over
the parents of its last parent. -/
def takeParent (addSubproperty : PropertyNodes → Nat → Nat → Option (PropertyNodes × Result))
    (nodes : PropertyNodes) (self : Nat) (node : PropertyNode) (poParent : Option Nat) :
    Option (PropertyNodes × Result) :=
  if node.poParent = poParent then some (nodes,.errNoError)
  else
    match node.poParent, poParent with
    | none, some parent =>
      addSubproperty (nodes.modify self fun node => {node with poParent := some parent}) parent self
    | _, _ => none

mutual

/-- `AddSubproperty` with a pointer to a node. A call that crashes or nests deeper than `fuel` has no result;
`notified` is the result of the listeners. -/
def addSubproperty (notified : Result) : Nat → PropertyNodes → Nat → Nat → Option (PropertyNodes × Result)
  | 0, _, _, _ => none
  | fuel + 1, nodes, self, poSubproperty => do
    let node ← nodes.node self
    let sub ← nodes.node poSubproperty
    if sub.strName = "" then return (nodes,.errEmpty)
    else if poSubproperty ∈ node.lstSubproperties then return (nodes,.errNoError)
    else do
      let (nodes,result) ← setParent notified fuel
        (nodes.modify self fun node => {node with lstSubproperties := node.lstSubproperties ++ [poSubproperty]})
        poSubproperty (some self)
      return (nodes,if isOk result then notified else .errFailed)

def setParent (notified : Result) : Nat → PropertyNodes → Nat → Option Nat → Option (PropertyNodes × Result)
  | 0, _, _, _ => none
  | fuel + 1, nodes, self, poParent => do
    let node ← nodes.node self
    let (nodes,result) ← takeParent (addSubproperty notified fuel) nodes self node poParent
    if isOk result then updatePath (setParent notified fuel) nodes self poParent
    else return (nodes,result)

end

def newNode (nodes : PropertyNodes) (strName : String) : PropertyNodes :=
  ⟨fun id => if id = nodes.next then some ⟨none,strName,"",[]⟩ else nodes.node id,nodes.next + 1⟩

/-- A constructor, which calls `SetParent` for the new node. -/
def create (notified : Result) (fuel : Nat) (nodes : PropertyNodes) (strName : String) (poParent : Option Nat) :
    Option (PropertyNodes × Result) :=
  setParent notified fuel (nodes.newNode strName) nodes.next poParent

/-- The destructor: a node is gone behind its subproperties. -/
def destroy : Nat → PropertyNodes → Nat → Option PropertyNodes
  | 0, _, _ => none
  | fuel + 1, nodes, self => do
    let node ← nodes.node self
    let nodes ← node.lstSubproperties.foldlM (destroy fuel) nodes
    return nodes.remove self

def deleteListed (fuel : Nat) (nodes : PropertyNodes) (self poSubproperty : Nat) : Option (PropertyNodes × Result) := do
  let nodes ← destroy fuel nodes poSubproperty
  return (nodes.modify self fun node =>
    {node with lstSubproperties := node.lstSubproperties.erase poSubproperty},.errNoError)

/-- `DeleteSubproperty` with a pointer. -/
def deleteSubproperty (fuel : Nat) (nodes : PropertyNodes) (self poSubproperty : Nat) :
    Option (PropertyNodes × Result) := do
  let node ← nodes.node self
  if poSubproperty ∈ node.lstSubproperties then deleteListed fuel nodes self poSubproperty
  else return (nodes,.errNotFound)

/-- Whether a pointer is one to a node with the name. -/
def hasName (nodes : PropertyNodes) (strName : String) (id : Nat) : Bool :=
  ((nodes.node id).map (·.strName)) == some strName

/-- `DeleteSubproperty` with a name, which may be `NULL`. -/
def deleteNamed (fuel : Nat) (nodes : PropertyNodes) (self : Nat) (strName : Option String) :
    Option (PropertyNodes × Result) :=
  match strName with
  | none => some (nodes,.errPointer)
  | some strName => do
    let node ← nodes.node self
    match node.lstSubproperties.find? (nodes.hasName strName) with
    | some poSubproperty => deleteListed fuel nodes self poSubproperty
    | none => return (nodes,.errNotFound)

/-- The pieces of a path with points between them. -/
def joinPieces : List String → String
  | [] => ""
  | piece::pieces => pieces.foldl (fun path piece => path ++ "." ++ piece) piece

/-- `SetName` with a name that may be `NULL`; `split` gives the pieces of a path. -/
def setName (split : String → List String) (nodes : PropertyNodes) (self : Nat) (strName : Option String) :
    Option (PropertyNodes × Result) :=
  match strName with
  | none => some (nodes,.errPointer)
  | some strName => do
    let node ← nodes.node self
    if strName = "" ∧ node.lstSubproperties ≠ [] then return (nodes,.errEmpty)
    else return (nodes.modify self fun node =>
      { node with
        strName := strName
        strPath := joinPieces ((split node.strPath).dropLast ++ [strName]) },.errNoError)

end PropertyNodes

/-- An operation on the nodes, with the result of the listeners that it calls. -/
inductive PropertyAction where
  | create (strName : String) (poParent : Option Nat) (notified : Result)
  | addSubproperty (self : Nat) (poSubproperty : Option Nat) (notified : Result)
  | deleteSubproperty (self poSubproperty : Nat)
  | deleteNamed (self : Nat) (strName : Option String)
  | setParent (self : Nat) (poParent : Option Nat) (notified : Result)
  | setName (self : Nat) (strName : Option String)

namespace PropertyNodes

/-- An operation with as many nested calls as the nodes can need. -/
def call (split : String → List String) (nodes : PropertyNodes) : PropertyAction → Option (PropertyNodes × Result)
  | .create strName poParent notified => nodes.create notified (nodes.next + 4) strName poParent
  | .addSubproperty self poSubproperty notified => do
    -- the name of the subproperty is read even if the pointer is `NULL`
    let poSubproperty ← poSubproperty
    nodes.addSubproperty notified (nodes.next + 4) self poSubproperty
  | .deleteSubproperty self poSubproperty => nodes.deleteSubproperty (nodes.next + 1) self poSubproperty
  | .deleteNamed self strName => nodes.deleteNamed (nodes.next + 1) self strName
  | .setParent self poParent notified => nodes.setParent notified (nodes.next + 4) self poParent
  | .setName self strName => nodes.setName split self strName

def step (split : String → List String) (nodes : PropertyNodes) (action : PropertyAction) : Option PropertyNodes :=
  (nodes.call split action).map (·.1)

end PropertyNodes

open PropertyNodes (joinPath)
variable {rel : List String}

def ProperName (name : String) : Prop := name ≠ "" ∧ '.' ∉ name.toList

instance (name : String) : Decidable (ProperName name) := inferInstanceAs (Decidable (_ ∧ _))

def pathText (names : List String) : String := names.foldl joinPath ""

private def pointed (names : List String) : List Char := names.flatMap fun name => '.' :: name.toList

theorem pathText_append_singleton (names : List String) (name : String) :
    pathText (names ++ [name]) = joinPath (pathText names) name := by
  rw [pathText,foldl_append]
  rfl

private theorem foldl_joinPath {path : String} (hpath : path ≠ "") (names : List String) :
    (names.foldl joinPath path).toList = path.toList ++ pointed names := by
  induction names generalizing path with
  | nil => simp [pointed]
  | cons name names ih =>
    have hlong : path ++ "." ++ name ≠ "" := fun h => by
      have hchars := congrArg String.toList h
      simp [toList_append] at hchars
    rw [foldl_cons,joinPath,if_neg hpath,ih hlong]
    simp [pointed,toList_append]

theorem toList_pathText {name : String} (hname : name ≠ "") (names : List String) :
    (pathText (name::names)).toList = name.toList ++ pointed names := by
  rw [pathText,foldl_cons,joinPath,if_pos rfl,foldl_joinPath hname]

theorem namesBehind_append (current : List Char) {name : List Char} (hname : '.' ∉ name) (rest : List Char) :
    namesBehind current (name ++ rest) = namesBehind (current ++ name) rest := by
  induction name generalizing current with
  | nil => simp
  | cons c name ih =>
    obtain ⟨hpoint,hname⟩ := not_or.mp (mem_cons.not.mp hname)
    rw [cons_append,namesBehind,ih (current ++ [c]) hname,List.append_assoc]
    · rfl
    · exact fun h => hpoint h.symm

private theorem namesBehind_splitOn {current : List Char} (hcurrent : '.' ∉ current) (text rest : List Char) :
    namesBehind current (text ++ '.' :: rest) =
      ((current ++ text).splitOn '.').map String.ofList ++ namesBehind [] rest := by
  induction text generalizing current with
  | nil =>
    rw [nil_append,append_nil,namesBehind,splitOn_eq_singleton hcurrent]
    rfl
  | cons c text ih =>
    rw [cons_append]
    by_cases hpoint : c = '.'
    · subst hpoint
      rw [namesBehind,ih not_mem_nil,splitOn_append_cons_of_beq _ _ (beq_self_eq_true _),
        splitOn_eq_singleton hcurrent]
      rfl
    · have hlonger : '.' ∉ current ++ [c] := by
        rw [mem_append,mem_singleton,not_or]
        exact ⟨hcurrent,fun h => hpoint h.symm⟩
      rw [namesBehind,ih hlonger,List.append_assoc]
      · rfl
      · exact fun h => hpoint h

theorem pathNames_point (before after : String) :
    pathNames (before ++ "." ++ after) = (before.toList.splitOn '.').map String.ofList ++ pathNames after := by
  have hchars : (before ++ "." ++ after).toList = before.toList ++ '.' :: after.toList := by
    simp [toList_append]
  rw [pathNames,hchars,namesBehind_splitOn not_mem_nil]
  rfl

theorem splitOn_point_injective :
    Function.Injective fun name : String => (name.toList.splitOn '.').map String.ofList := by
  intro name name' h
  have hpieces := (List.map_inj_right fun _ _ heq => ofList_injective heq).mp h
  have hchars := congrArg (['.'].intercalate ·) hpieces
  simp only [intercalate_splitOn] at hchars
  exact toList_injective hchars

private theorem namesBehind_pointed {name : String} (hname : ProperName name) (names : List String)
    (hnames : ∀ name ∈ names, ProperName name) : namesBehind name.toList (pointed names) = name::names := by
  induction names generalizing name with
  | nil =>
    have hne : name.toList ≠ [] := fun h => hname.1 (toList_eq_nil_iff.mp h)
    cases hchars : name.toList with
    | nil => exact absurd hchars hne
    | cons c rest =>
      rw [← ofList_toList (s := name),hchars]
      rfl
  | cons next names ih =>
    rw [forall_mem_cons] at hnames
    rw [show pointed (next::names) = '.' :: (next.toList ++ pointed names) from rfl,namesBehind,
      namesBehind_append [] hnames.1.2,nil_append,ih hnames.1 hnames.2,ofList_toList]

variable {names : List String}

theorem pathNames_pathText (hnames : ∀ name ∈ names, ProperName name) : pathNames (pathText names) = names := by
  cases names with
  | nil => rfl
  | cons name names =>
    rw [forall_mem_cons] at hnames
    rw [pathNames,toList_pathText hnames.1.1,namesBehind_append [] hnames.1.2]
    exact namesBehind_pointed hnames.1 names hnames.2

private theorem point_not_mem_namesBehind (current text : List Char) (hcurrent : '.' ∉ current) :
    ∀ name ∈ namesBehind current text, '.' ∉ name.toList := by
  induction current, text using namesBehind.induct with
  | case1 => nofun
  | case2 current hne =>
    intro name hname
    rw [namesBehind] at hname
    · obtain rfl := mem_singleton.mp hname
      rwa [toList_ofList]
    · exact hne
  | case3 current rest ih =>
    intro name hname
    rw [namesBehind] at hname
    rcases mem_cons.mp hname with rfl | hbehind
    · rwa [toList_ofList]
    · exact ih not_mem_nil name hbehind
  | case4 current c rest hpoint ih =>
    intro name hname
    rw [namesBehind] at hname
    · refine ih ?_ name hname
      rw [mem_append,not_or]
      exact ⟨hcurrent,fun hc => hpoint (mem_singleton.mp hc).symm⟩
    · exact hpoint

theorem point_not_mem_pathNames {strPath name : String} (hname : name ∈ pathNames strPath) : '.' ∉ name.toList :=
  point_not_mem_namesBehind [] strPath.toList not_mem_nil name hname

theorem pathNames_name {name : String} (hname : ProperName name) : pathNames name = [name] := by
  have hpath : pathNames (pathText [name]) = [name] := pathNames_pathText fun other hother => by
    rw [mem_singleton.mp hother]
    exact hname
  exact hpath

private theorem pathText_cons_ne {name : String} (hname : name ≠ "") : pathText (name::names) ≠ "" := fun h => by
  have hchars := congrArg String.toList h
  rw [toList_pathText hname] at hchars
  exact hname (toList_eq_nil_iff.mp (append_eq_nil_iff.mp hchars).1)

theorem pathText_eq_empty (hnames : ∀ name ∈ names, ProperName name) : pathText names = "" ↔ names = [] := by
  cases names with
  | nil => exact iff_of_true rfl rfl
  | cons name names =>
    rw [forall_mem_cons] at hnames
    exact iff_of_false (pathText_cons_ne hnames.1.1) (cons_ne_nil _ _)

theorem pathText_inj {names' : List String} (hnames : ∀ name ∈ names, ProperName name)
    (hnames' : ∀ name ∈ names', ProperName name) : pathText names = pathText names' ↔ names = names' := by
  refine ⟨fun h => ?_,fun h => by rw [h]⟩
  rw [← pathNames_pathText hnames,h,pathNames_pathText hnames']

theorem toList_pathText_append (hne : names ≠ []) (hrel : rel ≠ []) (hnames : ∀ name ∈ names ++ rel, ProperName name) :
    (pathText (names ++ rel)).toList = (pathText names).toList ++ '.' :: (pathText rel).toList := by
  obtain ⟨first,names,rfl⟩ := exists_cons_of_ne_nil hne
  obtain ⟨next,rel,rfl⟩ := exists_cons_of_ne_nil hrel
  have hfirst := (hnames first (by simp)).1
  have hnext := (hnames next (by simp)).1
  rw [cons_append,toList_pathText hfirst,toList_pathText hfirst,toList_pathText hnext]
  simp [pointed]

theorem pathText_append (hne : names ≠ []) (hrel : rel ≠ []) (hnames : ∀ name ∈ names ++ rel, ProperName name) :
    pathText (names ++ rel) = pathText names ++ "." ++ pathText rel := by
  apply toList_injective
  rw [toList_pathText_append hne hrel hnames]
  simp [toList_append]

theorem isPrefixOf_pathText (hnames : ∀ name ∈ names ++ rel, ProperName name) :
    (pathText names).toList.isPrefixOf (pathText (names ++ rel)).toList = true := by
  rw [ isPrefixOf_iff_prefix]
  by_cases hne : names = []
  · subst hne
    exact nil_prefix
  · by_cases hrel : rel = []
    · have hsame : names ++ rel = names := by rw [hrel,append_nil]
      exact hsame.symm ▸ prefix_rfl
    · rw [toList_pathText_append hne hrel hnames]
      exact prefix_append _ _

end FepParticipant.PropertyTree
