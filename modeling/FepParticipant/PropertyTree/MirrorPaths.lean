import FepParticipant.PropertyTree.PropertyNodes

/-! What the path in a notification means for a mirror: the property below the mirrored one that has changed. -/
namespace FepParticipant.PropertyTree
open List String

inductive ChangeEvent where
  | new
  | delete
  | change
  deriving DecidableEq

/-- What `FindAffectedProperty` finds: nothing, the mirrored property, or what is at a path of the local tree. -/
inductive AffectedProperty where
  | nothing
  | mirrored
  | below (strLocalPath : String)

def splitLastPoint : List Char → Option (List Char × List Char)
  | [] => none
  | c::rest =>
    match splitLastPoint rest with
    | some (before,after) => some (c::before,after)
    | none => if c = '.' then some ([],rest) else none

/-- `FindAffectedProperty`: the path of the remote property is taken off and the one of the mirrored property
put in front. -/
def findAffectedProperty (strRemotePath strLocalPath strPath : String) : AffectedProperty :=
  if strPath = "" then .nothing
  else if strPath = strRemotePath then .mirrored
  else
    let rest := if strRemotePath = "" then strPath.toList else strPath.toList.drop (strRemotePath.length + 1)
    .below ((if strLocalPath = "" then "" else strLocalPath ++ ".") ++ String.ofList rest)

def affectedBy (strRemotePath strLocalPath : String) (event : ChangeEvent) (strNotiPath : String) :
    Option (AffectedProperty × String) :=
  if strRemotePath.toList.isPrefixOf strNotiPath.toList then
    match event with
    | .new => (splitLastPoint strNotiPath.toList).map fun (before,after) =>
      (findAffectedProperty strRemotePath strLocalPath (String.ofList before),String.ofList after)
    | _ => some (findAffectedProperty strRemotePath strLocalPath strNotiPath,"")
  else none

variable {names rel : List String}

theorem splitLastPoint_none {text : List Char} (h : '.' ∉ text) : splitLastPoint text = none := by
  induction text with
  | nil => rfl
  | cons c text ih =>
    obtain ⟨hpoint,htext⟩ := not_or.mp (mem_cons.not.mp h)
    rw [splitLastPoint,ih htext]
    exact if_neg fun hc => hpoint hc.symm

theorem splitLastPoint_append (before : List Char) {after : List Char} (h : '.' ∉ after) :
    splitLastPoint (before ++ '.' :: after) = some (before,after) := by
  induction before with
  | nil =>
    rw [nil_append,splitLastPoint,splitLastPoint_none h]
    rfl
  | cons c before ih => rw [cons_append,splitLastPoint,ih]

theorem findAffectedProperty_below {remote mirrored rel : List String} (hrel : rel ≠ [])
    (hremote : ∀ name ∈ remote ++ rel, ProperName name) (hlocal : ∀ name ∈ mirrored ++ rel, ProperName name) :
    findAffectedProperty (pathText remote) (pathText mirrored) (pathText (remote ++ rel)) =
      .below (pathText (mirrored ++ rel)) := by
  have hbegin : ∀ name ∈ remote, ProperName name := fun name h => hremote name (mem_append_left _ h)
  have hmirrored : ∀ name ∈ mirrored, ProperName name := fun name h => hlocal name (mem_append_left _ h)
  have hsame : pathText (remote ++ rel) ≠ pathText remote := fun h => by
    rw [pathText_inj hremote hbegin] at h
    exact hrel (append_right_eq_self.mp h)
  have hnonempty : pathText (remote ++ rel) ≠ "" := fun h => by
    rw [pathText_eq_empty hremote] at h
    exact hrel (append_eq_nil_iff.mp h).2
  rw [findAffectedProperty,if_neg hnonempty,if_neg hsame]
  have hrest : (if pathText remote = "" then (pathText (remote ++ rel)).toList
      else (pathText (remote ++ rel)).toList.drop ((pathText remote).length + 1)) = (pathText rel).toList := by
    by_cases hempty : remote = []
    · rw [hempty]
      rfl
    · rw [if_neg ((pathText_eq_empty hbegin).not.mpr hempty),toList_pathText_append hempty hrel hremote,
        ← length_toList,drop_append]
      simp
  simp only [hrest,ofList_toList]
  by_cases hempty : mirrored = []
  · subst hempty
    simp [pathText]
  · rw [if_neg ((pathText_eq_empty hmirrored).not.mpr hempty),pathText_append hempty hrel hlocal]

theorem splitLastPoint_pathText {name : String} (hnames : ∀ n ∈ names ++ [name], ProperName n) :
    splitLastPoint (pathText (names ++ [name])).toList =
      if names = [] then none else some ((pathText names).toList,name.toList) := by
  have hname : '.' ∉ name.toList := (hnames name (by simp)).2
  split
  · rename_i hempty
    subst hempty
    exact splitLastPoint_none hname
  · rename_i hne
    rw [toList_pathText_append hne (cons_ne_nil _ _) hnames]
    exact splitLastPoint_append _ hname

end FepParticipant.PropertyTree
