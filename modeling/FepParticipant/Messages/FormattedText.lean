import FepParticipant.Messages.MessageRoundTrip
import Std.Data.String.ToInt

/-! A JSON library with a formatted text: one line for each child, indented by its depth. Its text tells the node. -/
namespace FepParticipant.Messages
open PropertyTree List String Option
open Library (Binary64)

def escapeLetter : Char → Option Char
  | '"' => some '"'
  | '\\' => some '\\'
  | '/' => some '/'
  | '\n' => some 'n'
  | '\r' => some 'r'
  | '\t' => some 't'
  | _ => none

def escapedChar : Char → Char
  | 'n' => '\n'
  | 'r' => '\r'
  | 't' => '\t'
  | c => c

def escape (c : Char) : List Char :=
  match escapeLetter c with
  | some letter => ['\\',letter]
  | none => [c]

def quote (text : List Char) : List Char := '"' :: text.flatMap escape ++ ['"']

/-- What stands up to the closing quotation mark, and behind it. -/
def unquote : List Char → List Char × List Char
  | [] => ([],[])
  | '"' :: rest => ([],rest)
  | '\\' :: letter::rest => (escapedChar letter::(unquote rest).1,(unquote rest).2)
  | c::rest => (c::(unquote rest).1,(unquote rest).2)

private theorem escapeLetter_cases (c : Char) :
    (∃ letter, escapeLetter c = some letter ∧ escapedChar letter = c) ∨ escapeLetter c = none ∧ c ≠ '"' ∧ c ≠ '\\' := by
  unfold escapeLetter
  split
  · exact .inl ⟨_,rfl,rfl⟩
  · exact .inl ⟨_,rfl,rfl⟩
  · exact .inl ⟨_,rfl,rfl⟩
  · exact .inl ⟨_,rfl,rfl⟩
  · exact .inl ⟨_,rfl,rfl⟩
  · exact .inl ⟨_,rfl,rfl⟩
  · rename_i hquote hbackslash _ _ _ _
    exact .inr ⟨rfl,hquote,hbackslash⟩

private theorem unquote_escape (text rest : List Char) :
    unquote (text.flatMap escape ++ '"' :: rest) = (text,rest) := by
  induction text with
  | nil => rfl
  | cons c text ih =>
    rw [flatMap_cons,List.append_assoc,escape]
    obtain ⟨letter,hletter,hescaped⟩ | ⟨hnone,hquote,hbackslash⟩ := escapeLetter_cases c
    · simp only [hletter,cons_append,nil_append]
      rw [unquote,ih,hescaped]
    · simp only [hnone,cons_append,nil_append]
      rw [unquote,ih]
      · exact hquote
      · intro letter rest hc
        exact absurd hc hbackslash

theorem quote_append_inj {text other rest behind : List Char} (h : quote text ++ rest = quote other ++ behind) :
    text = other ∧ rest = behind := by
  simp only [quote,cons_append,List.append_assoc,nil_append,List.cons.injEq,true_and] at h
  have hread := congrArg unquote h
  rw [unquote_escape,unquote_escape,Prod.mk.injEq] at hread
  exact hread

def scalarText : JSONScalar Binary64 → List Char
  | .null => "null".toList
  | .string text => quote text.toList
  | .number number => (decimalText number).toList
  | .bool true => "true".toList
  | .bool false => "false".toList

def tabs (depth : Nat) : List Char := List.replicate depth '\t'

mutual
def nodeText (depth : Nat) : JSONNode Binary64 → List Char
  | .scalar _ value => scalarText value
  | .array _ elements => '[' :: itemsText false true (depth + 1) elements
  | .node _ children => '{' :: itemsText true true (depth + 1) children

def itemsText (named first : Bool) (depth : Nat) : List (JSONNode Binary64) → List Char
  | [] => (if first then [] else '\n' :: tabs (depth - 1)) ++ [if named then '}' else ']']
  | node::nodes =>
    (if first then [] else [',']) ++ '\n' :: tabs depth ++
      (if named then quote node.name.toList ++ [' ',':',' '] else []) ++ nodeText depth node ++
        itemsText named false depth nodes
end

def isToken (c : Char) : Bool := c.isAlphanum || c == '-' || c == '.'

theorem isToken_of_mem_decimalText {number : Binary64} {c : Char} (hc : c ∈ (decimalText number).toList) :
    isToken c = true := by
  have hspecial (text : List Char) (htext : text.all isToken = true) (hmem : c ∈ text) : isToken c = true :=
    all_eq_true.mp htext c hmem
  cases number with
  | finite value representable =>
    rcases mem_decimalText_finite hc with hdigit | rfl | rfl
    · rw [isToken,Char.isAlphanum,hdigit,Bool.or_true,Bool.true_or,Bool.true_or]
    · decide
    · decide
  | infinity negative =>
    cases negative
    · exact hspecial _ (by decide) hc
    · exact hspecial _ (by decide) hc
  | notANumber => exact hspecial _ (by decide) hc

private theorem decimalText_ne_nil (number : Binary64) : (decimalText number).toList ≠ [] := by
  cases number with
  | finite value representable =>
    rw [toList_decimalText]
    intro h
    rw [append_eq_nil_iff,append_eq_nil_iff] at h
    exact Nat.toDigits_ne_nil h.1.2
  | infinity negative => cases negative <;> decide
  | notANumber => decide

/-- A value that is no string. -/
def IsPlain : JSONScalar Binary64 → Prop
  | .string _ => False
  | _ => True

variable {value : JSONScalar Binary64}

theorem isToken_of_mem_scalarText (hplain : IsPlain value) : ∀ c ∈ scalarText value, isToken c = true := by
  cases value with
  | null => exact all_eq_true.mp rfl
  | string text => exact hplain.elim
  | number number => exact fun c hc => isToken_of_mem_decimalText hc
  | bool value => cases value <;> exact all_eq_true.mp rfl

theorem scalarText_ne_nil (hplain : IsPlain value) : scalarText value ≠ [] := by
  cases value with
  | null => decide
  | string text => exact hplain.elim
  | number number => exact decimalText_ne_nil number
  | bool value => cases value <;> decide

private theorem decimalText_ne_word (number : Binary64) {word : List Char}
    (hword : word = "null".toList ∨ word = "true".toList ∨ word = "false".toList) :
    (decimalText number).toList ≠ word := by
  have hletter : ∃ c ∈ word, ¬ (c.isDigit = true ∨ c = '-' ∨ c = '.') := by
    rcases hword with rfl | rfl | rfl
    · exact ⟨'u',by decide,by decide⟩
    · exact ⟨'t',by decide,by decide⟩
    · exact ⟨'f',by decide,by decide⟩
  obtain ⟨c,hc,hother⟩ := hletter
  cases number with
  | finite value representable =>
    intro h
    rw [← h] at hc
    exact hother (mem_decimalText_finite hc)
  | infinity negative => cases negative <;> rcases hword with rfl | rfl | rfl <;> decide
  | notANumber => rcases hword with rfl | rfl | rfl <;> decide

theorem scalarText_inj {other : JSONScalar Binary64} (hvalue : IsPlain value) (hother : IsPlain other)
    (h : scalarText value = scalarText other) : value = other := by
  have hword (boolean : Bool) : scalarText (.bool boolean) = "null".toList ∨
      scalarText (.bool boolean) = "true".toList ∨ scalarText (.bool boolean) = "false".toList := by
    cases boolean
    · exact .inr (.inr rfl)
    · exact .inr (.inl rfl)
  cases value with
  | string text => exact hvalue.elim
  | null =>
    cases other with
    | null => rfl
    | string text => exact hother.elim
    | number number => exact absurd h.symm (decimalText_ne_word number (.inl rfl))
    | bool boolean => cases boolean <;> exact absurd h (by decide)
  | number number =>
    cases other with
    | null => exact absurd h (decimalText_ne_word number (.inl rfl))
    | string text => exact hother.elim
    | number number' => rw [decimalText_injective (toList_injective h)]
    | bool boolean => exact absurd h (decimalText_ne_word number (hword boolean))
  | bool boolean =>
    cases other with
    | null => cases boolean <;> exact absurd h (by decide)
    | string text => exact hother.elim
    | number number => exact absurd h.symm (decimalText_ne_word number (hword boolean))
    | bool boolean' => cases boolean <;> cases boolean' <;> first | rfl | exact absurd h (by decide)

/-- What stands behind a value does not continue it. -/
def Delimited (rest : List Char) : Prop := ∀ c ∈ rest.head?, isToken c = false

private theorem takeWhile_delimited {text rest : List Char} (htext : ∀ c ∈ text, isToken c = true)
    (hrest : Delimited rest) : (text ++ rest).takeWhile isToken = text := by
  rw [takeWhile_append_of_pos htext]
  cases rest with
  | nil => rw [takeWhile_nil,append_nil]
  | cons c rest => rw [takeWhile_cons_of_neg (by simp [hrest c rfl]),append_nil]

theorem scalarText_append_inj {other : JSONScalar Binary64} {rest behind : List Char}
    (hvalue : IsPlain value) (hother : IsPlain other) (hrest : Delimited rest) (hbehind : Delimited behind)
    (h : scalarText value ++ rest = scalarText other ++ behind) : value = other ∧ rest = behind := by
  have htext := congrArg (List.takeWhile isToken) h
  rw [takeWhile_delimited (isToken_of_mem_scalarText hvalue) hrest,
    takeWhile_delimited (isToken_of_mem_scalarText hother) hbehind] at htext
  rw [htext] at h
  exact ⟨scalarText_inj hvalue hother htext,append_cancel_left h⟩

/-- The character that opens a node, unless it is a plain value. -/
def opening : JSONNode Binary64 → Option Char
  | .scalar _ (.string _) => some '"'
  | .scalar _ _ => none
  | .array _ _ => some '['
  | .node _ _ => some '{'

theorem head?_nodeText (depth : Nat) (node : JSONNode Binary64) (rest : List Char) :
    (nodeText depth node ++ rest).head?.filter (fun c => !isToken c) = opening node := by
  have hplain (name : String) (value : JSONScalar Binary64) (hvalue : IsPlain value) :
      (nodeText depth (.scalar name value) ++ rest).head?.filter (fun c => !isToken c) = none := by
    rw [nodeText]
    cases htext : scalarText value with
    | nil => exact absurd htext (scalarText_ne_nil hvalue)
    | cons c text =>
      have hc := isToken_of_mem_scalarText hvalue c (by rw [htext]; exact mem_cons_self)
      rw [cons_append,head?_cons,filter_some,hc]
      rfl
  cases node with
  | scalar name value =>
    cases value with
    | null => exact hplain name _ trivial
    | string text => rfl
    | number number => exact hplain name _ trivial
    | bool boolean => exact hplain name _ trivial
  | array name elements => rw [nodeText]; rfl
  | node name children => rw [nodeText]; rfl

theorem delimited_itemsText (named : Bool) (depth : Nat) (nodes : List (JSONNode Binary64))
    (rest : List Char) : Delimited (itemsText named false depth nodes ++ rest) := by
  intro c hc
  cases nodes with
  | nil =>
    cases hc
    decide
  | cons node nodes =>
    cases hc
    decide

theorem wellFormedElements_iff {nodes : List (JSONNode Binary64)} :
    WellFormedElements nodes ↔ (∀ node ∈ nodes, node.name = "") ∧ WellFormedChildren nodes := by
  induction nodes with
  | nil => exact iff_of_true trivial ⟨fun _ hnode => absurd hnode not_mem_nil,trivial⟩
  | cons node nodes ih =>
    rw [WellFormedElements,WellFormedChildren,ih,forall_mem_cons]
    constructor
    · rintro ⟨hname,hnode,hnames,hnodes⟩
      exact ⟨⟨hname,hnames⟩,hnode,hnodes⟩
    · rintro ⟨⟨hname,hnames⟩,hnode,hnodes⟩
      exact ⟨hname,hnode,hnames,hnodes⟩

theorem isPlain_or_string (value : JSONScalar Binary64) : IsPlain value ∨ ∃ text, value = .string text := by
  cases value with
  | string text => exact .inr ⟨text,rfl⟩
  | null => exact .inl trivial
  | number number => exact .inl trivial
  | bool boolean => exact .inl trivial

theorem opening_plain {name : String} (hplain : IsPlain value) : opening (.scalar name value) = none := by
  cases value with
  | string text => exact hplain.elim
  | null => rfl
  | number number => rfl
  | bool boolean => rfl

theorem opening_scalar_ne {name : String} (value : JSONScalar Binary64) {c : Char} (hc : c ≠ '"') :
    opening (.scalar name value) ≠ some c := by
  rcases isPlain_or_string value with hplain | ⟨text,rfl⟩
  · rw [opening_plain hplain]
    exact fun h => nomatch h
  · intro h
    exact hc (some.inj h).symm

mutual
theorem nodeText_append_inj (depth : Nat) (node other : JSONNode Binary64) {rest behind : List Char}
    (hnode : WellFormed node) (hother : WellFormed other) (hrest : Delimited rest) (hbehind : Delimited behind)
    (h : nodeText depth node ++ rest = nodeText depth other ++ behind) :
    (node.name = other.name → node = other) ∧ rest = behind := by
  have hopening : opening node = opening other := by
    rw [← head?_nodeText depth node rest,← head?_nodeText depth other behind,h]
  match node, other with
  | .scalar name value, .scalar name' value' =>
    rcases isPlain_or_string value with hvalue | ⟨text,rfl⟩
    · rcases isPlain_or_string value' with hvalue' | ⟨text',rfl⟩
      · obtain ⟨rfl,hrest⟩ := scalarText_append_inj hvalue hvalue' hrest hbehind h
        exact ⟨fun hname => by rw [show name = name' from hname],hrest⟩
      · rw [opening_plain hvalue] at hopening
        cases hopening
    · rcases isPlain_or_string value' with hvalue' | ⟨text',rfl⟩
      · rw [opening_plain hvalue'] at hopening
        cases hopening
      · obtain ⟨htext,hrest⟩ := quote_append_inj h
        exact ⟨fun hname => by rw [show name = name' from hname,toList_injective htext],hrest⟩
  | .array name elements, .array name' elements' =>
    rw [nodeText,nodeText,cons_append,cons_append,List.cons.injEq] at h
    obtain ⟨hnameless,hwellFormed⟩ := wellFormedElements_iff.mp hnode
    obtain ⟨hnameless',hwellFormed'⟩ := wellFormedElements_iff.mp hother
    obtain ⟨helements,hrest⟩ := itemsText_append_inj false true (depth + 1) elements elements'
      (fun _ => hnameless) (fun _ => hnameless') hwellFormed hwellFormed' h.2
    exact ⟨fun hname => by rw [show name = name' from hname,helements],hrest⟩
  | .node name children, .node name' children' =>
    rw [nodeText,nodeText,cons_append,cons_append,List.cons.injEq] at h
    obtain ⟨hchildren,hrest⟩ := itemsText_append_inj true true (depth + 1) children children'
      (fun h => by cases h) (fun h => by cases h) hnode hother h.2
    exact ⟨fun hname => by rw [show name = name' from hname,hchildren],hrest⟩
  | .scalar _ value, .array _ _ => exact absurd hopening (opening_scalar_ne value (by decide))
  | .scalar _ value, .node _ _ => exact absurd hopening (opening_scalar_ne value (by decide))
  | .array _ _, .scalar _ value => exact absurd hopening.symm (opening_scalar_ne value (by decide))
  | .node _ _, .scalar _ value => exact absurd hopening.symm (opening_scalar_ne value (by decide))
  | .array _ _, .node _ _ => exact absurd (some.inj hopening) (by decide)
  | .node _ _, .array _ _ => exact absurd (some.inj hopening) (by decide)

theorem itemsText_append_inj (named first : Bool) (depth : Nat) (nodes others : List (JSONNode Binary64))
    {rest behind : List Char} (hnodes : named = false → ∀ node ∈ nodes, node.name = "")
    (hothers : named = false → ∀ node ∈ others, node.name = "") (hwellFormed : WellFormedChildren nodes)
    (hwellFormed' : WellFormedChildren others)
    (h : itemsText named first depth nodes ++ rest = itemsText named first depth others ++ behind) :
    nodes = others ∧ rest = behind := by
  match nodes, others with
  | [], [] => exact ⟨rfl,append_cancel_left h⟩
  | [], other::others =>
    rw [itemsText,itemsText] at h
    cases first <;> cases named <;> simp at h
  | node::nodes, [] =>
    rw [itemsText,itemsText] at h
    cases first <;> cases named <;> simp at h
  | node::nodes, other::others =>
    rw [itemsText,itemsText] at h
    simp only [List.append_assoc,cons_append,append_cancel_left_eq,List.cons.injEq,true_and] at h
    obtain ⟨hnode,hnodes'⟩ := hwellFormed
    obtain ⟨hother,hothers'⟩ := hwellFormed'
    have hdelimited := delimited_itemsText named depth nodes rest
    have hdelimited' := delimited_itemsText named depth others behind
    have hitem : node.name = other.name ∧ nodeText depth node ++ (itemsText named false depth nodes ++ rest) =
          nodeText depth other ++ (itemsText named false depth others ++ behind) := by
      cases named with
      | false =>
        have hname := (hnodes rfl node mem_cons_self).trans (hothers rfl other mem_cons_self).symm
        exact ⟨hname,h⟩
      | true =>
        simp only [if_true,List.append_assoc] at h
        obtain ⟨hname,h⟩ := quote_append_inj h
        exact ⟨toList_injective hname,append_cancel_left h⟩
    obtain ⟨hname,h⟩ := hitem
    obtain ⟨hsame,h⟩ := nodeText_append_inj depth node other hnode hother hdelimited hdelimited' h
    obtain ⟨hrest,h⟩ := itemsText_append_inj named false depth nodes others
      (fun hnamed node hmem => hnodes hnamed node (mem_cons_of_mem _ hmem))
      (fun hnamed node hmem => hothers hnamed node (mem_cons_of_mem _ hmem)) hnodes' hothers' h
    exact ⟨by rw [hsame hname,hrest],h⟩
end

def writeFormatted (node : JSONNode Binary64) : String := .ofList (nodeText 0 node)

theorem writeFormatted_inj {nodes others : List (JSONNode Binary64)} (hnodes : ∀ node ∈ nodes, WellFormed node)
    (hothers : ∀ node ∈ others, WellFormed node)
    (h : writeFormatted (.node "" nodes) = writeFormatted (.node "" others)) : nodes = others := by
  have htext := congrArg String.toList h
  rw [writeFormatted,writeFormatted,toList_ofList,toList_ofList,← append_nil (nodeText _ _),
    ← append_nil (nodeText 0 (.node "" others))] at htext
  have hend : Delimited [] := fun c hc => by cases hc
  have hsame := (nodeText_append_inj 0 (.node "" nodes) (.node "" others) (wellFormedChildren_iff.mpr hnodes)
    (wellFormedChildren_iff.mpr hothers) hend hend htext).1 rfl
  rw [JSONNode.node.injEq] at hsame
  exact hsame.2

open Classical in
/-- The document of a text, or an empty one. -/
noncomputable def parseFormatted (text : String) : JSONNode Binary64 :=
  if h : ∃ nodes, (∀ node ∈ nodes, WellFormed node) ∧ writeFormatted (.node "" nodes) = text then .node "" h.choose
  else .node "" []

/-- The library that writes the formatted text. -/
noncomputable def formattedLibrary : MessageLibrary where
  numbers := decimalNodes
  parse := parseFormatted
  writeFormatted := writeFormatted
  toUInt32 text := text.toNat?.getD 0
  toInt64 text := text.toInt?.getD 0

theorem formattedLibrary_lawful : formattedLibrary.Lawful where
  numbers := decimalNodes_lawful
  parse_writeFormatted nodes hnodes := by
    have h : ∃ others, (∀ node ∈ others, WellFormed node) ∧
        writeFormatted (.node "" others) = writeFormatted (.node "" nodes) := ⟨nodes,hnodes,rfl⟩
    change parseFormatted (writeFormatted (.node "" nodes)) = .node "" nodes
    rw [parseFormatted,dif_pos h,writeFormatted_inj h.choose_spec.1 hnodes h.choose_spec.2]
  wellFormed_parse text := by
    change WellFormed (parseFormatted text)
    rw [parseFormatted]
    split
    · rename_i h
      exact wellFormedChildren_iff.mpr h.choose_spec.1
    · exact trivial
  toUInt32_toString n _ := by
    change (toString n).toNat?.getD 0 = n
    rw [Nat.toString_eq_repr,Nat.toNat?_repr,getD_some]
  toInt64_toString i _ _ := by
    change (toString i).toInt?.getD 0 = i
    rw [Int.toString_eq_repr,Int.toInt?_repr,getD_some]

/-- Parameters of a command that moves a vehicle. -/
def sampleParameters : List (JSONNode formattedLibrary.numbers.Number) :=
  [textNode "vehicle" "ego",.array "position" [.scalar "" (.bool true),.scalar "" (.string "left")]]

private theorem isParameter_sampleParameters : ∀ node ∈ sampleParameters, CustomCommand.IsParameter node := by
  intro node hnode
  rcases mem_cons.mp hnode with rfl | hnode
  · decide
  · rw [mem_singleton.mp hnode]
    decide

private theorem parse_sampleParameters :
    formattedLibrary.parse (formattedLibrary.writeFormatted (.node "" sampleParameters)) =
    .node "" sampleParameters := by
  refine formattedLibrary_lawful.parse_writeFormatted _ fun node hnode => ?_
  rcases mem_cons.mp hnode with rfl | hnode
  · exact trivial
  · rw [mem_singleton.mp hnode]
    exact ⟨rfl,trivial,rfl,trivial,trivial⟩

/-- A command with an array of texts. -/
noncomputable def sampleSetProperty (strSender : String) : SetPropertyCommand :=
  .build formattedLibrary (.string "fast") [.appendValue (.string "slow")] "vehicle/mode" strSender "camera" 17 4

noncomputable def sampleNotification : PropertyChangedNotification :=
  .create formattedLibrary (.create "mode" (.integer 3)) .ceChange "vehicle/mode" "console" "camera" 17 4

noncomputable def sampleCustom (nodes : List (JSONNode formattedLibrary.numbers.Number)) : CustomCommand :=
  .create formattedLibrary "move" (formattedLibrary.writeFormatted (.node "" nodes)) "console" "camera" 17 4

theorem messages_faithful_samples :
    (sampleSetProperty "console").Faithful formattedLibrary (sampleSetProperty "console") ∧
    sampleNotification.Faithful formattedLibrary sampleNotification ∧
    (sampleCustom sampleParameters).Faithful formattedLibrary (sampleCustom sampleParameters) := by
  obtain ⟨hset,hchanged,hcustom⟩ :=
    messages_faithful_iff formattedLibrary formattedLibrary_lawful "console" "camera" 17 4
  exact ⟨(hset ..).mpr ⟨trivial,rfl⟩,(hchanged ..).mpr ⟨trivial,rfl⟩,
    (hcustom _ _ _ _ parse_sampleParameters).mpr ⟨isParameter_sampleParameters,rfl⟩⟩

/-- The target of an assignment keeps its sender, and a parameter that is called `Name` is lost. -/
theorem messages_not_faithful :
    ¬ (sampleSetProperty "console").Faithful formattedLibrary (sampleSetProperty "element") ∧
    ¬ (sampleCustom [textNode "Name" "ego"]).Faithful formattedLibrary (sampleCustom [textNode "Name" "ego"]) := by
  constructor
  · intro h
    have hheader := (SetPropertyCommand.faithful_iff formattedLibrary_lawful
      (SetPropertyCommand.written_build ..) _).mp h
    exact absurd (congrArg (fun header => header.2.2.2.1) hheader.2) (by decide)
  · intro h
    have hparameters : formattedLibrary.parse (formattedLibrary.writeFormatted (.node "" [textNode "Name" "ego"])) =
        .node "" [textNode "Name" "ego"] := by
      refine formattedLibrary_lawful.parse_writeFormatted _ fun node hnode => ?_
      rw [mem_singleton.mp hnode]
      exact trivial
    have hnodes := (CustomCommand.faithful_iff formattedLibrary_lawful (CustomCommand.written_create ..)
      hparameters _).mp h
    exact (hnodes.1 _ mem_cons_self).1 rfl

end FepParticipant.Messages
