import Mathlib.Data.List.Infix

/-! XML documents of elements, attributes and character data, without other markup or references; how they are spelled,
and a parser for what is spelled so. -/
namespace FepParticipant.Library.XML
open List String

inductive Node where
  | data (text : String)
  | element (name : String) (attributes : List (String × String)) (children : List Node)

namespace Node

def children : Node → List Node
  | .data _ => []
  | .element _ _ children => children

def attributes : Node → List (String × String)
  | .data _ => []
  | .element _ attributes _ => attributes

def isNamed (name : String) : Node → Bool
  | .data _ => false
  | .element other _ _ => other == name

def isElement : Node → Bool
  | .data _ => false
  | .element .. => true

def hasAttribute (node : Node) (name : String) : Bool := node.attributes.any (·.1 == name)

def getAttribute (node : Node) (name : String) : String := ((node.attributes.find? (·.1 == name)).map (·.2)).getD ""

def getChild (node : Node) (name : String) : Option Node := node.children.find? (isNamed name)

/-- The nodes below that a path of names leads to. -/
def findNodes (node : Node) : List String → List Node
  | [] => [node]
  | name::path => (node.children.filter (isNamed name)).flatMap fun child => child.findNodes path

/-- The first piece of character data of an element. -/
def getData (node : Node) : String :=
  (node.children.findSome? fun | .data text => some text | .element .. => none).getD ""

end Node

def nameStart (c : Char) : Bool := c.isAlpha || c == '_' || c == ':'

def nameChar (c : Char) : Bool := c.isAlphanum || c == '_' || c == ':' || c == '-' || c == '.'

def isName (name : String) : Bool :=
  match name.toList with
  | [] => false
  | c::rest => nameStart c && rest.all nameChar

/-- A character of an attribute that stands for itself, between double quotes. -/
def attributeChar (c : Char) : Bool :=
  decide (32 ≤ c.toNat) && decide (c.toNat < 128) && c != '<' && c != '&' && c != '"'

/-- A character of the content of an element that stands for itself. -/
def dataChar (c : Char) : Bool :=
  (c == '\n' || c == '\t' || decide (32 ≤ c.toNat) && decide (c.toNat < 128)) && c != '<' && c != '&'

def isAttributeText (text : String) : Bool := text.toList.all attributeChar

def isDataText (text : String) : Bool := text.toList.all dataChar && !decide ([']',']','>'] <:+: text.toList)

def attributesText : List (String × String) → String
  | [] => ""
  | (name,value)::rest => " " ++ name ++ "=\"" ++ value ++ "\"" ++ attributesText rest

/-- Each attribute has a name of its own. -/
structure Attributes (attributes : List (String × String)) : Prop where
  name : ∀ entry ∈ attributes, isName entry.1 = true
  value : ∀ entry ∈ attributes, isAttributeText entry.2 = true
  nodup : (attributes.map (·.1)).Nodup

theorem Attributes.nil : Attributes [] := ⟨by simp,by simp,by simp⟩

/-- How the nodes inside an element are spelled. -/
inductive Content : List Node → String → Prop
  | nil : Content [] ""
  | data {text s : String} {nodes : List Node} : text ≠ "" → isDataText text = true →
      (∀ node, nodes.head? = some node → node.isElement = true) → Content nodes s →
      Content (.data text::nodes) (text ++ s)
  | element {name inner s : String} {attributes : List (String × String)} {children nodes : List Node} :
      isName name = true → Attributes attributes → Content children inner → Content nodes s →
      Content (.element name attributes children::nodes)
        ("<" ++ name ++ attributesText attributes ++ ">" ++ inner ++ "</" ++ name ++ ">" ++ s)
  | emptyElement {name s : String} {attributes : List (String × String)} {nodes : List Node} :
      isName name = true → Attributes attributes → Content nodes s →
      Content (.element name attributes []::nodes) ("<" ++ name ++ attributesText attributes ++ " />" ++ s)

def declaration : String := "<?xml version=\"1.0\" encoding=\"iso-8859-1\" standalone=\"no\"?>"

/-- A document with one root element, on lines behind the declaration. -/
inductive Document : Node → String → Prop
  | mk {root : Node} {s : String} : root.isElement = true → Content [root,.data "\n"] s →
      Document root (declaration ++ "\n" ++ s)

/-- A text that spells a node, whatever follows. -/
def Spells (node : Node) (text : String) : Prop :=
  ∀ {nodes : List Node} {s : String}, Content nodes s → Content (node::nodes) (text ++ s)

section
variable {name inner text : String} {attributes : List (String × String)} {children : List Node} {node : Node}

theorem Spells.element (hname : isName name = true) (hattributes : Attributes attributes)
    (hinner : Content children inner) : Spells (.element name attributes children)
      ("<" ++ name ++ attributesText attributes ++ ">" ++ inner ++ "</" ++ name ++ ">") :=
  fun hs => .element hname hattributes hinner hs

theorem Spells.emptyElement (hname : isName name = true) (hattributes : Attributes attributes) :
    Spells (.element name attributes []) ("<" ++ name ++ attributesText attributes ++ " />") :=
  fun hs => .emptyElement hname hattributes hs

/-- A text in an element, or no node at all. -/
def textNodes (text : String) : List Node := if text = "" then [] else [.data text]

theorem content_textNodes (htext : isDataText text = true) : Content (textNodes text) text := by
  unfold textNodes
  split
  · rename_i hempty
    rw [hempty]
    exact .nil
  · rename_i hne
    have hdata := Content.data hne htext (by simp) Content.nil
    rwa [append_empty] at hdata

end

/-- Nodes on lines of their own, with the indentation of the nodes and that of the end. -/
def block (indent close : String) (nodes : List Node) : List Node :=
  nodes.flatMap (fun node => [.data ("\n" ++ indent),node]) ++ [.data ("\n" ++ close)]

/-- A text for each entry of a list. -/
def writeEach {α : Type} (write : α → String) : List α → String
  | [] => ""
  | entry::entries => write entry ++ writeEach write entries

/-- A line that spells an element behind the indentation. -/
structure SpellsLine (indent : String) (node : Node) (line : String) : Prop where
  isElement : node.isElement = true
  spells : ∃ text, line = indent ++ text ++ "\n" ∧ Spells node text

private theorem newline_ne (s : String) : "\n" ++ s ≠ "" := fun h => by
  have hchars := congrArg String.toList h
  simp at hchars

theorem content_block {α : Type} {indent close : String} {node : α → Node} {write : α → String} {entries : List α}
    (hindent : isDataText ("\n" ++ indent) = true) (hclose : isDataText ("\n" ++ close) = true)
    (hlines : ∀ entry ∈ entries, SpellsLine indent (node entry) (write entry)) :
    Content (block indent close (entries.map node)) ("\n" ++ writeEach write entries ++ close) := by
  induction entries with
  | nil =>
    have hdata := Content.data (newline_ne close) hclose (by simp) Content.nil
    rw [append_empty] at hdata
    exact hdata
  | cons entry entries ih =>
    have hrest := ih fun other hother => hlines other (mem_cons_of_mem _ hother)
    obtain ⟨helement,text,hwrite,hspells⟩ := hlines entry mem_cons_self
    have hdata := Content.data (newline_ne indent) hindent
      (fun node hnode => by cases hnode; exact helement) (hspells hrest)
    simpa only [block,writeEach,hwrite,map_cons,flatMap_cons,cons_append,nil_append,
      String.append_assoc] using hdata

section
variable {indent name line : String} {attributes : List (String × String)}

/-- An element whose content stands on lines of its own. -/
theorem SpellsLine.nested {lines : String} {children : List Node} (hname : isName name = true)
    (hattributes : Attributes attributes) (hcontent : Content children ("\n" ++ lines ++ indent))
    (hline : line = indent ++ "<" ++ name ++ attributesText attributes ++ ">" ++ "\n" ++ lines ++ indent ++
      "</" ++ name ++ ">" ++ "\n") : SpellsLine indent (.element name attributes children) line := by
  refine ⟨rfl,_,hline.trans ?_,Spells.element hname hattributes hcontent⟩
  simp only [String.append_assoc]

/-- An element with a text on one line. -/
theorem SpellsLine.text {text : String} (hname : isName name = true) (htext : isDataText text = true)
    (hline : line = indent ++ "<" ++ name ++ ">" ++ text ++ "</" ++ name ++ ">" ++ "\n") :
    SpellsLine indent (.element name [] (textNodes text)) line := by
  refine ⟨rfl,_,hline.trans ?_,Spells.element hname .nil (content_textNodes htext)⟩
  simp only [attributesText,String.append_assoc,String.empty_append]

theorem SpellsLine.empty (hname : isName name = true) (hattributes : Attributes attributes)
    (hline : line = indent ++ "<" ++ name ++ attributesText attributes ++ " />" ++ "\n") :
    SpellsLine indent (.element name attributes []) line := by
  refine ⟨rfl,_,hline.trans ?_,Spells.emptyElement hname hattributes⟩
  simp only [String.append_assoc]

end

theorem filter_block (indent close name : String) (nodes : List Node) :
    (block indent close nodes).filter (Node.isNamed name) = nodes.filter (Node.isNamed name) := by
  rw [block,filter_append]
  induction nodes with
  | nil => rfl
  | cons node nodes ih =>
    have hdata (text : String) : Node.isNamed name (.data text) = false := rfl
    rw [flatMap_cons,filter_append,List.append_assoc,ih]
    simp only [filter_cons,filter_nil,hdata,Bool.false_eq_true,if_false]
    cases node.isNamed name <;> rfl

theorem findNodes_block (name indent close first : String) (attributes : List (String × String))
    (nodes : List Node) (path : List String) :
    (Node.element name attributes (block indent close nodes)).findNodes (first::path) =
      (nodes.filter (Node.isNamed first)).flatMap fun child => child.findNodes path := by
  rw [Node.findNodes,Node.children,filter_block]

theorem getChild_block (name indent close child : String) (attributes : List (String × String)) (nodes : List Node) :
    (Node.element name attributes (block indent close nodes)).getChild child = nodes.find? (Node.isNamed child) := by
  rw [Node.getChild,Node.children,← head?_filter,filter_block,head?_filter]

theorem getData_textNodes (name text : String) (attributes : List (String × String)) :
    (Node.element name attributes (textNodes text)).getData = text := by
  unfold textNodes
  split
  · rename_i hempty
    rw [hempty]
    rfl
  · rfl

end FepParticipant.Library.XML
