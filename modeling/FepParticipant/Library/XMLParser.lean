import FepParticipant.Library.XMLContent

/-! A parser for the documents of `XMLContent`, and that it reads whatever is spelled there. -/
namespace FepParticipant.Library.XML
open List Option Bool Nat String
variable {rest : List Char} {attributes : List (String × String)}

/-- What is left of a text behind an expected piece. -/
def expect : List Char → List Char → Option (List Char)
  | [], text => some text
  | c::piece, d::text => if c = d then expect piece text else none
  | _::_, [] => none

def takeName (text : List Char) : String × List Char :=
  (String.ofList (text.takeWhile nameChar),text.dropWhile nameChar)

/-- The attributes up to the end of a tag. -/
def parseAttributes : Nat → List Char → Option (List (String × String) × List Char)
  | fuel + 1, ' ' :: c::rest =>
    if nameStart c then do
      let (name,rest) := takeName (c::rest)
      let rest ← expect ['=','"'] rest
      let value := String.ofList (rest.takeWhile (· != '"'))
      let rest ← expect ['"'] (rest.dropWhile (· != '"'))
      let (more,rest) ← parseAttributes fuel rest
      return ((name,value)::more,rest)
    else some ([],' ' :: c::rest)
  | _, text => some ([],text)

/-- The nodes up to an end tag or the end of the text. -/
def parseContent : Nat → List Char → Option (List Node × List Char)
  | 0, _ => none
  | _ + 1, [] => some ([],[])
  | _ + 1, '<' :: '/' :: rest => some ([],'<' :: '/' :: rest)
  | fuel + 1, '<' :: rest => do
    let (name,rest) := takeName rest
    let (attributes,rest) ← parseAttributes fuel rest
    match rest with
    | ' ' :: '/' :: '>' :: rest => do
      let (nodes,rest) ← parseContent fuel rest
      return (.element name attributes []::nodes,rest)
    | '>' :: rest => do
      let (children,rest) ← parseContent fuel rest
      let rest ← expect ("</" ++ name ++ ">").toList rest
      let (nodes,rest) ← parseContent fuel rest
      return (.element name attributes children::nodes,rest)
    | _ => none
  | fuel + 1, c::rest => do
    let text := String.ofList ((c::rest).takeWhile (· != '<'))
    let (nodes,rest) ← parseContent fuel ((c::rest).dropWhile (· != '<'))
    return (.data text::nodes,rest)

/-- The root element of a document. -/
def parseDocument (text : String) : Option Node := do
  let rest ← expect (declaration ++ "\n").toList text.toList
  let (nodes,_) ← parseContent (rest.length + 1) rest
  nodes.find? (·.isElement)

theorem expect_append (piece text : List Char) : expect piece (piece ++ text) = some text := by
  induction piece with
  | nil => rfl
  | cons c piece ih => rw [cons_append,expect,if_pos rfl,ih]

/-- A span of characters that ends in front of another one. -/
theorem span_append {p : Char → Bool} {text rest : List Char} (htext : text.all p = true)
    (hrest : ∀ c, rest.head? = some c → p c = false) :
    (text ++ rest).takeWhile p = text ∧ (text ++ rest).dropWhile p = rest := by
  have hall : ∀ c ∈ text, p c = true := all_eq_true.mp htext
  rw [takeWhile_append_of_pos hall,dropWhile_append_of_pos hall]
  cases rest with
  | nil => simp
  | cons c rest => simp [hrest c rfl]

theorem takeName_append {name : String} {rest : List Char} (hname : isName name = true)
    (hrest : ∀ c, rest.head? = some c → nameChar c = false) : takeName (name.toList ++ rest) = (name,rest) := by
  have hall : name.toList.all nameChar = true := by
    rw [isName] at hname
    split at hname
    · cases hname
    · rename_i c more heq
      rw [and_eq_true] at hname
      rw [heq,all_cons,hname.2,Bool.and_true]
      have hstart := hname.1
      simp only [nameStart,or_eq_true] at hstart
      simp only [nameChar,or_eq_true,Char.isAlphanum]
      tauto
  obtain ⟨htake,hdrop⟩ := span_append hall hrest
  rw [takeName,htake,hdrop,ofList_toList]

theorem nameStart_of_isName {name : String} (hname : isName name = true) :
    ∃ c more, name.toList = c::more ∧ nameStart c = true := by
  rw [isName] at hname
  split at hname
  · cases hname
  · rename_i c more heq
    exact ⟨c,more,heq,(and_eq_true_iff.mp hname).1⟩

/-- What follows the attributes of a tag. -/
def ClosesTag (rest : List Char) : Prop := (∃ more, rest = '>' :: more) ∨ ∃ more, rest = ' ' :: '/' :: more

theorem parseAttributes_append (hattributes : Attributes attributes)
    {fuel : Nat} (hfuel : attributes.length ≤ fuel) (hrest : ClosesTag rest) :
    parseAttributes fuel ((attributesText attributes).toList ++ rest) = some (attributes,rest) := by
  induction attributes generalizing fuel with
  | nil =>
    rcases hrest with ⟨more,rfl⟩ | ⟨more,rfl⟩
    · cases fuel <;> rfl
    · cases fuel <;> rfl
  | cons entry attributes ih =>
    obtain ⟨name,value⟩ := entry
    cases fuel with
    | zero => cases hfuel
    | succ fuel =>
      have hname : isName name = true := hattributes.name _ mem_cons_self
      have hvalue : value.toList.all (· != '"') = true := by
        have hall := all_eq_true.mp (hattributes.value _ mem_cons_self)
        refine all_eq_true.mpr fun c hc => ?_
        have := hall c hc
        simp only [attributeChar,and_eq_true] at this
        exact this.2
      have hmore : Attributes attributes :=
        ⟨fun entry hentry => hattributes.name entry (mem_cons_of_mem _ hentry),
          fun entry hentry => hattributes.value entry (mem_cons_of_mem _ hentry),
          (nodup_cons.mp hattributes.nodup).2⟩
      obtain ⟨c,tail,hchars,hstart⟩ := nameStart_of_isName hname
      have htext : (attributesText ((name,value)::attributes)).toList ++ rest =
          ' ' :: (name.toList ++ (['=','"'] ++ (value.toList ++ (['"'] ++
            ((attributesText attributes).toList ++ rest))))) := by
        simp [attributesText,toList_append]
      have htake := @takeName_append _ (['=','"'] ++ (value.toList ++ (['"'] ++
        ((attributesText attributes).toList ++ rest)))) hname (fun c hc => by cases hc; decide)
      obtain ⟨hspan,hdrop⟩ := @span_append _ _
        (['"'] ++ ((attributesText attributes).toList ++ rest)) hvalue (fun c hc => by cases hc; decide)
      rw [htext]
      rw [hchars] at htake ⊢
      rw [cons_append,parseAttributes,if_pos hstart,← cons_append,htake]
      simp only [bind_eq_bind,expect_append,bind_some,hspan,hdrop,ofList_toList,
        ih hmore (le_of_succ_le_succ hfuel)]
      rfl

theorem head_attributes (hrest : ClosesTag rest)
    (d : Char) (hd : ((attributesText attributes).toList ++ rest).head? = some d) : nameChar d = false := by
  cases attributes with
  | nil =>
    rcases hrest with ⟨more,rfl⟩ | ⟨more,rfl⟩
    · cases hd
      decide
    · cases hd
      decide
  | cons entry attributes =>
    simp only [attributesText,toList_append,List.append_assoc] at hd
    cases hd
    decide

theorem length_attributesText (attributes : List (String × String)) :
    attributes.length ≤ (attributesText attributes).toList.length := by
  induction attributes with
  | nil => exact zero_le _
  | cons entry attributes ih =>
    simp only [attributesText,toList_append,List.length_append,length_cons]
    have hspace : " ".toList.length = 1 := by decide
    omega

/-- What ends the content of an element, or that of the document. -/
def EndsContent (rest : List Char) : Prop := rest = [] ∨ ∃ more, rest = '<' :: '/' :: more

theorem head_of_content {nodes : List Node} {s : String} (h : Content nodes s)
    (helement : ∀ node, nodes.head? = some node → node.isElement = true) (hrest : EndsContent rest) (c : Char)
    (hc : (s.toList ++ rest).head? = some c) : c = '<' := by
  cases h with
  | nil =>
    rcases hrest with rfl | ⟨more,rfl⟩
    · cases hc
    · exact (some.inj hc).symm
  | data => cases helement _ rfl
  | element =>
    simp only [toList_append,List.append_assoc] at hc
    exact (some.inj hc).symm
  | emptyElement =>
    simp only [toList_append,List.append_assoc] at hc
    exact (some.inj hc).symm

theorem parseContent_tag {c : Char} (hc : nameStart c = true) (fuel : Nat) :
    parseContent (fuel + 1) ('<' :: c::rest) = (do
      let (name,rest) := takeName (c::rest)
      let (attributes,rest) ← parseAttributes fuel rest
      match rest with
      | ' ' :: '/' :: '>' :: rest => do
        let (nodes,rest) ← parseContent fuel rest
        return (.element name attributes []::nodes,rest)
      | '>' :: rest => do
        let (children,rest) ← parseContent fuel rest
        let rest ← expect ("</" ++ name ++ ">").toList rest
        let (nodes,rest) ← parseContent fuel rest
        return (.element name attributes children::nodes,rest)
      | _ => none) := by
  have hne : c ≠ '/' := by rintro rfl; revert hc; decide
  rw [parseContent]
  intro more h
  exact hne (List.cons.inj h).1

private theorem parseContent_data {c : Char} (hc : c ≠ '<') (fuel : Nat) : parseContent (fuel + 1) (c::rest) = (do
      let text := String.ofList ((c::rest).takeWhile (· != '<'))
      let (nodes,rest) ← parseContent fuel ((c::rest).dropWhile (· != '<'))
      return (.data text::nodes,rest)) := by
  rw [parseContent]
  · intro more h _
    exact hc h
  · exact hc

/-- Whatever is spelled is read. -/
theorem parseContent_append {nodes : List Node} {s : String} (h : Content nodes s) {fuel : Nat} {rest : List Char}
    (hfuel : s.toList.length < fuel) (hrest : EndsContent rest) :
    parseContent fuel (s.toList ++ rest) = some (nodes,rest) := by
  induction h generalizing fuel rest with
  | nil =>
    obtain ⟨fuel,rfl⟩ := exists_eq_succ_of_ne_zero (ne_of_gt hfuel)
    rcases hrest with rfl | ⟨more,rfl⟩ <;> rfl
  | data hne htext helement hs ih =>
    rename_i text s nodes
    cases htoList : text.toList with
    | nil => exact absurd (toList_eq_nil_iff.mp htoList) hne
    | cons c tail =>
      have hall : text.toList.all (· != '<') = true := by
        refine all_eq_true.mpr fun d hd => ?_
        have := all_eq_true.mp (and_eq_true_iff.mp htext).1 d hd
        simp only [dataChar,and_eq_true] at this
        exact this.1.2
      obtain ⟨hspan,hdrop⟩ := @span_append _ _ (s.toList ++ rest) hall fun d hd => by
        rw [head_of_content hs helement hrest d hd]
        rfl
      have hc : c ≠ '<' := by
        rw [htoList,all_cons,and_eq_true,bne_iff_ne] at hall
        exact hall.1
      rw [toList_append,List.length_append,htoList,length_cons] at hfuel
      obtain ⟨fuel,rfl⟩ := exists_eq_succ_of_ne_zero (ne_of_gt (zero_lt_of_lt hfuel))
      rw [htoList] at hspan hdrop
      rw [toList_append,List.append_assoc,htoList,cons_append,parseContent_data hc,
        ← cons_append,hspan,hdrop,ih (by omega) hrest]
      rw [← htoList,ofList_toList]
      rfl
  | element hname hattributes hchildren hs ihchildren ih =>
    rename_i name inner s attributes children nodes
    obtain ⟨c,tail,hchars,hstart⟩ := nameStart_of_isName hname
    have htext : ("<" ++ name ++ attributesText attributes ++ ">" ++ inner ++ "</" ++ name ++ ">" ++ s).toList ++ rest =
        '<' :: (name.toList ++ ((attributesText attributes).toList ++ ('>' :: (inner.toList ++
          (("</" ++ name ++ ">").toList ++ (s.toList ++ rest)))))) := by
      simp [toList_append]
    have hlength := length_attributesText attributes
    have hsum : attributes.length + inner.toList.length + s.toList.length + 1 < fuel := by
      simp only [toList_append,List.length_append] at hfuel
      have hlt : "<".toList.length = 1 := by decide
      omega
    obtain ⟨fuel,rfl⟩ := exists_eq_succ_of_ne_zero (ne_of_gt (zero_lt_of_lt hsum))
    have hcloses : ClosesTag ('>' :: (inner.toList ++ (("</" ++ name ++ ">").toList ++ (s.toList ++ rest)))) :=
      .inl ⟨_,rfl⟩
    have hends : EndsContent (("</" ++ name ++ ">").toList ++ (s.toList ++ rest)) := by
      refine .inr ⟨name.toList ++ ('>' :: (s.toList ++ rest)),?_⟩
      simp [toList_append]
    have htake := @takeName_append _ ((attributesText attributes).toList ++ ('>' :: (inner.toList ++
      (("</" ++ name ++ ">").toList ++ (s.toList ++ rest))))) hname (head_attributes hcloses)
    rw [htext]
    rw [hchars] at htake ⊢
    rw [cons_append,parseContent_tag hstart,← cons_append,htake]
    simp only [bind_eq_bind,parseAttributes_append hattributes (by omega : attributes.length ≤ fuel) hcloses,
      bind_some,ihchildren (by omega : inner.toList.length < fuel) hends,expect_append,
      ih (by omega : s.toList.length < fuel) hrest]
    rfl
  | emptyElement hname hattributes hs ih =>
    rename_i name s attributes nodes
    obtain ⟨c,tail,hchars,hstart⟩ := nameStart_of_isName hname
    have htext : ("<" ++ name ++ attributesText attributes ++ " />" ++ s).toList ++ rest =
        '<' :: (name.toList ++ ((attributesText attributes).toList ++ (' ' :: '/' :: '>' :: (s.toList ++ rest)))) := by
      simp [toList_append]
    have hlength := length_attributesText attributes
    have hsum : attributes.length + s.toList.length + 1 < fuel := by
      simp only [toList_append,List.length_append] at hfuel
      have hend : " />".toList.length = 3 := by decide
      omega
    obtain ⟨fuel,rfl⟩ := exists_eq_succ_of_ne_zero (ne_of_gt (zero_lt_of_lt hsum))
    have hcloses : ClosesTag (' ' :: '/' :: '>' :: (s.toList ++ rest)) := .inr ⟨_,rfl⟩
    have htake := @takeName_append _ ((attributesText attributes).toList ++
      (' ' :: '/' :: '>' :: (s.toList ++ rest))) hname (head_attributes hcloses)
    rw [htext]
    rw [hchars] at htake ⊢
    rw [cons_append,parseContent_tag hstart,← cons_append,htake]
    simp only [bind_eq_bind,parseAttributes_append hattributes (by omega : attributes.length ≤ fuel) hcloses,
      bind_some,ih (by omega : s.toList.length < fuel) hrest]
    rfl

/-- Every document that is spelled is parsed. -/
theorem parseDocument_of_document {root : Node} {text : String} (h : Document root text) :
    parseDocument text = some root := by
  cases h with
  | mk hroot hs =>
    rename_i s
    have hparse := parseContent_append hs (lt_succ_self _) (.inl rfl)
    have htext : (declaration ++ "\n" ++ s).toList = (declaration ++ "\n").toList ++ s.toList := toList_append ..
    rw [parseDocument,htext,expect_append]
    rw [append_nil] at hparse
    simp only [bind_eq_bind,bind_some,hparse,find?_cons,hroot]

end FepParticipant.Library.XML
