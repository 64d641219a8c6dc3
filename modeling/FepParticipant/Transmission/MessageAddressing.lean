import FepParticipant.Transmission.MessageListeners
import Mathlib.Computability.Language

/-! Whom a message is addressed to, and whose incidents the handler takes: patterns that a textual replacement makes
regular expressions of. -/
namespace FepParticipant.Transmission
open Computability List Nat

/-- `a_util::strings::replace` of a single character. -/
def replace (what : Char) (replacement text : List Char) : List Char :=
  text.flatMap fun c => if c = what then replacement else [c]

/-- What the JSON nodes of a message tell of it, with the text of the type if there is one. -/
inductive MessageBody where
  | command (type : Option String)
  | notification (type : Option String)
  | other

structure ReceivedMessage where
  nMajorVer : Nat
  strReceiver : List Char
  strSender : List Char
  body : MessageBody

def notificationTypes : List String :=
  ["log","state","property","property_changed","name_changed","reg_prop_listener_ack","unreg_prop_listener_ack",
    "signal_info","signal_description","result_code","schedule"]

/-- A command of an unknown type is a custom command; a notification of an unknown type is none. -/
def MessageBody.kind : MessageBody → Option MessageKind
  | .command (some _) => some .command
  | .notification (some strNot) => if strNot ∈ notificationTypes then some .notification else none
  | _ => none

inductive UpdateOutcome where
  | provided (kind : MessageKind)
  | majorVersionFailed
  | ignored

/-- The own version, the module's name, the full match of a regular expression, and what `ProvideCommand` and
`ProvideNotification` return. -/
structure AddressedAdapter where
  nMajorVer : Nat
  moduleName : Option (List Char)
  fullMatch : List Char → List Char → Bool
  provide : MessageKind → Result

def receiverFilter (strReceiver : List Char) : List Char := replace '?' ['.'] (replace '*' ['.','*'] strReceiver)

/-- `cTransmissionAdapter::Update`. -/
def AddressedAdapter.update (adapter : AddressedAdapter) (message : ReceivedMessage) : UpdateOutcome × Result :=
  match adapter.moduleName with
  | none => (.ignored,.errUnexpected)
  | some strModuleName =>
    if adapter.fullMatch (receiverFilter message.strReceiver) strModuleName && strModuleName != message.strSender then
      if adapter.nMajorVer = message.nMajorVer then
        match message.body.kind with
        | some kind => (.provided kind,adapter.provide kind)
        | none => (.ignored,.errNoError)
      else (.majorVersionFailed,.errNoError)
    else (.ignored,.errNoError)

/-- What `cIncidentHandler` remembers of its properties for incidents of others. -/
structure SourceMatcher where
  m_bEnableGlobalScope : Bool
  m_strFilterGlobalSource : List Char

/-- `ProcessPropertyChange` for the source filter. -/
def SourceMatcher.setSourceFilter (handler : SourceMatcher) (strVal : List Char) : SourceMatcher :=
  {handler with m_strFilterGlobalSource := replace '*' ['.','*'] strVal}

/-- `cIncidentHandler::Update` forwards the incident. -/
def SourceMatcher.forwards (fullMatch : List Char → List Char → Bool) (handler : SourceMatcher)
    (sender : List Char) : Bool :=
  handler.m_bEnableGlobalScope && fullMatch handler.m_strFilterGlobalSource sender

section Patterns

def anyChar : Language Char := {text | text.length = 1}

/-- The texts that a character of a pattern stands for. -/
def globItem : Char → Language Char
  | '*' => ⊤
  | '?' => anyChar
  | c => {[c]}

/-- The names that a pattern matches. -/
def glob (pattern : List Char) : Language Char := (pattern.map globItem).prod

/-- A single character of a regular expression, or the point, with a star or a question mark behind it or both. -/
structure RegexItem where
  literal : Option Char
  star : Bool
  question : Bool

namespace RegexItem

def suffix (item : RegexItem) : List Char := (if item.star then ['*'] else []) ++ if item.question then ['?'] else []

def text (item : RegexItem) : List Char := item.literal.getD '.' :: item.suffix

/-- The question mark behind a star makes it lazy, which is of no effect on a full match. -/
def language (item : RegexItem) : Language Char :=
  let single : Language Char := match item.literal with
    | some c => {[c]}
    | none => anyChar
  if item.star then single∗ else if item.question then 1 + single else single

end RegexItem

/-- The characters besides the point, the star and the question mark that can have a meaning of their own. -/
def metacharacters : List Char := ['+','(',')','[','{','|','^','$','\\']

def RegexItem.Valid (item : RegexItem) : Prop := ∀ c ∈ item.literal, c ∉ metacharacters ∧ c ≠ '.' ∧ c ≠ '*' ∧ c ≠ '?'

/-- What regular expressions without grouping, alternatives, classes, anchors and escapes mean. -/
def StandardRegex (fullMatch : List Char → List Char → Bool) : Prop :=
  ∀ items : List RegexItem, (∀ item ∈ items, item.Valid) → ∀ text,
    fullMatch (items.flatMap RegexItem.text) text = true ↔ text ∈ (items.map RegexItem.language).prod

end Patterns

section Addressing
variable (fullMatch : List Char → List Char → Bool) (pattern : List Char)

/-- Messages for the pattern are handed to the listeners of those, but the sender, whose name it matches. -/
def DeliversByGlob : Prop :=
  ∀ (name : List Char) (provide : MessageKind → Result) (message : ReceivedMessage) (kind : MessageKind),
    message.strReceiver = pattern → message.body.kind = some kind →
    ((AddressedAdapter.update ⟨message.nMajorVer,some name,fullMatch,provide⟩ message).1 = .provided kind ↔
      message.strSender ≠ name ∧ name ∈ glob pattern)

/-- The incident handler with the pattern as its source filter takes the incidents of those whose name it matches. -/
def SelectsByGlob : Prop :=
  ∀ (handler : SourceMatcher) (sender : List Char), handler.m_bEnableGlobalScope = true →
    ((handler.setSourceFilter pattern).forwards fullMatch sender = true ↔ sender ∈ glob pattern)

end Addressing

variable {fullMatch : List Char → List Char → Bool} {pattern : List Char}

theorem deliversByGlob_iff : DeliversByGlob fullMatch pattern ↔
    ∀ name, fullMatch (receiverFilter pattern) name = true ↔ name ∈ glob pattern := by
  constructor
  · intro h name
    have hother := h name (fun _ => .errNoError) ⟨0,pattern,'x' :: name,.command (some "")⟩ .command rfl rfl
    cases hmatch : fullMatch (receiverFilter pattern) name <;>
      simpa [AddressedAdapter.update,MessageBody.kind,hmatch] using hother
  · rintro h name provide message kind rfl hkind
    rw [← h name]
    by_cases hsender : message.strSender = name
    · simp [AddressedAdapter.update,hsender]
    · cases hmatch : fullMatch (receiverFilter message.strReceiver) name <;>
        simp [AddressedAdapter.update,hsender,hmatch,hkind,Ne.symm hsender]

theorem selectsByGlob_iff : SelectsByGlob fullMatch pattern ↔
    ∀ name, fullMatch (replace '*' ['.','*'] pattern) name = true ↔ name ∈ glob pattern := by
  constructor
  · intro h name
    exact h ⟨true,[]⟩ name rfl
  · intro h handler sender hscope
    rw [SourceMatcher.forwards,SourceMatcher.setSourceFilter,hscope,Bool.true_and]
    exact h sender

/-- The item that the replacements leave of a character of a pattern. -/
def itemOf (c : Char) : RegexItem :=
  if c = '*' then ⟨none,true,false⟩ else if c = '?' ∨ c = '.' then ⟨none,false,false⟩ else ⟨some c,false,false⟩

theorem receiverFilter_eq : receiverFilter pattern = (pattern.map itemOf).flatMap RegexItem.text := by
  rw [receiverFilter,replace,replace,flatMap_assoc,flatMap_map]
  congr 1
  funext c
  by_cases hstar : c = '*'
  · simp [hstar,itemOf,RegexItem.text,RegexItem.suffix]
  · by_cases hany : c = '?'
    · simp [hany,itemOf,RegexItem.text,RegexItem.suffix]
    · by_cases hpoint : c = '.' <;> simp [hstar,hany,hpoint,itemOf,RegexItem.text,RegexItem.suffix]

theorem valid_itemOf {c : Char} (hc : c ∉ metacharacters) : (itemOf c).Valid := by
  intro literal hliteral
  rw [itemOf] at hliteral
  split at hliteral
  · cases hliteral
  · split at hliteral
    · cases hliteral
    · cases hliteral
      simp_all [not_or]

private theorem kstar_anyChar : anyChar∗ = ⊤ := by
  refine top_unique fun text _ => Language.mem_kstar.mpr ⟨text.map fun c => [c],?_,?_⟩
  · rw [← flatMap_def,flatMap_singleton']
  · intro single hsingle
    obtain ⟨c,-,rfl⟩ := mem_map.mp hsingle
    rfl

theorem language_itemOf {c : Char} (hc : c ≠ '.') : (itemOf c).language = globItem c := by
  by_cases hstar : c = '*'
  · simp [hstar,itemOf,RegexItem.language,globItem,kstar_anyChar]
  · by_cases hany : c = '?'
    · simp [hany,itemOf,RegexItem.language,globItem]
    · simp [hstar,hany,hc,itemOf,RegexItem.language,globItem]

theorem flatMap_mem_prod {ι : Type} {language : ι → Language Char} {sample : ι → List Char} {items : List ι}
    (h : ∀ item ∈ items, sample item ∈ language item) : items.flatMap sample ∈ (items.map language).prod := by
  induction items with
  | nil => exact Language.nil_mem_one
  | cons item items ih =>
    rw [forall_mem_cons] at h
    exact Language.append_mem_mul h.1 (ih h.2)

theorem countP_le_of_mem_glob {p q : Char → Bool} (hitem : ∀ c, p c = true → ∀ text ∈ globItem c, 1 ≤ text.countP q)
    {name : List Char} (h : name ∈ glob pattern) : pattern.countP p ≤ name.countP q := by
  induction pattern generalizing name with
  | nil => exact zero_le _
  | cons c pattern ih =>
    obtain ⟨text,htext,rest,hrest,rfl⟩ := Language.mem_mul.mp h
    rw [countP_cons,countP_append]
    have := ih hrest
    split
    · have := hitem c ‹_› text htext
      omega
    · omega

/-- A text of a character of a pattern that the regular expression matches, without a point. -/
def sampleOf (c : Char) : List Char := if c = '*' then [] else if c = '?' ∨ c = '.' then ['x'] else [c]

theorem sampleOf_mem_language (c : Char) : sampleOf c ∈ (itemOf c).language := by
  by_cases hstar : c = '*'
  · simp [hstar,sampleOf,itemOf,RegexItem.language,Language.nil_mem_kstar]
  · by_cases hany : c = '?' ∨ c = '.'
    · simp only [sampleOf,itemOf,RegexItem.language,if_neg hstar,if_pos hany]
      exact rfl
    · simp only [sampleOf,itemOf,RegexItem.language,if_neg hstar,if_neg hany]
      exact rfl

/-- Of the characters with a meaning in a regular expression the point alone tells a message for a pattern of the
others from what was meant. -/
theorem deliversByGlob_iff_not_mem (hstandard : StandardRegex fullMatch)
    (hpattern : ∀ c ∈ pattern, c ∉ metacharacters) : DeliversByGlob fullMatch pattern ↔ '.' ∉ pattern := by
  have hvalid : ∀ item ∈ pattern.map itemOf, item.Valid := forall_mem_map.mpr fun c hc => valid_itemOf (hpattern c hc)
  rw [deliversByGlob_iff,receiverFilter_eq]
  simp only [hstandard _ hvalid,map_map]
  constructor
  · intro h hpoint
    have hmem := (h _).mp (flatMap_mem_prod fun c _ => sampleOf_mem_language c)
    have hcount : pattern.countP (· = '.') ≤ (pattern.flatMap sampleOf).countP (· = '.') := by
      refine countP_le_of_mem_glob (fun c hc text htext => ?_) hmem
      rw [of_decide_eq_true hc] at htext
      rw [show text = ['.'] from htext]
      decide
    have hnone : (pattern.flatMap sampleOf).countP (· = '.') = 0 := by
      refine countP_eq_zero.mpr fun c hc => ?_
      obtain ⟨d,-,hd⟩ := mem_flatMap.mp hc
      rw [sampleOf] at hd
      split at hd
      · cases hd
      · split at hd <;> simp_all
    exact Nat.not_lt_of_le (hcount.trans hnone.le) (countP_pos_iff.mpr ⟨'.',hpoint,by decide⟩)
  · intro hpoint name
    have hlanguage : pattern.map (RegexItem.language ∘ itemOf) = pattern.map globItem :=
      map_congr_left fun c hc => language_itemOf fun h => hpoint (h ▸ hc)
    rw [hlanguage]
    rfl

/-- Without question marks the source filter is the same expression as the receiver. -/
theorem selectsByGlob_iff_deliversByGlob (hany : '?' ∉ pattern) :
    SelectsByGlob fullMatch pattern ↔ DeliversByGlob fullMatch pattern := by
  have hsame : receiverFilter pattern = replace '*' ['.','*'] pattern := by
    refine (flatMap_congr fun c hc => if_neg ?_).trans (flatMap_singleton' _)
    rintro rfl
    obtain ⟨d,hd,hmem⟩ := mem_flatMap.mp hc
    split at hmem
    · simp at hmem
    · exact hany (mem_singleton.mp hmem ▸ hd)
  rw [selectsByGlob_iff,deliversByGlob_iff,hsame]

/-- A character of a pattern with a question mark behind it or not. -/
structure PatternToken where
  c : Char
  question : Bool

namespace PatternToken

def text (token : PatternToken) : List Char := token.c::if token.question then ['?'] else []

def item (token : PatternToken) : RegexItem := {itemOf token.c with question := token.question}

/-- The shortest text that the regular expression matches. -/
def shortest (token : PatternToken) : List Char := if token.question then [] else sampleOf token.c

theorem shortest_mem_language (token : PatternToken) : token.shortest ∈ token.item.language := by
  cases hquestion : token.question with
  | false =>
    have hitem : token.item = itemOf token.c := by
      rw [item,itemOf,hquestion]
      split_ifs <;> rfl
    rw [shortest,hquestion,hitem]
    exact sampleOf_mem_language token.c
  | true =>
    simp only [shortest,item,RegexItem.language,hquestion,if_true]
    split_ifs
    · exact Language.nil_mem_kstar _
    · exact .inl rfl

private theorem replace_text {token : PatternToken} (hc : token.c ≠ '?') :
    replace '*' ['.','*'] token.text = token.item.text := by
  rw [text,item,RegexItem.text,RegexItem.suffix,itemOf,replace]
  by_cases hstar : token.c = '*'
  · cases token.question <;> simp [hstar]
  · by_cases hpoint : token.c = '.' <;> cases token.question <;> simp [hstar,hpoint,hc]

private theorem length_shortest_le (token : PatternToken) :
    token.shortest.length + (if token.question then 1 else 0) ≤ token.text.countP (· ≠ '*') := by
  rw [shortest,text,sampleOf]
  cases token.question <;> split_ifs <;> simp_all

end PatternToken

/-- The source filter makes optional what stands before a question mark, so that it takes a name that is too short. -/
theorem not_mem_of_selectsByGlob {tokens : List PatternToken} (hstandard : StandardRegex fullMatch)
    (htokens : ∀ token ∈ tokens, token.c ≠ '?' ∧ token.c ∉ metacharacters)
    (h : SelectsByGlob fullMatch (tokens.flatMap PatternToken.text)) : '?' ∉ tokens.flatMap PatternToken.text := by
  intro hany
  have hfilter : replace '*' ['.','*'] (tokens.flatMap PatternToken.text) =
      (tokens.map PatternToken.item).flatMap RegexItem.text := by
    rw [replace,flatMap_assoc,flatMap_map]
    exact flatMap_congr fun token htoken => PatternToken.replace_text (htokens token htoken).1
  have hvalid : ∀ item ∈ tokens.map PatternToken.item, item.Valid :=
    forall_mem_map.mpr fun token htoken => valid_itemOf (htokens token htoken).2
  rw [selectsByGlob_iff,hfilter] at h
  simp only [hstandard _ hvalid,map_map] at h
  have hmem := (h _).mp (flatMap_mem_prod fun token _ => token.shortest_mem_language)
  have hlong : (tokens.flatMap PatternToken.text).countP (· ≠ '*') ≤
      (tokens.flatMap PatternToken.shortest).countP fun _ => true := by
    refine countP_le_of_mem_glob (fun c hc text htext => ?_) hmem
    rw [countP_true]
    by_cases hquestion : c = '?'
    · rw [hquestion] at htext
      exact le_of_eq (show text.length = 1 from htext).symm
    · have hsingle : globItem c = {[c]} := by simp_all [globItem]
      rw [hsingle] at htext
      rw [show text = [c] from htext]
      exact le_refl _
  have hshort : (tokens.flatMap PatternToken.shortest).length + tokens.countP PatternToken.question ≤
      (tokens.flatMap PatternToken.text).countP (· ≠ '*') := by
    clear * -
    induction tokens with
    | nil => exact le_refl _
    | cons token tokens ih =>
      have := token.length_shortest_le
      rw [flatMap_cons,flatMap_cons,length_append,countP_append,countP_cons]
      omega
  have hquestion : 0 < tokens.countP PatternToken.question := by
    obtain ⟨token,htoken,hmem⟩ := mem_flatMap.mp hany
    refine countP_pos_iff.mpr ⟨token,htoken,?_⟩
    rw [PatternToken.text] at hmem
    cases hquestion : token.question with
    | true => rfl
    | false =>
      rw [hquestion,if_neg Bool.false_ne_true,mem_singleton] at hmem
      exact absurd hmem.symm (htokens token htoken).1
  rw [countP_true] at hlong
  omega

/-- Patterns without metacharacters are treated as they should be. A point goes wrong for both, and a question mark
behind another character for the source filter. -/
theorem message_addressing (hstandard : StandardRegex fullMatch) (pattern : List Char) :
    ((∀ c ∈ pattern, c ∉ metacharacters) → '.' ∉ pattern →
      DeliversByGlob fullMatch pattern ∧ ('?' ∉ pattern → SelectsByGlob fullMatch pattern)) ∧
    ∀ tokens : List PatternToken, (∀ token ∈ tokens, token.c ≠ '?' ∧ token.c ∉ metacharacters) →
      pattern = tokens.flatMap PatternToken.text →
      (DeliversByGlob fullMatch pattern → '.' ∉ pattern) ∧
        (SelectsByGlob fullMatch pattern → '.' ∉ pattern ∧ '?' ∉ pattern) := by
  constructor
  · intro hpattern hpoint
    have hdelivers := (deliversByGlob_iff_not_mem hstandard hpattern).mpr hpoint
    exact ⟨hdelivers,fun hany => (selectsByGlob_iff_deliversByGlob hany).mpr hdelivers⟩
  · rintro tokens htokens rfl
    have hpattern : ∀ c ∈ tokens.flatMap PatternToken.text, c ∉ metacharacters := by
      intro c hc
      obtain ⟨token,htoken,hmem⟩ := mem_flatMap.mp hc
      rw [PatternToken.text,mem_cons] at hmem
      rcases hmem with rfl | hmem
      · exact (htokens token htoken).2
      · split at hmem
        · rw [mem_singleton.mp hmem]
          decide
        · cases hmem
    have hiff := deliversByGlob_iff_not_mem hstandard hpattern
    refine ⟨hiff.mp,fun hselects => ?_⟩
    have hany := not_mem_of_selectsByGlob hstandard htokens hselects
    exact ⟨hiff.mp ((selectsByGlob_iff_deliversByGlob hany).mp hselects),hany⟩

open Classical in
/-- The full match of the expressions that are lists of items. -/
noncomputable def itemsMatch (regex text : List Char) : Bool :=
  decide (∃ items : List RegexItem, (∀ item ∈ items, item.Valid) ∧ items.flatMap RegexItem.text = regex ∧
    text ∈ (items.map RegexItem.language).prod)

theorem takeWhile_suffix (item : RegexItem) {items : List RegexItem} (hvalid : ∀ item ∈ items, item.Valid) :
    (item.suffix ++ items.flatMap RegexItem.text).takeWhile (· ∈ ['*','?']) = item.suffix := by
  have hsuffix : ∀ c ∈ item.suffix, (c ∈ ['*','?'] : Bool) = true := by
    rw [RegexItem.suffix]
    cases item.star <;> cases item.question <;> simp
  have hrest : (items.flatMap RegexItem.text).takeWhile (· ∈ ['*','?']) = [] := by
    cases items with
    | nil => rfl
    | cons next items =>
      have hnext := hvalid next mem_cons_self
      refine takeWhile_cons_of_neg ?_
      cases hliteral : next.literal with
      | none => decide
      | some c =>
        obtain ⟨-,-,hstar,hany⟩ := hnext c hliteral
        simp [hstar,hany]
  rw [takeWhile_append_of_pos hsuffix,hrest,append_nil]

private theorem item_eq {item item' : RegexItem} (hvalid : item.Valid) (hvalid' : item'.Valid)
    (hliteral : item.literal.getD '.' = item'.literal.getD '.') (hsuffix : item.suffix = item'.suffix) :
    item = item' := by
  obtain ⟨literal,star,question⟩ := item
  obtain ⟨literal',star',question'⟩ := item'
  have hflags : star = star' ∧ question = question' := by
    cases star <;> cases star' <;> cases question <;> cases question' <;> simp [RegexItem.suffix] at hsuffix ⊢
  rw [RegexItem.mk.injEq]
  refine ⟨?_,hflags⟩
  cases literal with
  | none =>
    cases literal' with
    | none => rfl
    | some c => exact absurd hliteral.symm (hvalid' c rfl).2.1
  | some c =>
    cases literal' with
    | none => exact absurd hliteral (hvalid c rfl).2.1
    | some c' => exact congrArg some hliteral

private theorem items_eq {items items' : List RegexItem} (hvalid : ∀ item ∈ items, item.Valid)
    (hvalid' : ∀ item ∈ items', item.Valid) (h : items.flatMap RegexItem.text = items'.flatMap RegexItem.text) :
    items = items' := by
  induction items generalizing items' with
  | nil =>
    cases items' with
    | nil => rfl
    | cons item' items' => cases h
  | cons item items ih =>
    cases items' with
    | nil => cases h
    | cons item' items' =>
      obtain ⟨hitem,hitems⟩ := forall_mem_cons.mp hvalid
      obtain ⟨hitem',hitems'⟩ := forall_mem_cons.mp hvalid'
      rw [flatMap_cons,flatMap_cons,RegexItem.text,RegexItem.text,cons_append,cons_append,List.cons.injEq] at h
      obtain ⟨hliteral,htail⟩ := h
      have hsuffix := congrArg (List.takeWhile (· ∈ ['*','?'])) htail
      rw [takeWhile_suffix item hitems,takeWhile_suffix item' hitems'] at hsuffix
      rw [hsuffix,append_cancel_left_eq] at htail
      rw [item_eq hitem hitem' hliteral hsuffix,ih hitems hitems' htail]

theorem standardRegex_itemsMatch : StandardRegex itemsMatch := by
  intro items hvalid text
  simp only [itemsMatch,decide_eq_true_eq]
  constructor
  · rintro ⟨items',hvalid',htext,hmem⟩
    rwa [items_eq hvalid hvalid' htext.symm]
  · intro hmem
    exact ⟨items,hvalid,rfl,hmem⟩

theorem message_addressing_any : DeliversByGlob itemsMatch ['a','?','*'] :=
  ((message_addressing standardRegex_itemsMatch ['a','?','*']).1 (by simp [metacharacters]) (by decide)).1

/-- A message for `a.b` is delivered to `axb` too. -/
theorem other_name_addressed : ¬∀ (fullMatch : List Char → List Char → Bool), StandardRegex fullMatch →
    ∀ pattern, DeliversByGlob fullMatch pattern ∧ SelectsByGlob fullMatch pattern := by
  intro h
  have hdelivers := (h itemsMatch standardRegex_itemsMatch ['a','.','b']).1
  exact (deliversByGlob_iff_not_mem standardRegex_itemsMatch (by simp [metacharacters])).mp hdelivers (by decide)

end FepParticipant.Transmission
