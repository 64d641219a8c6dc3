import FepParticipant.Library.SplitTokens
import FepParticipant.Result
import FepParticipant.Transmission.ReceiveQueue

/-! The selection of network interfaces by an address and the length of its prefix, and which lengths shift the
mask by an amount that has no meaning. -/
namespace FepParticipant.Base
open Library Transmission Option List

/-- `htonl`: the bytes of a number from the most significant one on, read as a number of the system. -/
def htonl : ByteOrder → BitVec 32 → BitVec 32
  | .be, n => n
  | .le, n => n.extractLsb' 0 8 ++ n.extractLsb' 8 8 ++ n.extractLsb' 16 8 ++ n.extractLsb' 24 8

def digitsValue (base : Nat) (digits : List Char) : Option Nat :=
  digits.foldlM (fun value c =>
    if '0'.toNat ≤ c.toNat ∧ c.toNat < '0'.toNat + base then some (value * base + (c.toNat - '0'.toNat)) else none) 0

def addressPart (part : List Char) : Option Nat :=
  if part = [] then none
  else (digitsValue (if part.head? = some '0' then 8 else 10) part).filter (· < 256)

/-- The address that a text of digits and points with at least three points stands for. -/
def addressOf (text : List Char) : Option (BitVec 32) :=
  match (text.splitOn '.').mapM addressPart with
  | some [a,b,c,d] => some (BitVec.ofNat 32 (((a * 256 + b) * 256 + c) * 256 + d))
  | _ => none

/-- `INADDR_NONE`. -/
def inaddrNone : BitVec 32 := BitVec.allOnes 32

/-- `inet_addr`. -/
def inetAddr (order : ByteOrder) (text : List Char) : BitVec 32 :=
  match addressOf text with
  | some address => htonl order address
  | none => inaddrNone

/-- The shift of an unsigned number, which is undefined for a count that is negative or not below the width. -/
def shiftLeft (n : BitVec 32) (count : Int) : Option (BitVec 32) :=
  if 0 ≤ count ∧ count < 32 then some (n <<< count.toNat) else none

/-- `a_util::strings::split` at the points, with the empty tokens or without them. -/
def splitAtPoints (keepEmpty : Bool) (text : List Char) : List (List Char) :=
  if keepEmpty then text.splitOn '.' else tokens '.' text

theorem length_splitAtPoints (keepEmpty : Bool) (text : List Char) :
    (splitAtPoints keepEmpty (text ++ ['.','0'])).length = (splitAtPoints keepEmpty text).length + 1 := by
  have hsplit : (text ++ ['.','0']).splitOn '.' = text.splitOn '.' ++ [['0']] :=
    splitOn_append_cons_of_beq text ['0'] (beq_self_eq_true '.')
  cases keepEmpty with
  | true => simp [splitAtPoints,hsplit]
  | false => simp [splitAtPoints,tokens,hsplit]

def fillAddressPart (keepEmpty : Bool) (strAddressPart : List Char) : List Char :=
  if (splitAtPoints keepEmpty strAddressPart).length < 4 then fillAddressPart keepEmpty (strAddressPart ++ ['.','0'])
  else strAddressPart
termination_by 4 - (splitAtPoints keepEmpty strAddressPart).length
decreasing_by
  rw [length_splitAtPoints]
  omega

/-- A full match of `^([0-9][0-9\\.]{0,14})\\/([0-9]{1,2})$`, with its two groups. -/
def matchAddressMask (text : List Char) : Option (List Char × List Char) :=
  match text.splitOn '/' with
  | [first::rest,length] =>
    if first.isDigit ∧ (rest.all fun c => c.isDigit || c = '.') ∧ rest.length ≤ 14 ∧
      length.all Char.isDigit ∧ 1 ≤ length.length ∧ length.length ≤ 2
    then some (first::rest,length) else none
  | _ => none

/-- `atoi` of a text of digits. -/
def atoi (text : List Char) : Nat := (digitsValue 10 text).getD 0

/-- `cAddress` with what `GetHostAddr` and `GetInterfaceName` return. -/
structure Address where
  hostAddr : BitVec 32
  interfaceName : String

/-- The system: the addresses of `cAddressList`, the valid address made of a name, and a full match of a regular
expression. -/
structure NetworkSystem where
  order : ByteOrder
  keepEmpty : Bool
  addressList : List Address
  addressOfName : String → Option Address
  fullMatch : String → BitVec 32 → Bool

namespace NetworkSystem

variable (system : NetworkSystem)

def interfacePattern (strInterfaceName : String) : String :=
  String.ofList (strInterfaceName.toList.flatMap fun c =>
    if c = '.' then ['\\','.'] else if c = '*' then ['.','*'] else if c = '?' then ['.'] else [c])

def appendMatching (m_voAdresses : List Address) (selects : Address → Bool) : Option (List Address × Result) :=
  if system.addressList.any selects then some (m_voAdresses ++ system.addressList.filter selects,.errNoError)
  else none

/-- The second and the third try. -/
def appendByName (m_voAdresses : List Address) (strInterfaceName : String) : List Address × Result :=
  match system.addressOfName strInterfaceName with
  | some oAddress => (m_voAdresses ++ [oAddress],.errNoError)
  | none =>
    (system.appendMatching m_voAdresses fun oAddress =>
      system.fullMatch (interfacePattern strInterfaceName) oAddress.hostAddr).getD (m_voAdresses,.errInvalidArg)

/-- `AppendToNetworkInterfaceList`, which has no result where the shift is undefined. -/
def appendToNetworkInterfaceList (m_voAdresses : List Address) (strInterfaceName : String) :
    Option (List Address × Result) :=
  match matchAddressMask strInterfaceName.toList with
  | none => some (system.appendByName m_voAdresses strInterfaceName)
  | some (strAddressPart,strLengthPart) =>
    let nAddr := inetAddr system.order (fillAddressPart system.keepEmpty strAddressPart)
    if nAddr = inaddrNone then some (m_voAdresses,.errInvalidArg)
    else do
      let nMask ← shiftLeft (BitVec.allOnes 32) (32 - (atoi strLengthPart : Int))
      let nMask := htonl system.order nMask
      return (system.appendMatching m_voAdresses fun oAddress =>
        oAddress.hostAddr &&& nMask == nAddr &&& nMask).getD (system.appendByName m_voAdresses strInterfaceName)

end NetworkSystem

section
variable {order : ByteOrder} {a b : BitVec 32} {length : Nat}

/-- The first bits of two addresses are the same. -/
def AgreesIn (length : Nat) (a b : BitVec 32) : Prop := ∀ i < length, a.getMsbD i = b.getMsbD i

instance : Decidable (AgreesIn length a b) := inferInstanceAs (Decidable (∀ i < length, _))

theorem getLsbD_htonl {i : Nat} (hi : i < 32) : (htonl .le a).getLsbD i = a.getLsbD (8 * (3 - i / 8) + i % 8) := by
  simp only [htonl,BitVec.getLsbD_append,BitVec.getLsbD_extractLsb']
  split
  · rename_i hfirst
    rw [decide_eq_true hfirst,Bool.true_and,show 24 + i = 8 * (3 - i / 8) + i % 8 by omega]
  · split
    · rename_i hsecond
      rw [decide_eq_true hsecond,Bool.true_and,show 16 + (i - 8) = 8 * (3 - i / 8) + i % 8 by omega]
    · split
      · rename_i hthird
        rw [decide_eq_true hthird,Bool.true_and,show 8 + (i - 8 - 8) = 8 * (3 - i / 8) + i % 8 by omega]
      · have hfourth : i - 8 - 8 - 8 < 8 := by omega
        rw [decide_eq_true hfourth,Bool.true_and,show 0 + (i - 8 - 8 - 8) = 8 * (3 - i / 8) + i % 8 by omega]

theorem htonl_htonl (order : ByteOrder) (a : BitVec 32) : htonl order (htonl order a) = a := by
  cases order with
  | be => rfl
  | le =>
    apply BitVec.eq_of_getLsbD_eq
    intro i hi
    rw [getLsbD_htonl hi,getLsbD_htonl (by omega)]
    congr 1
    omega

theorem htonl_and : htonl order (a &&& b) = htonl order a &&& htonl order b := by
  cases order with
  | be => rfl
  | le =>
    apply BitVec.eq_of_getLsbD_eq
    intro i hi
    rw [getLsbD_htonl hi,BitVec.getLsbD_and,BitVec.getLsbD_and,getLsbD_htonl hi,getLsbD_htonl hi]

theorem htonl_injective (order : ByteOrder) : Function.Injective (htonl order) := fun a b h => by
  rw [← htonl_htonl order a,h,htonl_htonl]

theorem and_mask_eq_iff (hlength : length ≤ 32) :
    a &&& BitVec.allOnes 32 <<< (32 - length) = b &&& BitVec.allOnes 32 <<< (32 - length) ↔ AgreesIn length a b := by
  have hmask (i : Nat) : (BitVec.allOnes 32 <<< (32 - length)).getMsbD i = decide (i < length) := by
    rw [BitVec.getMsbD_shiftLeft,BitVec.getMsbD_allOnes,decide_eq_decide]
    omega
  constructor
  · intro h i hi
    have hbit := congrArg (BitVec.getMsbD · i) h
    simpa only [BitVec.getMsbD_and,hmask,decide_eq_true hi,Bool.and_true] using hbit
  · intro h
    apply BitVec.eq_of_getMsbD_eq
    intro i _
    rw [BitVec.getMsbD_and,BitVec.getMsbD_and,hmask]
    by_cases hi : i < length
    · rw [h i hi]
    · rw [decide_eq_false hi,Bool.and_false,Bool.and_false]

end

def Address.number (oAddress : Address) (order : ByteOrder) : BitVec 32 := htonl order oAddress.hostAddr

/-- A text with four parts that has parts that are 0 behind the given ones. -/
def Filled (keepEmpty : Bool) (strAddressPart filled : List Char) : Prop :=
  4 ≤ (splitAtPoints keepEmpty filled).length ∧
    ∃ missing, filled = strAddressPart ++ (List.replicate missing ['.','0']).flatten

theorem filled_fillAddressPart (keepEmpty : Bool) (strAddressPart : List Char) :
    Filled keepEmpty strAddressPart (fillAddressPart keepEmpty strAddressPart) := by
  induction strAddressPart using fillAddressPart.induct keepEmpty with
  | case1 text hshort ih =>
    obtain ⟨hlength,missing,hfilled⟩ := ih
    rw [fillAddressPart,if_pos hshort]
    refine ⟨hlength,missing + 1,?_⟩
    rw [hfilled,replicate_succ,flatten_cons,append_assoc]
  | case2 text hlong =>
    rw [fillAddressPart,if_neg hlong]
    exact ⟨Nat.le_of_not_lt hlong,0,(append_nil text).symm⟩

namespace NetworkSystem

variable {system : NetworkSystem} {m_voAdresses : List Address} {strInterfaceName : String}

/-- The mask is filled and selects, in order, the addresses that agree with it in the first bits, if any. One with
an invalid address or a length above 32 is rejected or matches nothing. -/
def SelectsByMask (system : NetworkSystem) (m_voAdresses : List Address) (strInterfaceName : String) : Prop :=
  ∀ strAddressPart strLengthPart, matchAddressMask strInterfaceName.toList = some (strAddressPart,strLengthPart) →
    Filled system.keepEmpty strAddressPart (fillAddressPart system.keepEmpty strAddressPart) ∧
    ∃ outcome, system.appendToNetworkInterfaceList m_voAdresses strInterfaceName = some outcome ∧
      (∀ given, addressOf (fillAddressPart system.keepEmpty strAddressPart) = some given → atoi strLengthPart ≤ 32 →
        (∃ oAddress ∈ system.addressList, AgreesIn (atoi strLengthPart) (oAddress.number system.order) given) →
        outcome = (m_voAdresses ++ system.addressList.filter fun oAddress =>
          AgreesIn (atoi strLengthPart) (oAddress.number system.order) given,.errNoError)) ∧
      (addressOf (fillAddressPart system.keepEmpty strAddressPart) = none ∨ 32 < atoi strLengthPart →
        isFailed outcome.2 = true ∨ outcome = system.appendByName m_voAdresses strInterfaceName)

/-- The address is invalid, or the length is from 1 to 32; the limited broadcast address, which `inet_addr` calls
invalid, must select nothing. -/
def ProperMask (system : NetworkSystem) (strInterfaceName : String) : Prop :=
  ∀ strAddressPart strLengthPart, matchAddressMask strInterfaceName.toList = some (strAddressPart,strLengthPart) →
    ∀ given, addressOf (fillAddressPart system.keepEmpty strAddressPart) = some given →
      if given = inaddrNone then atoi strLengthPart ≤ 32 →
        ∀ oAddress ∈ system.addressList, ¬AgreesIn (atoi strLengthPart) (oAddress.number system.order) given
      else 1 ≤ atoi strLengthPart ∧ atoi strLengthPart ≤ 32

theorem masked_eq_iff (order : ByteOrder) (oAddress : Address) (given : BitVec 32) {length : Nat}
    (hlength : length ≤ 32) : (oAddress.hostAddr &&& htonl order (BitVec.allOnes 32 <<< (32 - length)) ==
        htonl order given &&& htonl order (BitVec.allOnes 32 <<< (32 - length))) =
      decide (AgreesIn length (oAddress.number order) given) := by
  rw [Bool.eq_iff_iff,beq_iff_eq,decide_eq_true_iff,← and_mask_eq_iff hlength,← htonl_and,
    ← (htonl_injective order).eq_iff,htonl_htonl,htonl_and,htonl_htonl]
  rfl

theorem inetAddr_eq_inaddrNone {order : ByteOrder} {text : List Char} :
    inetAddr order text = inaddrNone ↔ ∀ given ∈ addressOf text, given = inaddrNone := by
  have hnone : htonl order inaddrNone = inaddrNone := by cases order <;> decide
  rw [inetAddr]
  cases addressOf text with
  | none => exact iff_of_true rfl nofun
  | some address =>
    simp only [mem_def,some.injEq,forall_eq']
    rw [← (htonl_injective order).eq_iff,htonl_htonl,hnone]

section
variable {strAddressPart strLengthPart : List Char} {given : BitVec 32}

section
variable (hmatch : matchAddressMask strInterfaceName.toList = some (strAddressPart,strLengthPart))
include hmatch

theorem append_of_invalid
    (hinvalid : inetAddr system.order (fillAddressPart system.keepEmpty strAddressPart) = inaddrNone) :
    system.appendToNetworkInterfaceList m_voAdresses strInterfaceName = some (m_voAdresses,.errInvalidArg) := by
  simp only [appendToNetworkInterfaceList,hmatch,hinvalid,if_true]

theorem append_of_valid (haddress : addressOf (fillAddressPart system.keepEmpty strAddressPart) = some given)
    (hgiven : given ≠ inaddrNone) : system.appendToNetworkInterfaceList m_voAdresses strInterfaceName =
      (shiftLeft (BitVec.allOnes 32) (32 - (atoi strLengthPart : Int))).map fun nMask =>
        (system.appendMatching m_voAdresses fun oAddress =>
          oAddress.hostAddr &&& htonl system.order nMask == htonl system.order given &&& htonl system.order nMask).getD
          (system.appendByName m_voAdresses strInterfaceName) := by
  have hvalid : inetAddr system.order (fillAddressPart system.keepEmpty strAddressPart) ≠ inaddrNone := fun hnone =>
    hgiven (inetAddr_eq_inaddrNone.mp hnone given haddress)
  have hnAddr : inetAddr system.order (fillAddressPart system.keepEmpty strAddressPart) = htonl system.order given := by
    rw [inetAddr,haddress]
  rw [hnAddr] at hvalid
  simp only [appendToNetworkInterfaceList,hmatch,hnAddr,if_neg hvalid]
  cases shiftLeft (BitVec.allOnes 32) (32 - (atoi strLengthPart : Int)) <;> rfl

end

private theorem shiftLeft_eq_none_iff {n : BitVec 32} {length : Nat} :
    shiftLeft n (32 - (length : Int)) = none ↔ ¬(1 ≤ length ∧ length ≤ 32) := by
  rw [shiftLeft]
  split
  · exact iff_of_false nofun (by omega)
  · exact iff_of_true rfl (by omega)

private theorem shiftLeft_of_le {n : BitVec 32} {length : Nat} (hpos : 1 ≤ length) (hle : length ≤ 32) :
    shiftLeft n (32 - (length : Int)) = some (n <<< (32 - length)) := by
  have hcount : (32 - (length : Int)).toNat = 32 - length := by omega
  rw [shiftLeft,if_pos (by omega),hcount]

end

/-- A mask is treated as it should be exactly if its length and its address allow it. -/
theorem mask_selection (system : NetworkSystem) (m_voAdresses : List Address) (strInterfaceName : String) :
    system.SelectsByMask m_voAdresses strInterfaceName ↔ system.ProperMask strInterfaceName := by
  refine forall₂_congr fun strAddressPart strLengthPart => forall_congr' fun hmatch => ?_
  rw [and_iff_right (filled_fillAddressPart _ _)]
  cases haddress : addressOf (fillAddressPart system.keepEmpty strAddressPart) with
  | none =>
    have hinvalid : inetAddr system.order (fillAddressPart system.keepEmpty strAddressPart) = inaddrNone := by
      rw [inetAddr_eq_inaddrNone,haddress]
      nofun
    exact iff_of_true ⟨_,append_of_invalid hmatch hinvalid,nofun,fun _ => .inl rfl⟩ nofun
  | some given =>
    simp only [some.injEq,forall_eq',reduceCtorEq,false_or]
    by_cases hgiven : given = inaddrNone
    · rw [if_pos hgiven]
      have hinvalid : inetAddr system.order (fillAddressPart system.keepEmpty strAddressPart) = inaddrNone := by
        rw [inetAddr_eq_inaddrNone,haddress]
        exact fun found hfound => (some.inj hfound).symm.trans hgiven
      constructor
      · rintro ⟨outcome,hcall,hselects,-⟩ hlength oAddress hmem hagrees
        rw [append_of_invalid hmatch hinvalid] at hcall
        have hfailed := congrArg Prod.snd ((some.inj hcall).trans (hselects hlength ⟨oAddress,hmem,hagrees⟩))
        cases hfailed
      · intro hnone
        refine ⟨_,append_of_invalid hmatch hinvalid,?_,fun _ => .inl rfl⟩
        rintro hlength ⟨oAddress,hmem,hagrees⟩
        exact absurd hagrees (hnone hlength oAddress hmem)
    · rw [if_neg hgiven]
      constructor
      · rintro ⟨outcome,hcall,-⟩
        by_contra hnot
        rw [append_of_valid hmatch haddress hgiven,shiftLeft_eq_none_iff.mpr hnot] at hcall
        cases hcall
      · rintro ⟨hpos,hle⟩
        refine ⟨_,by rw [append_of_valid hmatch haddress hgiven,shiftLeft_of_le hpos hle,map_some],?_,
          fun hlong => absurd hle (Nat.not_le_of_lt hlong)⟩
        rintro - ⟨oAddress,hmem,hagrees⟩
        simp only [masked_eq_iff _ _ _ hle]
        rw [appendMatching,if_pos (any_eq_true.mpr ⟨oAddress,hmem,decide_eq_true hagrees⟩),getD_some]

/-- The prefix of length 0 selects no address: the shift has no meaning. -/
theorem any_address_not_selected : ¬∀ (system : NetworkSystem) (m_voAdresses : List Address)
    (strInterfaceName : String), system.SelectsByMask m_voAdresses strInterfaceName := by
  intro h
  let system : NetworkSystem := ⟨.le,true,[⟨htonl .le 0xC0A80001#32,"eth0"⟩],fun _ => none,fun _ _ => false⟩
  have hmatch : matchAddressMask "10.0.0.0/0".toList = some ("10.0.0.0".toList,['0']) := by decide
  have hfill : fillAddressPart true "10.0.0.0".toList = "10.0.0.0".toList := by
    rw [fillAddressPart,if_neg (by decide)]
  have haddress : addressOf (fillAddressPart system.keepEmpty "10.0.0.0".toList) = some 0x0A000000#32 := by
    rw [show system.keepEmpty = true from rfl,hfill]
    decide
  obtain ⟨-,outcome,hcall,-⟩ := h system [] "10.0.0.0/0" _ _ hmatch
  rw [append_of_valid hmatch haddress (by decide)] at hcall
  cases hcall

end NetworkSystem
end FepParticipant.Base
