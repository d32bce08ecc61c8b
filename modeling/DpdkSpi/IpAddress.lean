import Mathlib.Data.List.TakeWhile
import DpdkSpi.Lib.Prefix
import DpdkSpi.Types

/-!
# Addresses as text

Parsing of IPv4 addresses and CIDR blocks, after `spi_ip_address.hpp` and
`spi_ip_address.cpp`.  `inet_pton` belongs to the C library and is a parameter.  The
prefix length of a block is read twice by the rule compiler, once with
`std::from_chars` and once with `strtoul`; the two agree on every text the first one
accepts (`strtoul_of_fromCharsU16`).
-/

namespace DpdkSpi

/-! ## Numbers as text -/

/-- The value of a list of decimal digits. -/
def decimalValue (digits : List Char) : Nat :=
  digits.foldl (fun n c ↦ 10 * n + (c.toNat - 48)) 0

/-- `std::from_chars` for a 16-bit unsigned number: the number and the text behind it.
There is no number without a digit, and one that does not fit is an error. -/
def fromCharsU16 (text : List Char) : Option (BitVec 16 × List Char) :=
  let digits := text.takeWhile Char.isDigit
  if digits = [] then none
  else if decimalValue digits < 2 ^ 16 then
    some (BitVec.ofNat 16 (decimalValue digits), text.dropWhile Char.isDigit)
  else none

/-- `isspace` in the C locale. -/
def isSpace (c : Char) : Bool := c.toNat = 32 || (9 ≤ c.toNat && c.toNat ≤ 13)

/-- `strtoul` in base 10: leading white space, an optional sign, digits; a number that
does not fit saturates. -/
def strtoul (text : List Char) : BitVec 64 :=
  match text.dropWhile isSpace with
  | '-' :: rest => - unsignedOf rest
  | '+' :: rest => unsignedOf rest
  | rest => unsignedOf rest
where
  /-- The digits after the sign. -/
  unsignedOf (text : List Char) : BitVec 64 :=
    let value := decimalValue (text.takeWhile Char.isDigit)
    if value < 2 ^ 64 then BitVec.ofNat 64 value else BitVec.allOnes 64

theorem isDigit_iff {c : Char} : c.isDigit = true ↔ 48 ≤ c.toNat ∧ c.toNat ≤ 57 := by
  unfold Char.isDigit
  rw [Bool.and_eq_true, decide_eq_true_iff, decide_eq_true_iff]
  exact Iff.rfl

theorem strtoul_of_digits {text : List Char} (hne : text ≠ [])
    (hall : ∀ c ∈ text, c.isDigit = true) :
    strtoul text = strtoul.unsignedOf text := by
  cases text with
  | nil => exact absurd rfl hne
  | cons c cs =>
      have hc := isDigit_iff.mp (hall c List.mem_cons_self)
      have hspace : isSpace c = false := by
        simp only [isSpace, Bool.or_eq_false_iff, Bool.and_eq_false_iff, decide_eq_false_iff_not]
        omega
      have hdrop : (c :: cs).dropWhile isSpace = c :: cs := by
        simp [List.dropWhile, hspace]
      have hminus : c ≠ '-' := by
        rintro rfl
        revert hc
        decide
      have hplus : c ≠ '+' := by
        rintro rfl
        revert hc
        decide
      unfold strtoul
      rw [hdrop]
      split
      · rename_i rest heq
        exact absurd (List.cons.inj heq).1 hminus
      · rename_i rest heq
        exact absurd (List.cons.inj heq).1 hplus
      · rfl

/-- What `from_chars` accepts to the end, `strtoul` reads as the same number. -/
theorem strtoul_of_fromCharsU16 {text : List Char} {n : BitVec 16}
    (h : fromCharsU16 text = some (n, [])) : (strtoul text).setWidth 32 = n.setWidth 32 := by
  unfold fromCharsU16 at h
  dsimp only at h
  split at h
  · cases h
  · rename_i hne
    split at h
    · rename_i hlt
      rw [Option.some.injEq, Prod.mk.injEq] at h
      obtain ⟨rfl, hrest⟩ := h
      have htext : text.takeWhile Char.isDigit = text := by
        have := List.takeWhile_append_dropWhile (p := Char.isDigit) (l := text)
        rwa [hrest, List.append_nil] at this
      rw [htext] at hne hlt ⊢
      have h64 : decimalValue text < 2 ^ 64 := by omega
      rw [strtoul_of_digits hne (List.takeWhile_eq_self_iff.mp htext), strtoul.unsignedOf, htext,
        if_pos h64]
      apply BitVec.eq_of_toNat_eq
      simp only [BitVec.toNat_setWidth, BitVec.toNat_ofNat]
      omega
    · cases h

/-! ## Addresses and blocks -/

/-- `inet_pton(AF_INET, ..)`: the address in network byte order. -/
abbrev InetPton := String → Option (BitVec 32)

/-- `ParseIpv4Address`. -/
def parseIpv4Address (inetPton : InetPton) (address : String) : Except String (BitVec 32) :=
  match inetPton address with
  | none => .error ("invalid IPv4 address '" ++ address ++ "'")
  | some sAddr => .ok (rteBeToCpu32 sAddr)

/-- `PrefixMask`. -/
def prefixMask (prefixLength : BitVec 16) : BitVec 32 :=
  if prefixLength = 0 then 0
  else if 32 ≤ prefixLength then 0xFFFFFFFF
  else ~~~(((1 : BitVec 32) <<< (32 - prefixLength.toNat)) - 1)

/-- The text before the first slash. -/
def beforeSlash (text : String) : String := String.ofList (text.toList.takeWhile (· ≠ '/'))

/-- The text behind the first slash. -/
def afterSlash (text : String) : List Char := (text.toList.dropWhile (· ≠ '/')).tail

/-- `ParseCidr`: the network address and the mask of a block. -/
def parseCidr (inetPton : InetPton) (cidr : String) : Except String (BitVec 32 × BitVec 32) :=
  if '/' ∉ cidr.toList then .error ("invalid CIDR '" ++ cidr ++ "': missing '/'")
  else
    match parseIpv4Address inetPton (beforeSlash cidr) with
    | .error e => .error ("invalid CIDR '" ++ cidr ++ "': " ++ e)
    | .ok address =>
        match fromCharsU16 (afterSlash cidr) with
        | some (prefixLength, []) =>
            if 32 < prefixLength then
              .error ("invalid CIDR '" ++ cidr ++ "': bad prefix length")
            else .ok (address &&& prefixMask prefixLength, prefixMask prefixLength)
        | _ => .error ("invalid CIDR '" ++ cidr ++ "': bad prefix length")

/-- `PrefixMask` is the mask of a block. -/
theorem prefixMask_eq (address : BitVec 32) (prefixLength : BitVec 16) :
    prefixMask prefixLength = Lib.Block.mask ⟨address, prefixLength.toNat⟩ := by
  have hzero : prefixMask 0 = BitVec.allOnes 32 <<< 32 := by decide
  have hshift : ∀ n < 32, (~~~((1#32 <<< n) - 1) : BitVec 32) = BitVec.allOnes 32 <<< n := by
    decide
  unfold Lib.Block.mask
  by_cases h0 : prefixLength = 0
  · rw [h0, hzero]
    rfl
  have hpos : 0 < prefixLength.toNat :=
    Nat.pos_of_ne_zero fun h ↦ h0 (BitVec.eq_of_toNat_eq h)
  rw [prefixMask, if_neg h0]
  by_cases h32 : 32 ≤ prefixLength
  · have hle : 32 ≤ prefixLength.toNat := h32
    rw [if_pos h32, Nat.sub_eq_zero_of_le hle]
    decide
  · have hlt : prefixLength.toNat < 32 := Nat.lt_of_not_le h32
    rw [if_neg h32]
    exact hshift _ (Nat.sub_lt (by decide) hpos)

/-- What a parsed block is made of. -/
theorem parseCidr_ok {inetPton : InetPton} {cidr : String} {network mask : BitVec 32}
    (h : parseCidr inetPton cidr = .ok (network, mask)) :
    ∃ address prefixLength, parseIpv4Address inetPton (beforeSlash cidr) = .ok address ∧
      fromCharsU16 (afterSlash cidr) = some (prefixLength, []) ∧ prefixLength ≤ 32 ∧
      mask = prefixMask prefixLength ∧ network = address &&& mask := by
  unfold parseCidr at h
  split at h
  · cases h
  · split at h
    · cases h
    · rename_i address haddress
      split at h
      · rename_i prefixLength hlength
        split at h
        · cases h
        · rename_i hle
          rw [Except.ok.injEq, Prod.mk.injEq] at h
          obtain ⟨rfl, rfl⟩ := h
          exact ⟨address, prefixLength, haddress, hlength, BitVec.not_lt.mp hle, rfl, rfl⟩
      · cases h

end DpdkSpi
