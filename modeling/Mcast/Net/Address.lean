import Mathlib.Algebra.Order.Ring.Int
import Mathlib.Data.List.Basic
import Mathlib.Data.List.TakeWhile
import Mcast.Net.Connection

/-!
# Host and port of an address string

`ParseIPAddress` of `src/util/util.h` removes the spaces, splits at the last colon and hands the
rest to `atoi`.  `atoi` reads a number from any text: blanks other than the space, a sign, and
whatever follows the digits are no error, and a text without digits is zero.  The result is cut to
16 bits. An address is therefore accepted exactly when there is something on both sides of the last
colon.
-/

namespace Mcast

namespace Net

/-- `std::isspace` in the C locale. -/
def isSpace (byte : UInt8) : Bool := byte = 32 || (9 ≤ byte && byte ≤ 13)

def isDigit (byte : UInt8) : Bool := 48 ≤ byte && byte ≤ 57

/-- The value of a string of decimal digits. -/
def digitsValue (digits : Bytes) : Nat :=
  digits.foldl (fun value digit => 10 * value + (digit.toNat - 48)) 0

/-- `strtol(s, NULL, 10)`, which stays in the range of `long`. -/
def strtol (s : Bytes) : Int :=
  match s.dropWhile isSpace with
  | 45 :: rest => max (-2 ^ 63) (-(digitsValue (rest.takeWhile isDigit) : Int))
  | 43 :: rest => min (2 ^ 63 - 1) (digitsValue (rest.takeWhile isDigit) : Int)
  | rest => min (2 ^ 63 - 1) (digitsValue (rest.takeWhile isDigit) : Int)

/-- `atoi`, which is `strtol` cut to an `int`. -/
def atoi (s : Bytes) : Int32 := Int32.ofInt (strtol s)

/-- What a C function reads of a string: the characters before the first null. -/
def cString (s : Bytes) : Bytes := s.takeWhile (· ≠ 0)

/-- `find_last_of` for one character. -/
def findLastOf (char : UInt8) : Bytes → Option Nat
  | [] => none
  | byte :: s =>
      match findLastOf char s with
      | some d => some (d + 1)
      | none => if byte = char then some 0 else none

/-- `ParseIPAddress`: the result, and what the two pointers point to afterwards. -/
def parseIPAddress (hostPortStr host : Bytes) (port : UInt16) : Bool × Bytes × UInt16 :=
  let hostPort := hostPortStr.filter (· ≠ 32)
  if hostPort = [] then
    (false, host, port)
  else
    match findLastOf 58 hostPort with
    | none => (false, host, port)
    | some d =>
        if d = 0 ∨ d = hostPort.length - 1 then
          (false, host, port)
        else
          (true, hostPort.take d, (atoi (cString (hostPort.drop (d + 1)))).toUInt32.toUInt16)

/-- `std::to_string` of a port. -/
def portText (port : UInt16) : Bytes := ascii (toString port.toNat)

/-- A non-empty string of decimal digits. -/
def Numeral (s : Bytes) : Prop := s ≠ [] ∧ ∀ byte ∈ s, isDigit byte = true

/-- The string without its spaces, split at its last colon. -/
def Splits (hostPortStr host port : Bytes) : Prop :=
  hostPortStr.filter (· ≠ 32) = host ++ 58 :: port ∧ 58 ∉ port

/-- The addresses that the function is for, with the host and the numeral of the port. -/
def IsAddress (hostPortStr host port : Bytes) : Prop :=
  Splits hostPortStr host port ∧ host ≠ [] ∧ Numeral port ∧ digitsValue port ≤ 65535

/-- The function accepts an address and stores its parts, and leaves everything alone otherwise. -/
structure Parses (hostPortStr : Bytes) : Prop where
  accepts : ∀ host port, (parseIPAddress hostPortStr host port).1 = true ↔
    ∃ h p, IsAddress hostPortStr h p
  stores : ∀ host port h p, IsAddress hostPortStr h p →
    (parseIPAddress hostPortStr host port).2.1 = h ∧
      (parseIPAddress hostPortStr host port).2.2.toNat = digitsValue p
  keeps : ∀ host port, (parseIPAddress hostPortStr host port).1 = false →
    (parseIPAddress hostPortStr host port).2 = (host, port)

section Split

variable {char : UInt8} {s host port : Bytes}

theorem findLastOf_eq_none (absent : char ∉ s) : findLastOf char s = none := by
  induction s with
  | nil => rfl
  | cons byte s ih =>
      have rest : char ∉ s := fun later => absent (List.mem_cons_of_mem byte later)
      rw [findLastOf, ih rest]
      apply if_neg
      rintro rfl
      exact absent List.mem_cons_self

theorem findLastOf_append (absent : char ∉ port) :
    findLastOf char (host ++ char :: port) = some host.length := by
  induction host with
  | nil => simp [findLastOf, findLastOf_eq_none absent]
  | cons byte host ih => simp [findLastOf, ih]

/-- A string with a colon has a last one. -/
theorem exists_split (present : char ∈ s) : ∃ host port, s = host ++ char :: port ∧ char ∉ port := by
  induction s with
  | nil => cases present
  | cons byte s ih =>
      by_cases later : char ∈ s
      · obtain ⟨host, port, rfl, absent⟩ := ih later
        exact ⟨byte :: host, port, rfl, absent⟩
      · rcases List.mem_cons.mp present with rfl | inside
        · exact ⟨[], s, rfl, later⟩
        · exact absurd inside later

/-- The split at the last colon is unique. -/
theorem split_unique {host' port' : Bytes} (same : host ++ char :: port = host' ++ char :: port')
    (absent : char ∉ port) (absent' : char ∉ port') : host = host' ∧ port = port' := by
  have lengths := @findLastOf_append char host port absent
  rw [same, findLastOf_append absent'] at lengths
  obtain ⟨hosts, ports⟩ := List.append_inj same (Option.some.inj lengths).symm
  exact ⟨hosts, (List.cons.inj ports).2⟩

end Split

section Numbers

variable {s : Bytes}

theorem Numeral.cString (numeral : Numeral s) : cString s = s := by
  rw [Net.cString, List.takeWhile_eq_self_iff]
  intro byte member
  have digit := numeral.2 byte member
  simp only [isDigit, Bool.and_eq_true, decide_eq_true_eq] at digit
  simp only [ne_eq, decide_not, Bool.not_eq_true', decide_eq_false_iff_not]
  rintro rfl
  exact absurd digit.1 (by decide)

/-- `strtol` reads a numeral. -/
theorem Numeral.strtol (numeral : Numeral s) :
    strtol s = min (2 ^ 63 - 1) (digitsValue s : Int) := by
  obtain ⟨nonempty, digits⟩ := numeral
  cases s with
  | nil => exact absurd rfl nonempty
  | cons byte s =>
      have digit := digits byte List.mem_cons_self
      simp only [isDigit, Bool.and_eq_true, decide_eq_true_eq, UInt8.le_iff_toNat_le] at digit
      have low : 48 ≤ byte.toNat := digit.1
      have high : byte.toNat ≤ 57 := digit.2
      have noSpace : isSpace byte = false := by
        simp only [isSpace, Bool.or_eq_false_iff, Bool.and_eq_false_iff, decide_eq_false_iff_not,
          UInt8.le_iff_toNat_le]
        refine ⟨?_, Or.inr ?_⟩
        · rintro rfl
          exact absurd low (by decide)
        · change ¬ byte.toNat ≤ 13
          omega
      have noMinus : byte ≠ 45 := by
        rintro rfl
        exact absurd low (by decide)
      have noPlus : byte ≠ 43 := by
        rintro rfl
        exact absurd low (by decide)
      have all : (byte :: s).takeWhile isDigit = byte :: s := List.takeWhile_eq_self_iff.mpr digits
      rw [Net.strtol, List.dropWhile_cons_of_neg (by simp [noSpace])]
      split
      · rename_i minus
        exact absurd (List.cons.inj minus).1 noMinus
      · rename_i plus
        exact absurd (List.cons.inj plus).1 noPlus
      · rw [all]

/-- A numeral that fits 16 bits keeps its value through the casts. -/
theorem Numeral.port (numeral : Numeral s) (fits : digitsValue s ≤ 65535) :
    (atoi (Net.cString s)).toUInt32.toUInt16.toNat = digitsValue s := by
  have small : Net.strtol s = (digitsValue s : Int) := by
    rw [numeral.strtol]
    omega
  have widened : (Int32.ofInt (digitsValue s : Int)).toUInt32 = UInt32.ofNat (digitsValue s) := by
    rw [Int32.ofInt_eq_ofNat]
    rfl
  rw [numeral.cString, atoi, small, widened, UInt32.toNat_toUInt16,
    UInt32.toNat_ofNat_of_lt' (Nat.lt_of_le_of_lt fits (by decide))]
  exact Nat.mod_eq_of_lt (Nat.lt_succ_of_le fits)

theorem toNat_ofNat_digit {char : Char} (digit : char.isDigit = true) :
    (UInt8.ofNat char.toNat).toNat = char.toNat ∧ 48 ≤ char.toNat ∧ char.toNat ≤ 57 := by
  have bounds : 48 ≤ char.toNat ∧ char.toNat ≤ 57 := Char.isDigit_iff_toNat.mp digit
  obtain ⟨low, high⟩ := bounds
  exact ⟨UInt8.toNat_ofNat_of_lt' (by change char.toNat < 256; omega), low, high⟩

/-- `to_string` writes the numeral of the port. -/
theorem numeral_portText (port : UInt16) :
    Numeral (portText port) ∧ digitsValue (portText port) = port.toNat := by
  have chars : (toString port.toNat).toList = Nat.toDigits 10 port.toNat := Nat.toList_repr
  have digit : ∀ char ∈ Nat.toDigits 10 port.toNat, char.isDigit = true := fun char member =>
    Nat.isDigit_of_mem_toDigits (by decide) (by decide) member
  rw [portText, ascii, chars]
  refine ⟨⟨?_, ?_⟩, ?_⟩
  · simp [Nat.toDigits_ne_nil]
  · intro byte member
    obtain ⟨char, inside, rfl⟩ := List.mem_map.mp member
    obtain ⟨value, low, high⟩ := toNat_ofNat_digit (digit char inside)
    simp only [isDigit, Bool.and_eq_true, decide_eq_true_eq, UInt8.le_iff_toNat_le, value]
    exact ⟨low, high⟩
  · have values : ∀ chars : List Char, (∀ char ∈ chars, char.isDigit = true) → ∀ start,
        (chars.map fun char => UInt8.ofNat char.toNat).foldl
          (fun value digit => 10 * value + (digit.toNat - 48)) start =
          Nat.ofDigitChars 10 chars start := by
      intro chars digits start
      induction chars generalizing start with
      | nil => simp
      | cons char chars ih =>
          obtain ⟨value, -, -⟩ := toNat_ofNat_digit (digits char List.mem_cons_self)
          rw [List.map_cons, List.foldl_cons, value, Nat.ofDigitChars_cons,
            ih fun char later => digits char (List.mem_cons_of_mem _ later)]
          rfl
    rw [digitsValue, values _ digit, Nat.ofDigitChars_ten_toDigits]

end Numbers

section Parse

variable {hostPortStr host : Bytes} {port : UInt16} {h p : Bytes}

/-- There is something on both sides of the last colon. -/
theorem parse_of_split (splits : Splits hostPortStr h p) (left : h ≠ []) (right : p ≠ []) :
    parseIPAddress hostPortStr host port = (true, h, (atoi (cString p)).toUInt32.toUInt16) := by
  obtain ⟨stripped, absent⟩ := splits
  have some_left := List.length_pos_of_ne_nil left
  have some_right := List.length_pos_of_ne_nil right
  have inside : ¬ (h.length = 0 ∨ h.length = (h ++ 58 :: p).length - 1) := by
    rw [List.length_append, List.length_cons]
    omega
  have before : (h ++ 58 :: p).take h.length = h := List.take_left
  have behind : (h ++ 58 :: p).drop (h.length + 1) = p := by
    rw [← List.drop_drop, List.drop_left, List.drop_succ_cons, List.drop_zero]
  rw [parseIPAddress, stripped]
  simp only [findLastOf_append absent]
  rw [if_neg (by simp), if_neg inside, before, behind]

theorem parse_of_unsplit (unsplit : ∀ h p, Splits hostPortStr h p → h = [] ∨ p = []) :
    parseIPAddress hostPortStr host port = (false, host, port) := by
  rw [parseIPAddress]
  split
  · rfl
  · by_cases colon : 58 ∈ hostPortStr.filter (· ≠ 32)
    · obtain ⟨h, p, stripped, absent⟩ := exists_split colon
      have edge : h.length = 0 ∨ h.length = (h ++ 58 :: p).length - 1 := by
        rcases unsplit h p ⟨stripped, absent⟩ with rfl | rfl
        · exact Or.inl rfl
        · simp
      rw [stripped]
      simp only [findLastOf_append absent]
      rw [if_pos edge]
    · simp only [findLastOf_eq_none colon]

theorem Splits.unique {h' p' : Bytes} (first : Splits hostPortStr h p)
    (second : Splits hostPortStr h' p') : h = h' ∧ p = p' :=
  split_unique (first.1.symm.trans second.1) first.2 second.2

theorem parse_of_isAddress (address : IsAddress hostPortStr h p) :
    (parseIPAddress hostPortStr host port).1 = true ∧
      (parseIPAddress hostPortStr host port).2.1 = h ∧
      (parseIPAddress hostPortStr host port).2.2.toNat = digitsValue p := by
  obtain ⟨splits, left, numeral, fits⟩ := address
  rw [parse_of_split splits left numeral.1]
  exact ⟨rfl, rfl, numeral.port fits⟩

/-- The function does what it is for on a string exactly when the part behind the last colon is a
port number, if there is something on both sides of the colon; and it reads back a host and a port
that were joined by a colon. -/
theorem parses_iff_numeral (hostPortStr : Bytes) :
    (Parses hostPortStr ↔ ∀ h p, Splits hostPortStr h p → h ≠ [] → p ≠ [] →
      Numeral p ∧ digitsValue p ≤ 65535) ∧
    ∀ (h : Bytes) (number : UInt16), h ≠ [] → 32 ∉ h → ∀ host port,
      parseIPAddress (h ++ 58 :: portText number) host port = (true, h, number) := by
  refine ⟨⟨?_, ?_⟩, ?_⟩
  · intro parses h p splits left right
    have accepted : (parseIPAddress hostPortStr [] 0).1 = true := by
      rw [parse_of_split splits left right]
    obtain ⟨h', p', address⟩ := (parses.accepts [] 0).mp accepted
    obtain ⟨-, rfl⟩ := splits.unique address.1
    exact address.2.2
  · intro numerals
    have cases : (∃ h p, IsAddress hostPortStr h p) ∨
        ∀ h p, Splits hostPortStr h p → h = [] ∨ p = [] := by
      by_cases split : ∃ h p, Splits hostPortStr h p ∧ h ≠ [] ∧ p ≠ []
      · obtain ⟨h, p, splits, left, right⟩ := split
        exact Or.inl ⟨h, p, splits, left, numerals h p splits left right⟩
      · right
        intro h p splits
        by_contra both
        rw [not_or] at both
        exact split ⟨h, p, splits, both⟩
    rcases cases with ⟨h, p, address⟩ | unsplit
    · refine ⟨fun host port => ?_, fun host port h' p' address' => ?_, fun host port refused => ?_⟩
      · exact iff_of_true (parse_of_isAddress address).1 ⟨h, p, address⟩
      · exact (parse_of_isAddress address').2
      · rw [(parse_of_isAddress address).1] at refused
        cases refused
    · have none : ¬ ∃ h p, IsAddress hostPortStr h p := by
        rintro ⟨h, p, splits, left, numeral, -⟩
        rcases unsplit h p splits with empty | empty
        · exact left empty
        · exact numeral.1 empty
      refine ⟨fun host port => ?_, fun host port h p address => ?_, fun host port refused => ?_⟩
      · rw [parse_of_unsplit unsplit]
        exact iff_of_false (by simp) none
      · exact absurd ⟨h, p, address⟩ none
      · rw [parse_of_unsplit unsplit]
  · intro h number left spaceless host port
    obtain ⟨numeral, value⟩ := numeral_portText number
    have noSpace : ∀ byte ∈ portText number, byte ≠ 32 ∧ byte ≠ 58 := by
      intro byte member
      have digit := numeral.2 byte member
      refine ⟨?_, ?_⟩ <;>
      · rintro rfl
        exact absurd digit (by decide)
    have splits : Splits (h ++ 58 :: portText number) h (portText number) := by
      refine ⟨?_, fun member => (noSpace 58 member).2 rfl⟩
      rw [List.filter_eq_self]
      intro byte member
      rw [decide_eq_true_eq]
      rcases List.mem_append.mp member with inHost | inPort
      · rintro rfl
        exact spaceless inHost
      · rcases List.mem_cons.mp inPort with rfl | inPort
        · decide
        · exact (noSpace byte inPort).1
    have fits : digitsValue (portText number) ≤ 65535 := by
      rw [value]
      exact Nat.le_of_lt_succ number.toNat_lt
    have port := numeral.port fits
    rw [value] at port
    rw [parse_of_split splits left numeral.1, UInt16.toNat_inj.mp port]

/-- What follows the digits is no error. -/
theorem trailing_text_accepted :
    parseIPAddress (ascii "*:80x") [] 0 = (true, ascii "*", 80) ∧ ¬ Parses (ascii "*:80x") := by
  refine ⟨by decide, ?_⟩
  intro parses
  obtain ⟨h, p, splits, -, numeral, -⟩ := (parses.accepts [] 0).mp (by decide)
  have split : Splits (ascii "*:80x") (ascii "*") (ascii "80x") := ⟨by decide, by decide⟩
  obtain ⟨-, rfl⟩ := splits.unique split
  exact absurd (numeral.2 120 (by decide)) (by decide)

end Parse

end Net

end Mcast
