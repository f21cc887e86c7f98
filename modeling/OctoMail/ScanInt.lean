import OctoMail.Utf8
import Mathlib.Algebra.Order.Ring.Int

/-!
# Integers scanned from a text

How Go's `fmt.Sscan` reads an integer: white space is skipped, a sign may follow, and then digits.
They are decimal, unless they begin with a zero: then they are octal or of the base that a letter
behind the zero names. Underscores may separate digits. What follows the digits is not looked at,
and a number that does not fit 64 bits is an error.

A decimal text of an integer is read back.
-/

namespace OctoMail.ScanInt

open List Utf8

def underscore : UInt8 := 95

def zero : UInt8 := 48

def minus : UInt8 := 45

def digit (o : UInt8) : Option Nat :=
  if 48 ≤ o ∧ o ≤ 57 then some (o.toNat - 48)
  else if 97 ≤ o ∧ o ≤ 102 then some (o.toNat - 87)
  else if 65 ≤ o ∧ o ≤ 70 then some (o.toNat - 55)
  else none

def inBase (base : Nat) (o : UInt8) : Bool := o == underscore || (digit o).any (fun d => d < base)

/-- `strconv.underscoreOK`: an underscore stands behind a digit and before one. -/
def separated : Bool → Bytes → Bool
  | _, [] => true
  | _, [o] => o != underscore
  | behindDigit, o :: rest =>
      if o = underscore then behindDigit && separated false rest else separated true rest

def value (base : Nat) (run : Bytes) : Nat :=
  run.foldl (fun n o => if o = underscore then n else base * n + (digit o).getD 0) 0

def int64 (negative : Bool) (n : Nat) : Option Int :=
  if negative then if n ≤ 2 ^ 63 then some (-n) else none
  else if n < 2 ^ 63 then some n else none

/-- `strconv.ParseInt` of digits in a base; a zero or a letter may have begun them. -/
def parseInt (negative : Bool) (base : Nat) (begun : Bool) (run : Bytes) : Option Int :=
  if separated begun run then int64 negative (value base run) else none

/-- The base that a letter names behind a zero. -/
def baseOf (letter : UInt8) : Option Nat :=
  if letter = 98 ∨ letter = 66 then some 2
  else if letter = 111 ∨ letter = 79 then some 8
  else if letter = 120 ∨ letter = 88 then some 16
  else none

def scanDigits (negative : Bool) (base : Nat) (begun : Bool) (text : Bytes) : Option Int :=
  let run := text.takeWhile (inBase base)
  if run = [] then none else parseInt negative base begun run

def scanUnsigned (negative : Bool) (text : Bytes) : Option Int :=
  if text.head? = some zero then
    let rest := text.tail
    match rest.head?.bind baseOf with
    | some base => scanDigits negative base true rest.tail
    | none => parseInt negative 8 true (rest.takeWhile (inBase 8))
  else scanDigits negative 10 false text

def skipSpace (text : Bytes) : Bytes := octets ((pieces text).dropWhile Piece.isSpace)

def scanInt (text : Bytes) : Option Int :=
  let text := skipSpace text
  if text.head? = some minus then scanUnsigned true text.tail
  else if text.head? = some 43 then scanUnsigned false text.tail
  else scanUnsigned false text

/-- A hexadecimal number, an octal one, and a number with something behind it. -/
example : scanInt [32, 45, 48, 120, 49, 70] = some (-31) ∧ scanInt [48, 49, 48] = some 8 ∧
    scanInt [55, 44, 56] = some 7 ∧ scanInt [48, 120] = none := by decide

/-! ### Decimal texts -/

/-- The octet of a character of ASCII. -/
def octet (c : Char) : UInt8 := UInt8.ofNat c.toNat

def decimalDigits (n : Nat) : Bytes := (Nat.toDigits 10 n).map octet

def decimal (i : Int) : Bytes :=
  if i < 0 then minus :: decimalDigits i.natAbs else decimalDigits i.natAbs

/-- A decimal digit and its octet. -/
theorem octet_digit {c : Char} (is : c.isDigit = true) :
    digit (octet c) = some (c.toNat - 48) ∧ c.toNat - 48 < 10 ∧ octet c ≠ underscore ∧
      48 ≤ octet c ∧ octet c ≤ 57 ∧ (octet c = zero ↔ c = '0') := by
  have code := Char.isDigit_iff_toNat.mp is
  simp only [Char.reduceToNat] at code
  have nat : (octet c).toNat = c.toNat :=
    UInt8.toNat_ofNat_of_lt' (Nat.lt_of_le_of_lt code.2 (by decide))
  have low : (48 : UInt8) ≤ octet c := by
    rw [UInt8.le_iff_toNat_le, nat]
    exact code.1
  have high : octet c ≤ 57 := by
    rw [UInt8.le_iff_toNat_le, nat]
    exact code.2
  refine ⟨?_, by omega, ?_, low, high, ?_⟩
  · rw [digit, if_pos ⟨low, high⟩, nat]
  · intro same
    rw [same] at high
    exact absurd high (by decide)
  · constructor
    · intro same
      rw [← UInt8.toNat_inj, nat] at same
      exact Char.toNat_inj.mp same
    · rintro rfl
      rfl

theorem value_octets {chars : List Char} (digits : ∀ c ∈ chars, c.isDigit = true) :
    value 10 (chars.map octet) = Nat.ofDigitChars 10 chars 0 := by
  have general : ∀ n, (chars.map octet).foldl (fun n o =>
      if o = underscore then n else 10 * n + (digit o).getD 0) n = Nat.ofDigitChars 10 chars n := by
    induction chars with
    | nil => exact fun n => rfl
    | cons c rest ih =>
      intro n
      obtain ⟨first, others⟩ := forall_mem_cons.mp digits
      obtain ⟨value_, _, plain, _⟩ := octet_digit first
      rw [map_cons, foldl_cons, if_neg plain, value_, Option.getD_some,
        ih others, Nat.ofDigitChars_cons]
      rfl
  exact general 0

theorem separated_of_plain {run : Bytes} (plain : underscore ∉ run) (behind : Bool) :
    separated behind run = true := by
  induction run generalizing behind with
  | nil => rfl
  | cons o rest ih =>
    obtain ⟨here, later⟩ := not_or.mp (mt mem_cons.mpr plain)
    cases rest with
    | nil => exact bne_iff_ne.mpr (Ne.symm here)
    | cons next rest =>
      rw [separated, if_neg (Ne.symm here)]
      · exact ih later true
      · exact cons_ne_nil _ _

theorem isDigit_toDigits {n : Nat} : ∀ c ∈ Nat.toDigits 10 n, c.isDigit = true :=
  fun _ => Nat.isDigit_of_mem_toDigits (by decide) (by decide)

/-- A number other than zero does not begin with a zero. -/
theorem head_toDigits {n : Nat} (positive : 0 < n) : (Nat.toDigits 10 n).head? ≠ some '0' := by
  induction n using Nat.strongRecOn with
  | _ n ih =>
    rcases Nat.lt_or_ge n 10 with small | large
    · rw [Nat.toDigits_of_lt_base small]
      have all : ∀ d < 10, 0 < d → [Nat.digitChar d].head? ≠ some '0' := by decide
      exact all n small positive
    · rw [Nat.toDigits_of_base_le (by decide) large,
        head?_append_of_ne_nil _ Nat.toDigits_ne_nil]
      exact ih (n / 10) (by omega) (by omega)

theorem head_decimalDigits (n : Nat) : ∃ o rest, decimalDigits n = o :: rest ∧
    48 ≤ o ∧ o ≤ 57 ∧ (o = zero → n = 0) := by
  obtain ⟨c, chars, shape⟩ := exists_cons_of_ne_nil (@Nat.toDigits_ne_nil n 10)
  have is : c.isDigit = true := isDigit_toDigits c (shape ▸ mem_cons_self)
  obtain ⟨_, _, _, low, high, zero_⟩ := octet_digit is
  refine ⟨octet c, chars.map octet, by rw [decimalDigits, shape, map_cons], low, high, ?_⟩
  intro same
  rcases Nat.eq_zero_or_pos n with none_ | positive
  · exact none_
  · refine absurd ?_ (head_toDigits positive)
    rw [shape, zero_.mp same]
    rfl

theorem scanUnsigned_decimal (negative : Bool) (n : Nat) :
    scanUnsigned negative (decimalDigits n) = int64 negative n := by
  rcases Nat.eq_zero_or_pos n with rfl | positive
  · cases negative <;> decide
  have all : ∀ o ∈ decimalDigits n, inBase 10 o = true ∧ o ≠ underscore := by
    intro o member
    obtain ⟨c, inside, rfl⟩ := mem_map.mp member
    obtain ⟨value_, small, plain, _⟩ := octet_digit (isDigit_toDigits c inside)
    refine ⟨?_, plain⟩
    rw [inBase, value_]
    simp [small]
  have run : (decimalDigits n).takeWhile (inBase 10) = decimalDigits n :=
    takeWhile_eq_self_iff.mpr fun o member => (all o member).1
  obtain ⟨o, rest, shape, _, _, zero_⟩ := head_decimalDigits n
  have other : (decimalDigits n).head? ≠ some zero := by
    rw [shape, head?_cons]
    intro same
    have none_ := zero_ (Option.some.inj same)
    omega
  have some_ : decimalDigits n ≠ [] := shape ▸ cons_ne_nil _ _
  have plain : underscore ∉ decimalDigits n := fun member => (all _ member).2 rfl
  rw [scanUnsigned, if_neg other, scanDigits, run, if_neg some_, parseInt,
    if_pos (separated_of_plain plain false), decimalDigits, value_octets isDigit_toDigits,
    Nat.ofDigitChars_toDigits (by decide) (by decide)]

/-- Nothing is skipped before a sign or a digit. -/
theorem skipSpace_cons {o : UInt8} {rest : Bytes} (sign : o = minus ∨ 48 ≤ o ∧ o ≤ 57) :
    skipSpace (o :: rest) = o :: rest := by
  have small : o < 128 := by
    rcases sign with rfl | ⟨_, high⟩
    · decide
    · exact UInt8.lt_of_le_of_lt high (by decide)
  have stays : ∀ piece more, pieces (o :: rest) = piece :: more → piece.isSpace = false →
      skipSpace (o :: rest) = o :: rest := by
    intro piece more shape solid
    rw [skipSpace, shape, dropWhile_cons_of_neg (by simp [solid]), ← shape, octets_pieces]
  cases found : front? (o :: rest) with
  | none => exact stays _ _ (pieces_stray found) rfl
  | some c =>
    obtain ⟨tail, shape⟩ := exists_of_front? found
    have inside : o ∈ encode c := by
      obtain ⟨first, more, begins⟩ := exists_cons_of_ne_nil (encode_ne_nil c)
      rw [begins, cons_append] at shape
      rw [begins, (List.cons.inj shape).1]
      exact mem_cons_self
    refine stays (.char c) (pieces tail) (by rw [shape, pieces_encode]) ?_
    have code : c.toNat = o.toNat := toNat_of_encode (encode_of_mem inside small)
    have range : o.toNat = 45 ∨ 48 ≤ o.toNat ∧ o.toNat ≤ 57 := by
      rcases sign with rfl | ⟨low, high⟩
      · exact .inl rfl
      · exact .inr ⟨UInt8.le_iff_toNat_le.mp low, UInt8.le_iff_toNat_le.mp high⟩
    simp only [Piece.isSpace, Piece.rune, isSpace, code]
    simp
    omega

/-- The integers of 64 bits. -/
def Fits (i : Int) : Prop := -2 ^ 63 ≤ i ∧ i < 2 ^ 63

instance (i : Int) : Decidable (Fits i) := inferInstanceAs (Decidable (_ ∧ _))

/-- The decimal text of an integer is read back, if it fits. -/
theorem scanInt_decimal (i : Int) : scanInt (decimal i) = if Fits i then some i else none := by
  obtain ⟨o, rest, shape, low, high, _⟩ := head_decimalDigits i.natAbs
  have notMinus : o ≠ minus := by
    rintro rfl
    exact absurd low (by decide)
  have notPlus : o ≠ 43 := by
    rintro rfl
    exact absurd low (by decide)
  unfold decimal
  split
  · rename_i negative
    rw [scanInt, skipSpace_cons (.inl rfl), head?_cons, if_pos rfl, tail_cons,
      scanUnsigned_decimal, int64, if_pos rfl]
    by_cases fits : i.natAbs ≤ 2 ^ 63
    · rw [if_pos fits, if_pos (by unfold Fits; omega)]
      congr 1
      omega
    · rw [if_neg fits, if_neg (by unfold Fits; omega)]
  · rename_i natural
    have head : (decimalDigits i.natAbs).head? = some o := by rw [shape, head?_cons]
    have skipped : skipSpace (decimalDigits i.natAbs) = decimalDigits i.natAbs := by
      rw [shape]
      exact skipSpace_cons (.inr ⟨low, high⟩)
    rw [scanInt, skipped, head, if_neg (by simpa using notMinus), if_neg (by simpa using notPlus),
      scanUnsigned_decimal, int64, if_neg (by decide)]
    by_cases fits : i.natAbs < 2 ^ 63
    · rw [if_pos fits, if_pos (by unfold Fits; omega)]
      congr 1
      omega
    · rw [if_neg fits, if_neg (by unfold Fits; omega)]

end OctoMail.ScanInt
