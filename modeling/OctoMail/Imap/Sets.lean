import Mathlib.Data.List.Basic
import OctoMail.Imap.Reading

/-!
# Sequence sets

The sets of the grammar, as the commands print and read them. There are two readers,
`parseUIDSet` of `protocol/imapd/commands.go` and `matchSetStar` of `search.go`. A set of the
grammar means the same to both, once it is said what the `*` stands for.
-/

namespace OctoMail.Imap.Sets

open List Store Function

/-- A number of the grammar, or the largest one. -/
inductive Bound where
  | number (n : Nat) (positive : 0 < n) (bounded : n < 2 ^ 32)
  | star

inductive Part where
  | single (bound : Bound)
  | range (first second : Bound)

structure SeqSet where
  first : Part
  others : List Part

def SeqSet.parts (set : SeqSet) : List Part := set.first :: set.others

def Bound.render : Bound → List Char
  | number n _ _ => Nat.toDigits 10 n
  | star => ['*']

def Part.render : Part → List Char
  | single bound => bound.render
  | range first second => first.render ++ ':' :: second.render

def SeqSet.render (set : SeqSet) : List Char :=
  set.first.render ++ set.others.flatMap (fun part => ',' :: part.render)

def Bound.value (max : Nat) : Bound → Nat
  | number n _ _ => n
  | star => max

/-- The ends of a part, in the order in which they are written. -/
def Part.ends (max : Nat) : Part → Nat × Nat
  | single bound => (bound.value max, bound.value max)
  | range first second => (first.value max, second.value max)

/-- What a set denotes when `*` is `max`. The ends of a range may come in either order. -/
def SeqSet.Denotes (set : SeqSet) (max v : Nat) : Prop :=
  ∃ part ∈ set.parts, min (part.ends max).1 (part.ends max).2 ≤ v ∧
    v ≤ Max.max (part.ends max).1 (part.ends max).2

def Part.stars : Part → Bool
  | single .star | range .star _ | range _ .star => true
  | _ => false

/-- The set mentions `*`. -/
def SeqSet.stars (set : SeqSet) : Bool := set.parts.any Part.stars

/-! ### The characters of a set -/

variable {c : Char} {set : SeqSet}

theorem bound_chars {bound : Bound} (inside : c ∈ bound.render) : c.isDigit = true ∨ c = '*' := by
  cases bound with
  | number => exact .inl (Nat.isDigit_of_mem_toDigits (by decide) (by decide) inside)
  | star => exact .inr (mem_singleton.mp inside)

theorem bound_ne_nil (bound : Bound) : bound.render ≠ [] := by
  cases bound with
  | number => exact Nat.toDigits_ne_nil
  | star => exact cons_ne_nil _ _

theorem part_chars {part : Part} (inside : c ∈ part.render) :
    c.isDigit = true ∨ c = '*' ∨ c = ':' := by
  cases part with
  | single => exact (bound_chars inside).imp_right .inl
  | range =>
    rcases mem_append.mp inside with left_ | right_
    · exact (bound_chars left_).imp_right .inl
    · rcases mem_cons.mp right_ with same | later
      · exact .inr (.inr same)
      · exact (bound_chars later).imp_right .inl

theorem set_chars (inside : c ∈ set.render) : c.isDigit = true ∨ c = '*' ∨ c = ':' ∨ c = ',' := by
  rcases mem_append.mp inside with here | later
  · exact (part_chars here).imp_right (·.imp_right .inl)
  · obtain ⟨part, _, there⟩ := mem_flatMap.mp later
    rcases mem_cons.mp there with same | there
    · exact .inr (.inr (.inr same))
    · exact (part_chars there).imp_right (·.imp_right .inl)

theorem set_ne_nil (set : SeqSet) : set.render ≠ [] := by
  intro nothing
  obtain ⟨none, _⟩ := append_eq_nil_iff.mp nothing
  cases first : set.first with
  | single bound => exact bound_ne_nil bound (by rw [first] at none; exact none)
  | range => simp [first, Part.render] at none

theorem render_eq (set : SeqSet) : set.render = [','].intercalate (set.parts.map Part.render) := by
  have general : ∀ (first : List Char) (others : List Part),
      first ++ others.flatMap (fun part => ',' :: part.render) =
        [','].intercalate (first :: others.map Part.render) := by
    intro first others
    induction others generalizing first with
    | nil => simp
    | cons part more ih =>
      rw [flatMap_cons, map_cons, intercalate_cons_cons, ← ih]
      simp
  exact general _ _

theorem splitOn_render (set : SeqSet) : set.render.splitOn ',' = set.parts.map Part.render := by
  rw [render_eq]
  refine splitOn_intercalate ',' ?_ (cons_ne_nil _ _)
  rintro text among inside
  obtain ⟨part, _, rfl⟩ := mem_map.mp among
  rcases part_chars inside with digit | same | same
  · exact absurd digit (by decide)
  · exact absurd same (by decide)
  · exact absurd same (by decide)

theorem takeWhile_render {bound : Bound} {rest : List Char} (ends : ∀ c ∈ rest.head?, c = ':') :
    (bound.render ++ rest).takeWhile (· != ':') = bound.render ∧
      (bound.render ++ rest).dropWhile (· != ':') = rest := by
  have plain : ∀ c ∈ bound.render, (c != ':') = true := by
    intro c inside
    rcases bound_chars inside with digit | same
    · refine bne_iff_ne.mpr ?_
      rintro rfl
      exact absurd digit (by decide)
    · rw [same]
      decide
  rw [takeWhile_append_of_pos plain, dropWhile_append_of_pos plain]
  cases rest with
  | nil => simp
  | cons c more =>
    obtain rfl := ends c rfl
    simp

/-! ### The readers -/

theorem le_ofDigitChars (text : List Char) (acc : Nat) : acc ≤ Nat.ofDigitChars 10 text acc := by
  induction text generalizing acc with
  | nil => exact Nat.le_refl acc
  | cons c rest ih =>
    rw [Nat.ofDigitChars_cons]
    exact Nat.le_trans (by omega) (ih _)

/-- The digits of a number are read back. -/
theorem digits_eq {text : List Char} {acc : Nat} (digits : ∀ c ∈ text, c.isDigit = true)
    (bounded : Nat.ofDigitChars 10 text acc < 2 ^ 32) :
    parseUint32.digits text acc = Nat.ofDigitChars 10 text acc := by
  induction text generalizing acc with
  | nil => rfl
  | cons c rest ih =>
    obtain ⟨first, others⟩ := forall_mem_cons.mp digits
    rw [Nat.ofDigitChars_cons] at bounded ⊢
    have small := Nat.lt_of_le_of_lt (le_ofDigitChars rest _) bounded
    rw [parseUint32.digits, if_pos first, if_neg (by omega), Nat.mul_comm acc]
    exact ih others bounded

theorem parseUint32_digits {n : Nat} (bounded : n < 2 ^ 32) :
    parseUint32 (Nat.toDigits 10 n) = n := by
  have value := @Nat.ofDigitChars_toDigits 10 n (by decide) (by decide)
  rw [parseUint32, digits_eq (fun c => Nat.isDigit_of_mem_toDigits (by decide) (by decide)),
    value]
  rwa [value]

theorem isSpace_eq_false (inside : c.isDigit = true ∨ c = '*' ∨ c = ':') : isSpace c = false := by
  have code : 42 ≤ c.toNat ∧ c.toNat ≤ 58 := by
    rcases inside with digit | rfl | rfl
    · have code := Char.isDigit_iff_toNat.mp digit
      simp only [Char.reduceToNat] at code
      omega
    · decide
    · decide
  simp [Utf8.isSpace]
  omega

theorem trimSpace_eq {text : List Char} (first : ∀ c ∈ text.head?, isSpace c = false)
    (last : ∀ c ∈ text.getLast?, isSpace c = false) : trimSpace text = text := by
  have stays : ∀ text : List Char, (∀ c ∈ text.head?, isSpace c = false) →
      text.dropWhile isSpace = text := by
    intro text plain
    cases text with
    | nil => rfl
    | cons c rest => rw [dropWhile_cons_of_neg (by simp [plain c rfl])]
  rw [trimSpace, stays text first, stays _ (by simpa using last), reverse_reverse]

section Reading

variable (number : List Char → Nat)

/-- A part read with a reader of numbers: its ends as they are written. -/
def readPart (max : Nat) (part : List Char) : Nat × Nat :=
  let bound := fun text : List Char => if text = ['*'] then max else number text
  let low := bound (part.takeWhile (· != ':'))
  (low, match part.dropWhile (· != ':') with
    | [] => low
    | _ :: rest => bound rest)

variable (decimal : ∀ n, n < 2 ^ 32 → number (Nat.toDigits 10 n) = n)
include decimal

theorem bound_read (max : Nat) (bound : Bound) :
    (if bound.render = ['*'] then max else number bound.render) = bound.value max := by
  cases bound with
  | number n _ bounded =>
    have other : Nat.toDigits 10 n ≠ ['*'] := by
      intro same
      exact absurd (Nat.isDigit_of_mem_toDigits (b := 10) (n := n) (by decide) (by decide)
        (by rw [same]; exact mem_singleton_self '*')) (by decide)
    rw [Bound.render, if_neg other, decimal n bounded, Bound.value]
  | star => rfl

theorem readPart_render (max : Nat) (part : Part) :
    readPart number max part.render = part.ends max := by
  cases part with
  | single bound =>
    obtain ⟨taken, dropped⟩ := @takeWhile_render bound [] (by simp)
    rw [append_nil] at taken dropped
    simp only [readPart, Part.render, taken, dropped, bound_read number decimal, Part.ends]
  | range first second =>
    obtain ⟨taken, dropped⟩ := @takeWhile_render first (':' :: second.render) (by simp)
    simp only [readPart, Part.render, taken, dropped, bound_read number decimal, Part.ends]

end Reading

/-- `matchSetStar` of `search.go`, with what `fmt.Sscan` reads. -/
def matchSetStar (sscan : List Char → Nat) (set : List Char) (v max : Nat) : Bool :=
  let parseSeqNum := fun text : List Char => if text = ['*'] then max else sscan text
  (set.splitOn ',').any fun part =>
    let a := parseSeqNum (part.takeWhile (· != ':'))
    match part.dropWhile (· != ':') with
    | [] => a == v
    | _ :: hi =>
        let b := parseSeqNum hi
        if b < a then b ≤ v && v ≤ a else a ≤ v && v ≤ b

/-- A set without a meaning of its own for '*'. -/
def matchSet (sscan : List Char → Nat) (set : List Char) (v : Nat) : Bool :=
  matchSetStar sscan set v v

theorem trimSpace_render (part : Part) : trimSpace part.render = part.render := by
  apply trimSpace_eq
  · exact fun c inside => isSpace_eq_false (part_chars (mem_of_mem_head? inside))
  · exact fun c inside => isSpace_eq_false (part_chars (mem_of_mem_getLast? inside))

/-- The ranges that the reader of the message commands keeps of a set of the grammar. -/
theorem parseRanges_render (set : SeqSet) (max : Nat) :
    parseRanges (String.ofList set.render) max = set.parts.map (fun part =>
      if (part.ends max).2 < (part.ends max).1 then ((part.ends max).2, (part.ends max).1)
      else part.ends max) := by
  rw [parseRanges, String.toList_ofList, splitOn_render, map_map]
  refine map_congr_left fun part _ => ?_
  rw [← readPart_render parseUint32 (fun n => parseUint32_digits) max part]
  simp only [comp_apply, trimSpace_render]
  rfl

/-- The reader of the message commands reads a set of the grammar. -/
theorem parseUIDSet_render (set : SeqSet) (max v : Nat) :
    parseUIDSet (String.ofList set.render) max v = true ↔ set.Denotes max v := by
  rw [parseUIDSet, parseRanges_render, any_map, any_eq_true, SeqSet.Denotes]
  refine exists_congr fun part => and_congr_right fun _ => ?_
  simp only [comp_apply, Bool.and_eq_true, decide_eq_true_eq]
  split <;> omega

/-- So does the one of SEARCH. -/
theorem matchSetStar_render {sscan : List Char → Nat}
    (decimal : ∀ n, n < 2 ^ 32 → sscan (Nat.toDigits 10 n) = n) (set : SeqSet) (v max : Nat) :
    matchSetStar sscan set.render v max = true ↔ set.Denotes max v := by
  rw [matchSetStar, splitOn_render, any_map, any_eq_true, SeqSet.Denotes]
  refine exists_congr fun part => and_congr_right fun _ => ?_
  cases part with
  | single bound =>
    obtain ⟨taken, dropped⟩ := @takeWhile_render bound [] (by simp)
    rw [append_nil] at taken dropped
    simp only [comp_apply, Part.render, taken, dropped, bound_read sscan decimal,
      Part.ends, beq_iff_eq]
    omega
  | range first second =>
    obtain ⟨taken, dropped⟩ := @takeWhile_render first (':' :: second.render) (by simp)
    simp only [comp_apply, Part.render, taken, dropped, bound_read sscan decimal,
      Part.ends]
    split <;> simp only [Bool.and_eq_true, decide_eq_true_eq] <;> omega

/-- A part with '*' contains what '*' stands for. -/
theorem denotes_star (starred : set.stars = true) {v : Nat} : set.Denotes v v := by
  obtain ⟨part, among, star⟩ := any_eq_true.mp starred
  refine ⟨part, among, ?_⟩
  have value : (part.ends v).1 = v ∨ (part.ends v).2 = v := by
    cases part with
    | single bound => cases bound <;> simp_all [Part.stars, Part.ends, Bound.value]
    | range first second =>
      cases first <;> cases second <;> simp_all [Part.stars, Part.ends, Bound.value]
  omega

/-- Without '*' it does not matter what that stands for. -/
theorem denotes_plain (plain : set.stars = false) {first second v : Nat} :
    set.Denotes first v ↔ set.Denotes second v := by
  refine exists_congr fun part => and_congr_right fun among => ?_
  have none := any_eq_false.mp plain part among
  have same : part.ends first = part.ends second := by
    cases part with
    | single bound => cases bound <;> simp_all [Part.stars, Part.ends, Bound.value]
    | range low high =>
      cases low <;> cases high <;> simp_all [Part.stars, Part.ends, Bound.value]
  rw [same]

end OctoMail.Imap.Sets
