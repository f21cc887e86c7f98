import OctoMail.Imap.HeaderFields
import OctoMail.ScanInt

/-!
# Where FETCH and SEARCH cut texts

`parseBodySection`, `extractSection` and `messageHeaderValue` (`protocol/imapd/fetch.go` and
`search.go`) cut octets at positions that come from a client's numbers or from a copy in another
case. A slice that is out of range is a panic, here an error with the position.

Case is changed character by character, and an octet that is in no character becomes the replacement
character, so a copy may be longer or shorter than the text. The head of an item is ASCII, and an
octet of ASCII in a copy is one character of the text: it is always there to be cut off. The name of
a header field can be anything, and then the position behind it in the copy may be another one in
the line.
-/

namespace OctoMail.Imap.Slicing

open List Wire ScanInt
open Utf8 (encode pieces octets Piece encodeAll mapRunes replacement)
open HeaderFields (Unbroken Line unlines)

/-- `unicode.ToUpper` and `unicode.ToLower`. In lower case, nothing but itself is a colon or one of
the octets of a line end. -/
structure Letters where
  upper : Char → Char
  lower : Char → Char
  marks : ∀ c mark, mark = ':' ∨ mark = '\r' ∨ mark = '\n' → (lower c = mark ↔ c = mark)

def Letters.toUpper (letters : Letters) (text : Bytes) : Bytes := mapRunes letters.upper text

def Letters.toLower (letters : Letters) (text : Bytes) : Bytes := mapRunes letters.lower text

/-- The functions on texts, with some parser of messages. -/
def Letters.library (letters : Letters) (ensurePart : Bytes → Part × Bool) : Library where
  ensurePart := ensurePart
  sscan text := (scanInt text).getD 0
  toUpper := letters.toUpper
  toLower := letters.toLower
  trimSpace := Utf8.trimSpace
  fields := Utf8.fields

/-! ### Slices -/

def sliceFrom (b : Bytes) (lo : Nat) : Except Int Bytes :=
  if lo ≤ b.length then .ok (b.drop lo) else .error lo

/-- `strings.IndexByte` and the slices before and behind the octet found. -/
def cutByte (o : UInt8) (s : Bytes) : Option (Bytes × Bytes) :=
  match s.dropWhile (· != o) with
  | [] => none
  | _ :: rest => some (s.takeWhile (· != o), rest)

variable {front text : Bytes}

theorem cutByte_append {o : UInt8} (free : o ∉ front) (rest : Bytes) :
    cutByte o (front ++ o :: rest) = some (front, rest) := by
  have plain : ∀ x ∈ front, (x != o) = true := by
    intro x member
    rw [bne_iff_ne]
    rintro rfl
    exact free member
  rw [cutByte, dropWhile_append_of_pos plain, takeWhile_append_of_pos plain]
  simp

/-- Octets of ASCII in a copy stand for as many characters. -/
theorem length_le_of_ascii {f : Char → Char} {part : Bytes}
    (inside : part <:+: mapRunes f text) (ascii : part.all (· < 128) = true) :
    part.length ≤ text.length := by
  have single (c : Char) : (encode c).countP (· < 128) ≤ 1 := by
    by_cases some_ : ∃ o ∈ encode c, o < 128
    · obtain ⟨o, member, small⟩ := some_
      rw [Utf8.encode_of_mem member small]
      exact countP_le_length
    · rw [countP_eq_zero.mpr fun o member small => some_ ⟨o, member, by simpa using small⟩]
      exact Nat.zero_le 1
  have all (chars : List Char) : (encodeAll chars).countP (· < 128) ≤ chars.length := by
    induction chars with
    | nil => exact Nat.le_refl 0
    | cons c rest ih =>
      rw [encodeAll, flatMap_cons, countP_append, length_cons, Nat.add_comm]
      exact Nat.add_le_add ih (single c)
  calc part.length = part.countP (· < 128) :=
        (countP_eq_length.mpr (all_eq_true.mp ascii)).symm
    _ ≤ (mapRunes f text).countP (· < 128) := inside.sublist.countP_le
    _ ≤ (pieces text).length := by
        have counted := all ((pieces text).map (fun piece => f piece.rune))
        rwa [length_map] at counted
    _ ≤ text.length := Utf8.length_pieces_le text

/-! ### The items of FETCH -/

structure Head where
  text : String
  peek : Bool := false
  binary : Bool := false
  binarySize : Bool := false

def heads : List Head :=
  [{ text := "BODY.PEEK[", peek := true }, { text := "BODY[" },
    { text := "BINARY.PEEK[", peek := true, binary := true },
    { text := "BINARY.SIZE[", binary := true, binarySize := true },
    { text := "BINARY[", binary := true }]

/-- An item that asks for a section. -/
structure Item extends BodySection where
  peek : Bool

def parsePartial (s : Bytes) : Option (Int × Int) :=
  match cutByte dot s with
  | none => (scanInt s).map (fun off => (off, -1))
  | some (before, behind) => do
      let off ← scanInt before
      let count ← scanInt behind
      return (off, count)

/-- What follows the brackets, if it is a partial that can be read. -/
def partialOf (rest : Bytes) : Option (Int × Int) :=
  if rest.head? = some 60 then
    let inner := rest.tail
    parsePartial (if inner.getLast? = some 62 then inner.dropLast else inner)
  else none

section Items

variable (letters : Letters)

/-- The head of an item, what stands in its brackets and what behind them. -/
def cutItem (a : Bytes) : Except Int (Option (Head × Bytes × Bytes)) :=
  match heads.find? (fun head => (ascii head.text).isPrefixOf (letters.toUpper a)) with
  | none => .ok none
  | some head => do
      let a ← sliceFrom a (ascii head.text).length
      return (cutByte 93 a).map (fun cut => (head, cut.1, cut.2))

def parseBodySection (a : Bytes) : Except Int (Option Item) := do
  let cut ← cutItem letters a
  return cut.map (fun (head, spec, rest) =>
    { spec := letters.toUpper (Utf8.trimSpace spec), range := partialOf rest, raw := a
      binary := head.binary, binarySize := head.binarySize, peek := head.peek })

theorem cutItem_ok (a : Bytes) : ∃ cut, cutItem letters a = .ok cut := by
  have plain : ∀ head ∈ heads, (ascii head.text).all (· < 128) = true := by decide
  unfold cutItem
  cases found : heads.find? (fun head => (ascii head.text).isPrefixOf (letters.toUpper a)) with
  | none => exact ⟨none, rfl⟩
  | some head =>
    have test := find?_some found
    have begins : ascii head.text <+: letters.toUpper a := isPrefixOf_iff_prefix.mp test
    have short := length_le_of_ascii begins.isInfix (plain head (mem_of_find?_eq_some found))
    simp only [sliceFrom, if_pos short]
    exact ⟨_, rfl⟩

theorem parseBodySection_eq {a : Bytes} {head : Head} {spec rest : Bytes}
    (cut : cutItem letters a = .ok (some (head, spec, rest))) :
    ∃ item, parseBodySection letters a = .ok (some item) ∧ item.range = partialOf rest := by
  rw [parseBodySection, cut]
  exact ⟨_, rfl, rfl⟩

end Items

/-! ### Partial sections -/

/-- A section is cut from what is given without a partial. -/
theorem extractSection_eq (library : Library) (full : Bytes) (sec : BodySection) :
    ∃ whole, extractSection library full { sec with range := none } = .ok whole ∧
      extractSection library full sec = applyPartial whole sec := by
  unfold extractSection
  by_cases binary : sec.binary = true
  · rw [if_pos binary, if_pos binary]
    exact ⟨_, rfl, rfl⟩
  · rw [if_neg binary, if_neg binary]
    exact ⟨_, rfl, rfl⟩

theorem applyPartial_ok (whole : Bytes) (sec : BodySection) :
    (∃ out, applyPartial whole sec = .ok out) ↔
      ∀ off count, sec.range = some (off, count) → 0 ≤ off := by
  unfold applyPartial
  rcases sec.range with _ | ⟨off, count⟩
  · simp
  · by_cases negative : off < 0
    · simp [negative]
    · simp [negative, Int.not_lt.mp negative]

/-- `<o.n>`, with the texts of the numbers. -/
def partialText (o n : Bytes) : Bytes := 60 :: (o ++ dot :: (n ++ [62]))

theorem dot_not_mem_decimal (i : Int) : dot ∉ decimal i := by
  have digits : dot ∉ decimalDigits i.natAbs := by
    intro member
    obtain ⟨c, inside, same⟩ := mem_map.mp member
    have low := (octet_digit (isDigit_toDigits c inside)).2.2.2.1
    rw [same] at low
    exact absurd low (by decide)
  unfold decimal
  split
  · rw [mem_cons, not_or]
    exact ⟨by decide, digits⟩
  · exact digits

/-- A text that is read as a number, or not at all if that does not fit. A number that begins with
0 is octal. -/
def Spells (text : Bytes) (i : Int) : Prop :=
  dot ∉ text ∧ scanInt text = if Fits i then some i else none

theorem spells_decimal (i : Int) : Spells (decimal i) i :=
  ⟨dot_not_mem_decimal i, scanInt_decimal i⟩

theorem partialOf_partialText {s t : Bytes} {o n : Int} (offset : Spells s o) (count : Spells t n) :
    partialOf (partialText s t) = if Fits o ∧ Fits n then some (o, n) else none := by
  have shape : partialText s t = 60 :: ((s ++ dot :: t) ++ [62]) := by
    simp [partialText]
  rw [partialOf, shape, head?_cons, if_pos rfl, tail_cons]
  simp only [getLast?_concat, if_true, dropLast_concat]
  rw [parsePartial, cutByte_append offset.1]
  simp only [offset.2, count.2]
  by_cases first : Fits o
  · by_cases second : Fits n
    · rw [if_pos first, if_pos second, if_pos ⟨first, second⟩]
      rfl
    · have neither : ¬ (Fits o ∧ Fits n) := fun both => second both.2
      rw [if_pos first, if_neg second, if_neg neither]
      rfl
  · have neither : ¬ (Fits o ∧ Fits n) := fun both => first both.1
    rw [if_neg first, if_neg neither]
    rfl

/-- The octets asked for are exactly those given: at most `n` from the offset on, and both
numbers are natural. -/
def Exact (whole : Bytes) (o n : Int) (out : Except Int Bytes) : Prop :=
  0 ≤ o ∧ 0 ≤ n ∧ out = .ok ((whole.drop (min o.toNat whole.length)).take n.toNat)

theorem exact_iff {whole : Bytes} {sec : BodySection} {o n : Int}
    (range : sec.range = if Fits o ∧ Fits n then some (o, n) else none) :
    Exact whole o n (applyPartial whole sec) ↔ 0 ≤ o ∧ 0 ≤ n ∧
      (Fits o ∧ Fits n ∨ (whole.drop o.toNat).take n.toNat = whole) := by
  have clamped : whole.drop (min o.toNat whole.length) = whole.drop o.toNat := by
    rcases Nat.le_total o.toNat whole.length with inside | outside
    · rw [Nat.min_eq_left inside]
    · rw [Nat.min_eq_right outside, drop_length, drop_eq_nil_of_le outside]
  rw [Exact, clamped]
  refine and_congr_right fun natural => and_congr_right fun count => ?_
  unfold applyPartial
  rw [range]
  by_cases fit : Fits o ∧ Fits n
  · simp [fit, Int.not_lt.mpr natural, count]
  · rw [if_neg fit]
    simp only [Except.ok.injEq, fit, false_or]
    exact eq_comm

/-! ### Header fields by name -/

/-- The text before the first empty line. -/
def headerText (full : Bytes) : Bytes :=
  match afterEmptyLine full with
  | some rest => full.take (full.length - (rest.length + 4))
  | none => full

def headerLines (full : Bytes) : List Bytes := splitLines [] (headerText full)

section Names

variable (letters : Letters)

/-- The test of a line for a name. -/
def begins (name line : Bytes) : Bool :=
  (letters.toLower name ++ ascii ":").isPrefixOf (letters.toLower line)

def messageHeaderValue (full name : Bytes) : Except Int Bytes :=
  match (headerLines full).find? (begins letters name) with
  | none => .ok []
  | some line =>
      (sliceFrom line (letters.toLower name ++ ascii ":").length).map Utf8.trimSpace

/-- The name of a line: what stands before its first colon. -/
def nameOf (line : Bytes) : List Piece := (pieces line).takeWhile (· != .char ':')

/-- What stands behind it. -/
def valueOf (line : Bytes) : Bytes := octets (((pieces line).dropWhile (· != .char ':')).tail)

/-- A piece in lower case. An octet in no character has no case. -/
def lowerPiece : Piece → Piece
  | .char c => .char (letters.lower c)
  | .stray o => .stray o

/-- The line is of a field with this name, up to case. -/
def isNamed (name line : Bytes) : Bool :=
  (pieces line).contains (.char ':') &&
    (nameOf line).map (lowerPiece letters) == (pieces name).map (lowerPiece letters)

/-- What is asked for: the text behind the colon of the first line with the name. -/
def headerValue (full name : Bytes) : Bytes :=
  (((headerLines full).find? (isNamed letters name)).map (Utf8.trimSpace ∘ valueOf)).getD []

/-- A name that keeps its length in every case: a text that is the same in lower case has as many
octets as that has. -/
def Steady (name : Bytes) : Prop :=
  ∀ other, letters.toLower other = letters.toLower name →
    other.length = (letters.toLower name).length

/-- What a text is in lower case. -/
def lowered (read : List Piece) : List Char := read.map (fun piece => letters.lower piece.rune)

variable {letters}

theorem toLower_eq (text : Bytes) :
    letters.toLower text = encodeAll (lowered letters (pieces text)) := rfl

theorem toLower_eq_iff {first second : Bytes} : letters.toLower first = letters.toLower second ↔
    lowered letters (pieces first) = lowered letters (pieces second) := by
  rw [toLower_eq, toLower_eq]
  generalize lowered letters (pieces first) = chars
  generalize lowered letters (pieces second) = others
  refine ⟨fun same => ?_, congrArg encodeAll⟩
  have left := @Utf8.prefix_of_encodeAll chars others [] (by rw [same, append_nil])
  have right := @Utf8.prefix_of_encodeAll others chars [] (by rw [same, append_nil])
  exact left.eq_of_length_le right.length_le

/-- Only itself is a mark in lower case. -/
theorem mark_piece {piece : Piece} {mark : Char} (is : mark = ':' ∨ mark = '\r' ∨ mark = '\n') :
    letters.lower piece.rune = mark ↔ piece = .char mark := by
  rw [letters.marks _ _ is]
  cases piece with
  | char => exact ⟨congrArg _, Piece.char.inj⟩
  | stray =>
    have other : replacement ≠ mark := by rcases is with rfl | rfl | rfl <;> decide
    exact ⟨fun same => absurd same other, fun same => by cases same⟩

theorem octets_colon (front back : List Piece) :
    octets (front ++ .char ':' :: back) = octets front ++ 58 :: octets back := by
  rw [Utf8.octets_append, Utf8.octets_cons]
  rfl

theorem pieces_colon (front back : Bytes) :
    pieces (front ++ 58 :: back) = pieces front ++ .char ':' :: pieces back :=
  Utf8.pieces_ascii (by decide) (by decide) front back

variable {line name : Bytes}

/-- A line passes the test if a colon follows a text that is the name in lower case. -/
theorem begins_iff : begins letters name line = true ↔
    ∃ front back, pieces line = front ++ .char ':' :: back ∧
      lowered letters front = lowered letters (pieces name) := by
  have whole : letters.toLower name ++ ascii ":" =
      encodeAll (lowered letters (pieces name) ++ [':']) := by
    rw [toLower_eq, encodeAll, encodeAll, flatMap_append]
    rfl
  rw [begins, isPrefixOf_iff_prefix, whole, toLower_eq]
  constructor
  · rintro ⟨rest, shape⟩
    obtain ⟨tail, same⟩ := Utf8.prefix_of_encodeAll shape.symm
    rw [append_assoc, singleton_append] at same
    obtain ⟨front, others, split_, left, right⟩ := map_eq_append_iff.mp same.symm
    obtain ⟨colon, back, rfl, here, _⟩ := map_eq_cons_iff.mp right
    obtain rfl := (mark_piece (.inl rfl)).mp here
    exact ⟨front, back, split_, left⟩
  · rintro ⟨front, back, split_, same⟩
    refine ⟨encodeAll (lowered letters back), ?_⟩
    have colon : letters.lower ':' = ':' := (letters.marks ':' ':' (.inl rfl)).mpr rfl
    rw [split_, ← same]
    simp [lowered, encodeAll, Piece.rune, colon]

/-- The name of a line in which there is a colon. -/
theorem nameOf_eq {front back : List Piece} (shape : pieces line = front ++ .char ':' :: back)
    (free : Piece.char ':' ∉ front) : nameOf line = front ∧ valueOf line = octets back := by
  have plain : ∀ piece ∈ front, (piece != Piece.char ':') = true := by
    intro piece member
    rw [bne_iff_ne]
    rintro rfl
    exact free member
  rw [nameOf, valueOf, shape, takeWhile_append_of_pos plain,
    dropWhile_append_of_pos plain]
  simp

/-- The character that a piece in lower case counts as. -/
def countsAs (letters : Letters) : Piece → Char
  | .char c => c
  | .stray _ => letters.lower replacement

theorem lowered_lowerPiece (read : List Piece) :
    (read.map (lowerPiece letters)).map (countsAs letters) = lowered letters read := by
  rw [map_map, lowered]
  refine map_congr_left fun piece _ => ?_
  cases piece <;> rfl

theorem exists_of_isNamed (named : isNamed letters name line = true) :
    ∃ back, pieces line = nameOf line ++ .char ':' :: back ∧
      lowered letters (nameOf line) = lowered letters (pieces name) := by
  rw [isNamed, Bool.and_eq_true, beq_iff_eq, contains_iff_mem] at named
  obtain ⟨colon, same⟩ := named
  obtain ⟨front, back, shape, free⟩ := eq_append_cons_of_mem colon
  refine ⟨back, by rw [(nameOf_eq shape free).1]; exact shape, ?_⟩
  rw [← lowered_lowerPiece, ← lowered_lowerPiece, same]

theorem begins_of_isNamed (named : isNamed letters name line = true) :
    begins letters name line = true := by
  obtain ⟨back, shape, same⟩ := exists_of_isNamed named
  exact begins_iff.mpr ⟨_, back, shape, same⟩

/-! ### Lines -/

theorem unbroken_nil : Unbroken [] := fun inside => by simpa using inside.length_le

theorem unbroken_concat {o : UInt8} (unbroken : Unbroken front)
    (apart : front.getLast? = some cr → o ≠ lf) : Unbroken (front ++ [o]) := by
  intro inside
  rcases infix_concat_iff.mp inside with ending | within
  · rcases suffix_concat_iff.mp ending with nothing | ⟨rest, same, before⟩
    · cases nothing
    · obtain ⟨rfl, last⟩ := append_inj' (show [cr] ++ [lf] = rest ++ [o] from same) rfl
      obtain ⟨more, rfl⟩ := before
      exact apart (by simp) (singleton_inj.mp last).symm
  · exact unbroken within

/-- Lines have no line end in them. -/
theorem splitLines_unbroken (front : Bytes) (unbroken : Unbroken front)
    (apart : front.getLast? = some cr → text.head? ≠ some lf) :
    ∀ line ∈ splitLines front text, Unbroken line := by
  fun_induction splitLines front text with
  | case1 =>
    intro line member
    obtain rfl := mem_singleton.mp member
    exact unbroken
  | case2 =>
    intro line member
    obtain rfl := mem_singleton.mp member
    exact unbroken_concat unbroken fun last same => apart last (congrArg some same)
  | case3 _ _ _ _ _ ih =>
    intro line member
    rcases mem_cons.mp member with rfl | later
    · exact unbroken
    · exact ih unbroken_nil (fun none_ => by cases none_) line later
  | case4 _ _ _ _ open_ ih =>
    refine ih (unbroken_concat unbroken fun last same =>
      apart last (congrArg some same)) fun last same => open_ ⟨?_, Option.some.inj same⟩
    rw [getLast?_concat] at last
    exact Option.some.inj last

theorem headerLines_unbroken {full : Bytes} (member : line ∈ headerLines full) : Unbroken line :=
  splitLines_unbroken [] unbroken_nil (fun none_ => by cases none_) line member

/-- The header of a message that is a single line. -/
theorem headerLines_single (is : Line line) : headerLines (unlines [line]) = [line, []] := by
  have are : ∀ other ∈ [line], Line other := by simpa using is
  have unbroken : ∀ other ∈ [line], Unbroken other := fun other member => (are other member).2
  have none_ := HeaderFields.afterEmptyLine_unlines are (cons_ne_nil _ _) []
  have split_ := HeaderFields.splitLines_unlines unbroken []
  rw [append_nil] at none_ split_
  rw [headerLines, headerText, none_]
  exact split_

/-- A line end in a text is there in lower case, and comes from nothing else. -/
theorem broken_iff (letters : Letters) (text : Bytes) :
    ¬ Unbroken text ↔ ['\r', '\n'] <:+: lowered letters (pieces text) := by
  have isCr : letters.lower '\r' = '\r' := (letters.marks _ _ (.inr (.inl rfl))).mpr rfl
  have isLf : letters.lower '\n' = '\n' := (letters.marks _ _ (.inr (.inr rfl))).mpr rfl
  rw [Unbroken, Classical.not_not]
  constructor
  · rintro ⟨front, back, rfl⟩
    have first := @Utf8.pieces_ascii '\r' cr (by decide) (by decide) front (lf :: back)
    have second := @Utf8.pieces_ascii '\n' lf (by decide) (by decide) [] back
    rw [nil_append] at second
    rw [second] at first
    refine ⟨lowered letters (pieces front), lowered letters (pieces back), ?_⟩
    have whole : front ++ [cr, lf] ++ back = front ++ cr :: lf :: back := by simp
    rw [whole, first]
    simp [lowered, Piece.rune, isCr, isLf]
  · rintro ⟨before, behind, same⟩
    rw [append_assoc, lowered] at same
    obtain ⟨front, others, shape, _, right⟩ := map_eq_append_iff.mp same.symm
    obtain ⟨first, rest, rfl, isFirst, right⟩ := map_eq_cons_iff.mp right
    obtain ⟨second, back, rfl, isSecond, _⟩ := map_eq_cons_iff.mp right
    obtain rfl := (mark_piece (.inr (.inl rfl))).mp isFirst
    obtain rfl := (mark_piece (.inr (.inr rfl))).mp isSecond
    refine ⟨octets front, octets back, ?_⟩
    rw [← Utf8.octets_pieces text, shape, Utf8.octets_append, Utf8.octets_cons, Utf8.octets_cons]
    rw [append_assoc]
    rfl

theorem colon_mem_iff (text : Bytes) : 58 ∈ text ↔ Piece.char ':' ∈ pieces text := by
  constructor
  · intro inside
    obtain ⟨front, back, rfl⟩ := append_of_mem inside
    rw [pieces_colon]
    exact mem_append_right _ mem_cons_self
  · intro inside
    obtain ⟨front, back, shape⟩ := append_of_mem inside
    rw [← Utf8.octets_pieces text, shape, octets_colon]
    exact mem_append_right _ mem_cons_self

/-! ### Names that keep their length -/

/-- Octets in no character become longer. -/
theorem chars_of_length (read : List Piece) :
    (octets read).length ≤ (encodeAll (read.map Piece.rune)).length ∧
      ((encodeAll (read.map Piece.rune)).length ≤ (octets read).length →
        read = (read.map Piece.rune).map Piece.char) := by
  induction read with
  | nil => exact ⟨Nat.le_refl _, fun _ => rfl⟩
  | cons piece rest ih =>
    obtain ⟨shorter, chars⟩ := ih
    rw [Utf8.octets_cons, map_cons, encodeAll, flatMap_cons, length_append,
      length_append]
    cases piece with
    | char =>
      refine ⟨Nat.add_le_add_left shorter _, fun same => ?_⟩
      rw [map_cons, ← chars (Nat.le_of_add_le_add_left same)]
      rfl
    | stray o =>
      have wide : (encode (Piece.stray o).rune).length = 3 := rfl
      have narrow : (Piece.stray o).octets.length = 1 := rfl
      rw [encodeAll] at shorter
      refine ⟨by omega, fun same => ?_⟩
      omega

/-- Pieces that are the steady name in lower case are characters, as long as the name is there. -/
theorem Steady.chars {name : Bytes} (steady : Steady letters name) {text : Bytes}
    (same : lowered letters (pieces text) = lowered letters (pieces name)) :
    text.length = (letters.toLower name).length ∧
      pieces text = ((pieces text).map Piece.rune).map Piece.char := by
  have length := steady text (toLower_eq_iff.mpr same)
  refine ⟨length, (chars_of_length (pieces text)).2 ?_⟩
  have runes := Utf8.pieces_encodeAll ((pieces text).map Piece.rune) []
  rw [append_nil, Utf8.pieces_nil, append_nil] at runes
  have longer := steady (encodeAll ((pieces text).map Piece.rune)) (toLower_eq_iff.mpr (by
    rw [runes, ← same]
    simp [lowered, Piece.rune]))
  rw [longer, Utf8.octets_pieces, length]

/-- A line of the field is sliced behind its colon if the name is as long there. -/
theorem slice_valueOf (named : isNamed letters name line = true)
    (length : (octets (nameOf line)).length = (letters.toLower name).length) :
    sliceFrom line (letters.toLower name ++ ascii ":").length = .ok (valueOf line) := by
  obtain ⟨back, shape, _⟩ := exists_of_isNamed named
  have free : Piece.char ':' ∉ nameOf line := fun inside => by
    simpa using mem_takeWhile_imp inside
  have whole := (Utf8.pieces_octets shape).2
  rw [Utf8.octets_cons, ← (nameOf_eq shape free).2] at whole
  have place : (letters.toLower name ++ ascii ":").length =
      (octets (nameOf line) ++ [58]).length := by
    rw [length_append, length_append, length]
    rfl
  have line_ : line = (octets (nameOf line) ++ [58]) ++ valueOf line := by
    rw [append_assoc]
    exact whole
  rw [sliceFrom, place]
  generalize octets (nameOf line) ++ [58] = head, valueOf line = value at line_
  rw [line_, drop_left, if_pos (by rw [length_append]; exact Nat.le_add_right _ _)]

/-- For a steady name without a colon the test is right, and so is the slice. -/
theorem Steady.right (steady : Steady letters name) (plain : 58 ∉ name)
    (test : begins letters name line = true) : isNamed letters name line = true ∧
      (octets (nameOf line)).length = (letters.toLower name).length := by
  obtain ⟨front, back, shape, same⟩ := begins_iff.mp test
  obtain ⟨read, -⟩ := Utf8.pieces_octets shape
  have free : Piece.char ':' ∉ front := by
    intro inside
    have colon : ':' ∈ lowered letters (pieces name) := by
      rw [← same]
      exact mem_map.mpr ⟨_, inside, (letters.marks ':' ':' (.inl rfl)).mpr rfl⟩
    obtain ⟨piece, member, here⟩ := mem_map.mp colon
    obtain rfl := (mark_piece (.inl rfl)).mp here
    exact plain ((colon_mem_iff name).mpr member)
  have nameIs := (nameOf_eq shape free).1
  obtain ⟨length, chars⟩ := steady.chars (read.symm ▸ same)
  obtain ⟨_, chars'⟩ := @Steady.chars _ _ steady name rfl
  rw [read] at chars
  refine ⟨?_, nameIs ▸ length⟩
  rw [isNamed, Bool.and_eq_true, beq_iff_eq, contains_iff_mem]
  refine ⟨shape ▸ mem_append_right _ mem_cons_self, ?_⟩
  have lower (read : List Piece) :
      ((read.map Piece.rune).map Piece.char).map (lowerPiece letters) =
        (lowered letters read).map Piece.char := by simp [lowered, lowerPiece]
  rw [nameIs, chars, chars', lower, lower, same]

/-- With a line end in the name no line passes the test. -/
theorem begins_of_broken (broken : ¬ Unbroken name) (unbroken : Unbroken line) :
    begins letters name line = false := by
  refine Bool.eq_false_iff.mpr fun test => ?_
  obtain ⟨front, back, shape, same⟩ := begins_iff.mp test
  refine (broken_iff letters line).mpr ?_ unbroken
  rw [shape, lowered, map_append]
  refine List.IsInfix.trans ?_ (prefix_append _ _).isInfix
  change ['\r', '\n'] <:+: lowered letters front
  rw [same]
  exact (broken_iff letters name).mp broken

/-- The value found is the one asked for. -/
def RightIn (letters : Letters) (name full : Bytes) : Prop :=
  messageHeaderValue letters full name = .ok (headerValue letters full name)

/-- Every line of the message that passes the test is of the field, and its name is as long as in
lower case. -/
def SteadyIn (letters : Letters) (name full : Bytes) : Prop :=
  ∀ line ∈ headerLines full, begins letters name line = true → isNamed letters name line = true ∧
    (octets (nameOf line)).length = (letters.toLower name).length

theorem SteadyIn.right {full : Bytes} (steady : SteadyIn letters name full) :
    RightIn letters name full := by
  have same : (headerLines full).find? (begins letters name) =
      (headerLines full).find? (isNamed letters name) := by
    rw [← head?_filter, ← head?_filter]
    refine congrArg List.head? (filter_congr fun line member => ?_)
    rw [Bool.eq_iff_iff]
    exact ⟨fun test => (steady line member test).1, begins_of_isNamed⟩
  rw [RightIn, messageHeaderValue, headerValue, same]
  cases found : (headerLines full).find? (isNamed letters name) with
  | none => rfl
  | some line =>
    have member := mem_of_find?_eq_some found
    have named := find?_some found
    dsimp only
    rw [slice_valueOf named (steady line member (begins_of_isNamed named)).2]
    rfl

/-- It is, whatever the message is. -/
def RightFor (letters : Letters) (name : Bytes) : Prop := ∀ full, RightIn letters name full

/-! ### Names that do not -/

theorem trimSpace_colon : Utf8.trimSpace (front ++ [58]) ≠ [] := by
  have ends := pieces_colon front []
  rw [Utf8.pieces_nil] at ends
  intro nothing
  rw [Utf8.trimSpace, ends] at nothing
  have kept : Piece.char ':' ∈ (((pieces front ++ [Piece.char ':']).dropWhile
      Piece.isSpace).rdropWhile Piece.isSpace) := by
    have solid : Piece.isSpace (.char ':') = false := by decide
    have some_ : ∃ more, (pieces front ++ [Piece.char ':']).dropWhile Piece.isSpace =
        more ++ [Piece.char ':'] := by
      rw [dropWhile_append]
      split
      · exact ⟨[], by simp [solid]⟩
      · exact ⟨_, rfl⟩
    obtain ⟨more, shape⟩ := some_
    rw [shape, rdropWhile_concat_neg _ _ _ (by simp [solid])]
    exact mem_append_right _ mem_cons_self
  obtain ⟨before, behind, shape⟩ := append_of_mem kept
  rw [shape, octets_colon] at nothing
  simp at nothing

theorem line_colon (unbroken : Unbroken text) : Line (text ++ [58]) :=
  ⟨by simp, unbroken_concat unbroken fun _ => by decide⟩

theorem messageHeaderValue_single (is : Line line) (test : begins letters name line = true) :
    messageHeaderValue letters (unlines [line]) name =
      (sliceFrom line (letters.toLower name ++ ascii ":").length).map Utf8.trimSpace := by
  rw [messageHeaderValue, headerLines_single is, find?_cons_of_pos test]

theorem headerValue_single (is : Line line) :
    headerValue letters (unlines [line]) name =
      if isNamed letters name line then Utf8.trimSpace (valueOf line) else [] := by
  rw [headerValue, headerLines_single is]
  split
  · rename_i named
    rw [find?_cons_of_pos named]
    rfl
  · rename_i other
    rw [find?_cons_of_neg other, find?_cons_of_neg Bool.false_ne_true]
    rfl

/-- A line is not of the field whose name runs past the line's first colon. -/
theorem not_isNamed {other : Bytes} (more : Bytes)
    (same : lowered letters (pieces other) = lowered letters (pieces name)) (colon : 58 ∈ other) :
    isNamed letters name (other ++ 58 :: more) = false := by
  refine Bool.eq_false_iff.mpr fun named => ?_
  obtain ⟨_, _, lengths⟩ := exists_of_isNamed named
  obtain ⟨front, back, shape, free⟩ := eq_append_cons_of_mem ((colon_mem_iff other).mp colon)
  have whole : pieces (other ++ 58 :: more) =
      front ++ .char ':' :: (back ++ .char ':' :: pieces more) := by
    rw [pieces_colon, shape, append_assoc, cons_append]
  rw [(nameOf_eq whole free).1] at lengths
  have first := congrArg List.length lengths
  have second := congrArg List.length same
  simp only [lowered, length_map, shape, length_append, length_cons] at first second
  omega

theorem headerValue_colon {other : Bytes} (is : Line (other ++ [58]))
    (same : lowered letters (pieces other) = lowered letters (pieces name)) :
    headerValue letters (unlines [other ++ [58]]) name = [] := by
  rw [headerValue_single is]
  split
  · rename_i named
    by_cases colon : 58 ∈ other
    · rw [not_isNamed [] same colon] at named
      cases named
    · rw [colon_mem_iff] at colon
      rw [(nameOf_eq (pieces_colon other []) colon).2]
      rfl
  · rfl

/-- The name has to keep its length. -/
theorem RightFor.steady (right : RightFor letters name) (unbroken : Unbroken name) :
    Steady letters name := by
  intro other same
  have lower := toLower_eq_iff.mp same
  have whole : Unbroken other := by
    refine Classical.not_not.mp fun broken => ?_
    rw [broken_iff letters, lower, ← broken_iff] at broken
    exact broken unbroken
  have is := line_colon whole
  have test : begins letters name (other ++ [58]) = true :=
    begins_iff.mpr ⟨_, _, pieces_colon other [], lower⟩
  have length : (letters.toLower name ++ ascii ":").length = (letters.toLower name).length + 1 :=
    length_append
  have given := right (unlines [other ++ [58]])
  rw [RightIn, messageHeaderValue_single is test, headerValue_colon is lower, sliceFrom, length] at given
  by_contra differs
  rcases Nat.lt_or_ge other.length (letters.toLower name).length with short | long
  · rw [if_neg (by rw [length_append, length_singleton]; omega)] at given
    cases given
  · rw [if_pos (by rw [length_append, length_singleton]; omega),
      drop_append_of_le_length (by omega)] at given
    exact trimSpace_colon (Except.ok.inj given)

/-- The name has to be without a colon. -/
theorem RightFor.plain {name : Bytes} (right : RightFor letters name) (unbroken : Unbroken name) :
    58 ∉ name := by
  intro colon
  have keeps := right.steady unbroken name rfl
  have shape : name ++ 58 :: [120] = (name ++ [58]) ++ [120] := by simp
  have is : Line (name ++ 58 :: [120]) := by
    rw [shape]
    exact ⟨by simp, unbroken_concat (line_colon unbroken).2 fun _ => by decide⟩
  have test : begins letters name (name ++ 58 :: [120]) = true :=
    begins_iff.mpr ⟨_, _, pieces_colon name [120], rfl⟩
  have given := right (unlines [name ++ 58 :: [120]])
  have length : (letters.toLower name ++ ascii ":").length = (name ++ [58]).length := by
    rw [length_append, length_append, keeps]
    rfl
  rw [RightIn, messageHeaderValue_single is test, headerValue_single is,
    not_isNamed [120] rfl colon, sliceFrom, length, shape, drop_left, if_pos (by simp)] at given
  have kept : Utf8.trimSpace [120] = [120] := by decide
  have nothing := Except.ok.inj given
  rw [kept] at nothing
  cases nothing

/-- Values are found rightly for the names that keep their length and have no colon. A name with a
line end in it is the name of no line, and is not found. -/
theorem rightFor_iff (letters : Letters) (name : Bytes) :
    RightFor letters name ↔ ¬ Unbroken name ∨ (Steady letters name ∧ 58 ∉ name) := by
  constructor
  · intro right
    by_cases unbroken : Unbroken name
    · exact .inr ⟨right.steady unbroken, right.plain unbroken⟩
    · exact .inl unbroken
  · rintro (broken | ⟨steady, plain⟩)
    · refine fun full => SteadyIn.right fun line member test => ?_
      rw [begins_of_broken broken (headerLines_unbroken member)] at test
      cases test
    · exact fun full => SteadyIn.right fun line _ test => steady.right plain test

end Names

/-! ### All slices -/

/-- A keyword at the end of a section is cut off within it. -/
theorem keyword_length_le {letters : Letters} {spec : Bytes} :
    ∀ keyword ∈ [".MIME", ".HEADER", ".TEXT"],
      (ascii keyword).isSuffixOf (letters.toUpper spec) = true → keyword.length ≤ spec.length := by
  have plain : ∀ keyword ∈ [".MIME", ".HEADER", ".TEXT"], (ascii keyword).all (· < 128) = true := by
    decide
  intro keyword member ends
  have inside := (isSuffixOf_iff_suffix.mp ends).isInfix
  have short := length_le_of_ascii inside (plain keyword member)
  rwa [ascii, length_map, String.length_toList] at short

theorem indexHeaderEnd_le (full : Bytes) : indexHeaderEnd full ≤ full.length := by
  unfold indexHeaderEnd
  cases afterEmptyLine full with
  | none => exact Nat.le_refl _
  | some rest => exact Nat.sub_le _ _

/-- Items are cut within range, and so are sections, unless the offset read is negative. A partial
`<o.n>` gives the octets it asks for exactly if both numbers are natural and fit 64 bits, or else
the whole section is what it asks for. A header value is found rightly in every message exactly if
the name keeps its length in every case and has no colon, or has a line end; in one message, if it
keeps its length there. -/
theorem slices_in_range_iff (letters : Letters) (ensurePart : Bytes → Part × Bool) :
    (∀ a, ∃ item, parseBodySection letters a = .ok item) ∧
    (∀ full spec : Bytes, indexHeaderEnd full ≤ full.length ∧
      ∀ keyword ∈ [".MIME", ".HEADER", ".TEXT"],
        (ascii keyword).isSuffixOf (letters.toUpper spec) = true → keyword.length ≤ spec.length) ∧
    (∀ full (item : Item),
      (∃ out, extractSection (letters.library ensurePart) full item.toBodySection = .ok out) ↔
        ∀ off count, item.range = some (off, count) → 0 ≤ off) ∧
    (∀ i, Spells (decimal i) i) ∧
    (∀ full a head spec s t o n, cutItem letters a = .ok (some (head, spec, partialText s t)) →
      Spells s o → Spells t n → ∃ item whole, parseBodySection letters a = .ok (some item) ∧
        extractSection (letters.library ensurePart) full { item.toBodySection with range := none } =
          .ok whole ∧
        (Exact whole o n (extractSection (letters.library ensurePart) full item.toBodySection) ↔
          0 ≤ o ∧ 0 ≤ n ∧ (Fits o ∧ Fits n ∨ (whole.drop o.toNat).take n.toNat = whole))) ∧
    (∀ name, RightFor letters name ↔ ¬ Unbroken name ∨ (Steady letters name ∧ 58 ∉ name)) ∧
    (∀ name full, SteadyIn letters name full → RightIn letters name full) := by
  refine ⟨fun a => ?_, fun full spec => ⟨indexHeaderEnd_le full, keyword_length_le⟩,
    fun full item => ?_, spells_decimal, fun full a head spec s t o n cut offset count => ?_,
    rightFor_iff letters, fun name full => SteadyIn.right⟩
  · obtain ⟨cut, ran⟩ := cutItem_ok letters a
    rw [parseBodySection, ran]
    exact ⟨_, rfl⟩
  · obtain ⟨whole, _, same⟩ :=
      extractSection_eq (letters.library ensurePart) full item.toBodySection
    rw [same]
    exact applyPartial_ok whole item.toBodySection
  · obtain ⟨item, parsed, range⟩ := parseBodySection_eq letters cut
    obtain ⟨whole, given, same⟩ :=
      extractSection_eq (letters.library ensurePart) full item.toBodySection
    rw [partialOf_partialText offset count] at range
    refine ⟨item, whole, parsed, given, ?_⟩
    rw [same]
    exact exact_iff range

/-- The letters of ASCII, and one that has two octets in upper case and three in lower case. -/
def sampleLetters : Letters where
  upper c := if c = 'ⱥ' then 'Ⱥ' else c.toUpper
  lower c := if c = 'Ⱥ' then 'ⱥ' else c.toLower
  marks c mark is := by
    have low : mark.val.toNat < 65 := by rcases is with rfl | rfl | rfl <;> decide
    have other : mark ≠ 'Ⱥ' ∧ mark ≠ 'ⱥ' := by rcases is with rfl | rfl | rfl <;> decide
    split
    · rename_i special
      exact ⟨fun same => absurd same.symm other.2, fun same => absurd (same ▸ special) other.1⟩
    unfold Char.toLower
    split
    · rename_i upper
      have bounds : 65 ≤ c.val.toNat ∧ c.val.toNat ≤ 90 := ⟨upper.1, upper.2⟩
      refine ⟨fun same => ?_, fun same => ?_⟩
      · have codes := congrArg (fun d : Char => d.val.toNat) same
        have shift : ('a'.val - 'A'.val).toNat = 32 := by decide
        simp only [UInt32.toNat_add, shift] at codes
        omega
      · rw [← same] at low
        omega
    · rfl

def noParts : Bytes → Part × Bool := fun _ => (.mk {} [], false)

/-- The second and third octet of three. -/
theorem partial_in_range : ∃ item whole,
    parseBodySection sampleLetters (ascii "body[]<1.2>") = .ok (some item) ∧
      Exact whole 1 2
        (extractSection (sampleLetters.library noParts) [97, 98, 99] item.toBodySection) := by
  obtain ⟨item, whole, parsed, _, exact_⟩ := (slices_in_range_iff sampleLetters noParts).2.2.2.2.1
    [97, 98, 99] (ascii "body[]<1.2>") { text := "BODY[" } [] [49] [50] 1 2 rfl (spells_decimal 1)
    (spells_decimal 2)
  exact ⟨item, whole, parsed, exact_.mpr ⟨by decide, by decide, .inl ⟨by decide, by decide⟩⟩⟩

/-- A negative offset, and a name that is longer in lower case than in the message. -/
theorem slices_out_of_range :
    (∃ item, parseBodySection sampleLetters (ascii "BODY[]<-1.5>") = .ok (some item) ∧
      extractSection (sampleLetters.library noParts) [97] item.toBodySection = .error (-1)) ∧
    messageHeaderValue sampleLetters [0xC8, 0xBA, 58, 13, 10] [0xC8, 0xBA] = .error 4 :=
  ⟨⟨_, rfl, rfl⟩, rfl⟩

end OctoMail.Imap.Slicing
