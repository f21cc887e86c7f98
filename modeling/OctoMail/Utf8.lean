import Mathlib.Data.List.DropRight

/-!
# Octets read as UTF-8

A text is octets, and a reader goes through it character by character. An octet with which no
character begins is passed over alone and counts as the replacement character. Both kinds of
pieces together are the text again, so a fact about texts can be shown from the front, one piece
at a time (`reading`).

A text is valid if it has no stray octet, which is to say that it is the octets of some characters.
-/

namespace OctoMail.Utf8

open List

abbrev Bytes := List UInt8

abbrev encode (c : Char) : Bytes := String.utf8EncodeChar c

/-- The character that a text begins with. -/
def front? (text : Bytes) : Option Char := text.toByteArray.utf8DecodeChar? 0

theorem front?_encode (c : Char) (rest : Bytes) : front? (encode c ++ rest) = some c := by
  rw [front?, toByteArray_append, ByteArray.utf8DecodeChar?_utf8EncodeChar_append]

variable {c : Char} {text instead : Bytes} {o : UInt8}

theorem exists_of_front? (found : front? text = some c) : ∃ rest, text = encode c ++ rest := by
  obtain ⟨rest, shape⟩ := ByteArray.exists_of_utf8DecodeChar?_eq_some found
  have list : rest = rest.data.toList.toByteArray := by
    apply ByteArray.ext
    rw [data_toByteArray, Array.toArray_toList]
  rw [list, ← toByteArray_append, toByteArray_inj] at shape
  exact ⟨_, shape⟩

theorem length_encode (c : Char) : (encode c).length = c.utf8Size := String.length_utf8EncodeChar c

theorem encode_ne_nil (c : Char) : encode c ≠ [] := by
  apply ne_nil_of_length_pos
  rw [length_encode]
  exact c.utf8Size_pos

/-- A character, or an octet with which none begins. -/
inductive Piece where
  | char (c : Char)
  | stray (o : UInt8)
deriving DecidableEq, Repr

def Piece.octets : Piece → Bytes
  | char c => encode c
  | stray o => [o]

def replacement : Char := '\uFFFD'

/-- What a loop over the characters of a text sees. -/
def Piece.rune : Piece → Char
  | char c => c
  | stray _ => replacement

/-- The pieces of a text of which some octets belong to the piece before. -/
def piecesAfter : Nat → Bytes → List Piece
  | _, [] => []
  | within + 1, _ :: rest => piecesAfter within rest
  | 0, o :: rest =>
      match front? (o :: rest) with
      | some c => .char c :: piecesAfter (c.utf8Size - 1) rest
      | none => .stray o :: piecesAfter 0 rest

def pieces (text : Bytes) : List Piece := piecesAfter 0 text

example : pieces [0x61, 0xC3, 0xA9, 0xC3] = [.char 'a', .char 'é', .stray 0xC3] := by decide

def octets (pieces : List Piece) : Bytes := pieces.flatMap Piece.octets

theorem octets_cons (piece : Piece) (more : List Piece) :
    octets (piece :: more) = piece.octets ++ octets more := flatMap_cons

theorem octets_append (first second : List Piece) :
    octets (first ++ second) = octets first ++ octets second := flatMap_append ..

theorem piecesAfter_drop (within : Nat) (text : Bytes) :
    piecesAfter within text = pieces (text.drop within) := by
  induction text generalizing within with
  | nil => cases within <;> rfl
  | cons o rest ih =>
    cases within with
    | zero => rfl
    | succ within => exact ih within

@[simp] theorem pieces_nil : pieces [] = [] := rfl

@[simp] theorem pieces_encode (c : Char) (rest : Bytes) :
    pieces (encode c ++ rest) = .char c :: pieces rest := by
  obtain ⟨o, more, shape⟩ := exists_cons_of_ne_nil (encode_ne_nil c)
  have found := front?_encode c rest
  have size := length_encode c
  rw [shape] at found size ⊢
  rw [cons_append] at found ⊢
  rw [pieces, piecesAfter, found]
  simp only [piecesAfter_drop]
  rw [← size, length_cons, Nat.add_sub_cancel, drop_left]

theorem pieces_stray {rest : Bytes} (none_ : front? (o :: rest) = none) :
    pieces (o :: rest) = .stray o :: pieces rest := by
  rw [pieces, piecesAfter, none_]
  rfl

/-- A text is read from the front, one piece at a time. -/
@[elab_as_elim]
theorem reading {motive : Bytes → Prop} (nil : motive [])
    (char : ∀ c rest, motive rest → motive (encode c ++ rest))
    (stray : ∀ o rest, front? (o :: rest) = none → motive rest → motive (o :: rest))
    (text : Bytes) : motive text := by
  induction length : text.length using Nat.strongRecOn generalizing text with
  | _ _ ih =>
    subst length
    cases found : front? text with
    | some c =>
      obtain ⟨rest, rfl⟩ := exists_of_front? found
      refine char c rest (ih _ ?_ rest rfl)
      have positive := length_pos_of_ne_nil (encode_ne_nil c)
      rw [length_append]
      omega
    | none =>
      cases text with
      | nil => exact nil
      | cons o rest =>
        exact stray o rest found (ih _ (Nat.lt_succ_self _) rest rfl)

/-- The pieces put together are the text. -/
theorem octets_pieces (text : Bytes) : octets (pieces text) = text := by
  induction text using reading with
  | nil => rfl
  | char c _ ih =>
    rw [pieces_encode, octets_cons]
    exact congrArg (encode c ++ ·) ih
  | stray o _ none_ ih =>
    rw [pieces_stray none_, octets_cons]
    exact congrArg (o :: ·) ih

theorem length_pieces_le (text : Bytes) : (pieces text).length ≤ text.length := by
  induction text using reading with
  | nil => exact Nat.le_refl 0
  | char c =>
    have positive := length_pos_of_ne_nil (encode_ne_nil c)
    rw [pieces_encode, length_cons, length_append]
    omega
  | stray _ _ none_ ih =>
    rw [pieces_stray none_]
    exact Nat.succ_le_succ ih

/-! ### Where a text can be cut -/

theorem not_lt_ofNat {n : Nat} (high : 128 ≤ n) (small : n < 256) : ¬ UInt8.ofNat n < 128 := by
  rw [UInt8.lt_iff_toNat_lt, UInt8.toNat_ofNat_of_lt' small]
  exact Nat.not_lt.mpr high

/-- An octet of ASCII is a character of its own. -/
theorem encode_of_mem (inside : o ∈ encode c) (ascii : o < 128) : encode c = [o] := by
  have high : ∀ n, 128 ≤ n → n < 256 → o ≠ UInt8.ofNat n := by
    rintro n high small rfl
    exact not_lt_ofNat high small ascii
  unfold encode String.utf8EncodeChar at inside ⊢
  simp only at inside ⊢
  split at inside
  · rename_i single
    rw [if_pos single, mem_singleton.mp inside]
  exfalso
  split at inside
  · simp only [mem_cons, not_mem_nil, or_false] at inside
    rcases inside with same | same
    · exact high _ (by omega) (by omega) same
    · exact high _ (by omega) (by omega) same
  · split at inside
    · simp only [mem_cons, not_mem_nil, or_false] at inside
      rcases inside with same | same | same
      · exact high _ (by omega) (by omega) same
      · exact high _ (by omega) (by omega) same
      · exact high _ (by omega) (by omega) same
    · simp only [mem_cons, not_mem_nil, or_false] at inside
      rcases inside with same | same | same | same
      · exact high _ (by omega) (by omega) same
      · exact high _ (by omega) (by omega) same
      · exact high _ (by omega) (by omega) same
      · exact high _ (by omega) (by omega) same

theorem toNat_of_encode (single : encode c = [o]) : c.toNat = o.toNat := by
  have size : c.utf8Size = 1 := by rw [← length_encode, single, length_singleton]
  have small := Char.utf8Size_eq_one_iff.mp size
  unfold encode at single
  rw [String.utf8EncodeChar_eq_singleton size] at single
  rw [← singleton_inj.mp single, UInt32.toNat_toUInt8]
  exact (Nat.mod_eq_of_lt (Nat.lt_of_le_of_lt (UInt32.le_iff_toNat_le.mp small) (by decide))).symm

theorem front?_eq_none : front? text = none ↔ ∀ c, ¬ encode c <+: text := by
  constructor
  · rintro none_ c ⟨rest, rfl⟩
    rw [front?_encode] at none_
    cases none_
  · intro apart
    cases found : front? text with
    | none => rfl
    | some c =>
      obtain ⟨rest, rfl⟩ := exists_of_front? found
      exact absurd (prefix_append _ _) (apart c)

/-- A text is cut at an octet of ASCII. -/
theorem pieces_ascii {c : Char} {o : UInt8} (single : encode c = [o]) (ascii : o < 128)
    (front rest : Bytes) :
    pieces (front ++ o :: rest) = pieces front ++ .char c :: pieces rest := by
  induction front using reading with
  | nil =>
    have here := pieces_encode c rest
    rwa [single] at here
  | char _ _ ih =>
    rw [append_assoc, pieces_encode, pieces_encode, ih]
    rfl
  | stray x more none_ ih =>
    have still : front? (x :: (more ++ o :: rest)) = none := by
      rw [front?_eq_none] at none_ ⊢
      intro d begins
      -- The character ends before the octet, or else the octet is in it.
      rcases Nat.lt_or_ge (x :: more).length (encode d).length with long | short
      · have inside : o ∈ encode d := by
          have before : (x :: more) ++ [o] <+: encode d := by
            refine prefix_of_prefix_length_le ⟨rest, ?_⟩ begins ?_
            · simp
            · rw [length_append]
              exact long
          exact before.subset (mem_append_right _ mem_cons_self)
        rw [encode_of_mem inside ascii] at long
        simp at long
      · exact none_ d (prefix_of_prefix_length_le begins ⟨o :: rest, rfl⟩ short)
    rw [cons_append, pieces_stray still, pieces_stray none_, ih]
    rfl

/-- The first pieces of a text are those of the octets they are made of. -/
theorem pieces_octets : ∀ {front back : List Piece}, pieces text = front ++ back →
    pieces (octets front) = front ∧ text = octets front ++ octets back := by
  intro front back shape
  refine ⟨?_, ?_⟩
  · induction text using reading generalizing front with
    | nil =>
      obtain ⟨rfl, _⟩ := append_eq_nil_iff.mp shape.symm
      rfl
    | char _ _ ih =>
      cases front with
      | nil => rfl
      | cons piece front =>
        rw [pieces_encode, cons_append] at shape
        obtain ⟨rfl, later⟩ := List.cons.inj shape
        rw [octets_cons, Piece.octets, pieces_encode]
        exact congrArg _ (ih later)
    | stray o rest none_ ih =>
      cases front with
      | nil => rfl
      | cons piece front =>
        rw [pieces_stray none_, cons_append] at shape
        obtain ⟨rfl, later⟩ := List.cons.inj shape
        have whole : rest = octets front ++ octets back := by
          rw [← octets_append, ← later, octets_pieces]
        have still : front? (o :: octets front) = none := by
          rw [front?_eq_none] at none_ ⊢
          intro c begins
          rw [whole] at none_
          exact none_ c (begins.trans ⟨octets back, rfl⟩)
        rw [octets_cons, Piece.octets, singleton_append, pieces_stray still]
        exact congrArg _ (ih later)
  · rw [← octets_append, ← shape, octets_pieces]

/-! ### Valid texts -/

def Piece.isChar : Piece → Bool
  | char _ => true
  | stray _ => false

/-- `utf8.Valid`. -/
def valid (text : Bytes) : Bool := (pieces text).all Piece.isChar

def encodeAll (chars : List Char) : Bytes := chars.flatMap encode

theorem pieces_encodeAll (chars : List Char) (rest : Bytes) :
    pieces (encodeAll chars ++ rest) = chars.map Piece.char ++ pieces rest := by
  induction chars with
  | nil => rfl
  | cons c chars ih =>
    rw [encodeAll, flatMap_cons, append_assoc, pieces_encode]
    exact congrArg (Piece.char c :: ·) ih

theorem prefix_of_encodeAll {chars others : List Char} {rest : Bytes}
    (shape : encodeAll others = encodeAll chars ++ rest) : chars <+: others := by
  have read := pieces_encodeAll others []
  rw [append_nil, pieces_nil, append_nil, shape, pieces_encodeAll] at read
  have before : chars.map Piece.char <+: others.map Piece.char := ⟨_, read⟩
  exact (prefix_map_iff_of_injective fun _ _ => Piece.char.inj).mp before

/-- The valid texts are those of characters. -/
theorem valid_iff : valid text = true ↔ ∃ chars, text = encodeAll chars := by
  constructor
  · intro all
    induction text using reading with
    | nil => exact ⟨[], rfl⟩
    | char c _ ih =>
      rw [valid, pieces_encode, all_cons, Bool.and_eq_true] at all
      obtain ⟨chars, rfl⟩ := ih all.2
      exact ⟨c :: chars, rfl⟩
    | stray _ _ none_ =>
      rw [valid, pieces_stray none_] at all
      cases all
  · rintro ⟨chars, rfl⟩
    have read := pieces_encodeAll chars []
    rw [append_nil, pieces_nil, append_nil] at read
    rw [valid, read, all_map]
    exact all_eq_true.mpr fun _ _ => rfl

theorem valid_append {first second : Bytes} (left : valid first = true)
    (right : valid second = true) : valid (first ++ second) = true := by
  obtain ⟨chars, rfl⟩ := valid_iff.mp left
  obtain ⟨more, rfl⟩ := valid_iff.mp right
  exact valid_iff.mpr ⟨chars ++ more, (flatMap_append ..).symm⟩

/-- `strings.ToValidUTF8`, from a position that may stand behind a stray octet: each run of stray
octets is replaced once. -/
def mend (instead : Bytes) : Bool → List Piece → Bytes
  | _, [] => []
  | _, .char c :: more => encode c ++ mend instead false more
  | true, .stray _ :: more => mend instead true more
  | false, .stray _ :: more => instead ++ mend instead true more

def toValid (instead text : Bytes) : Bytes := mend instead false (pieces text)

example : toValid [0x20] [0x61, 0xFF, 0xFE, 0x62, 0xC3] = [0x61, 0x20, 0x62, 0x20] := by decide

theorem valid_mend (sound : valid instead = true) (invalid : Bool)
    {read : List Piece} : valid (mend instead invalid read) = true := by
  fun_induction mend instead invalid read with
  | case1 => rfl
  | case2 _ c _ ih =>
    exact valid_append (valid_iff.mpr ⟨[c], (append_nil _).symm⟩) ih
  | case3 _ _ ih => exact ih
  | case4 _ _ ih => exact valid_append sound ih

theorem valid_toValid (sound : valid instead = true) {text : Bytes} :
    valid (toValid instead text) = true := valid_mend sound false

/-- A replacement of one octet at most does not make a text longer. -/
theorem length_mend_le (short : instead.length ≤ 1) (invalid : Bool)
    (read : List Piece) : (mend instead invalid read).length ≤ (octets read).length := by
  fun_induction mend instead invalid read with
  | case1 => exact Nat.zero_le _
  | case2 _ _ _ ih =>
    simpa [octets, Piece.octets] using ih
  | case3 _ _ ih =>
    exact Nat.le_trans ih (by simp [octets, Piece.octets])
  | case4 _ _ ih =>
    simp only [octets, Piece.octets, flatMap_cons, length_append, length_singleton]
      at ih ⊢
    omega

theorem length_toValid_le (short : instead.length ≤ 1) {text : Bytes} :
    (toValid instead text).length ≤ text.length := by
  have shorter := length_mend_le short false (pieces text)
  rwa [octets_pieces] at shorter

theorem mem_toValid (inside : o ∈ toValid instead text) : o ∈ text ∨ o ∈ instead := by
  have general : ∀ invalid read, o ∈ mend instead invalid read → o ∈ octets read ∨ o ∈ instead := by
    intro invalid read
    fun_induction mend instead invalid read with
    | case1 => exact fun none_ => absurd none_ not_mem_nil
    | case2 _ _ _ ih =>
      intro member
      rcases mem_append.mp member with here | later
      · exact .inl (mem_append_left _ here)
      · exact (ih later).imp_left (mem_append_right _)
    | case3 _ _ ih =>
      exact fun member => (ih member).imp_left (mem_append_right _)
    | case4 _ _ ih =>
      intro member
      rcases mem_append.mp member with here | later
      · exact .inr here
      · exact (ih later).imp_left (mem_append_right _)
  have found := general false (pieces text) inside
  rwa [octets_pieces] at found

theorem toValid_of_valid (sound : valid text = true) : toValid instead text = text := by
  have general : ∀ read : List Piece, read.all Piece.isChar = true →
      mend instead false read = octets read := by
    intro read
    induction read with
    | nil => exact fun _ => rfl
    | cons piece more ih =>
      intro all
      rw [all_cons, Bool.and_eq_true] at all
      cases piece with
      | char c => exact congrArg (encode c ++ ·) (ih all.2)
      | stray => cases all.1
  exact (general _ sound).trans (octets_pieces text)

/-! ### Characters mapped, and white space -/

/-- `strings.Map`, for a function that keeps every character a character. -/
def mapRunes (f : Char → Char) (text : Bytes) : Bytes :=
  encodeAll ((pieces text).map (fun piece => f piece.rune))

/-- `unicode.IsSpace`. -/
def isSpace (c : Char) : Bool :=
  let n := c.toNat
  (9 ≤ n && n ≤ 13) || n == 32 || n == 0x85 || n == 0xA0 || n == 0x1680 ||
    (0x2000 ≤ n && n ≤ 0x200A) || n == 0x2028 || n == 0x2029 || n == 0x202F || n == 0x205F ||
    n == 0x3000

def Piece.isSpace (piece : Piece) : Bool := Utf8.isSpace piece.rune

/-- `strings.TrimSpace`. -/
def trimSpace (text : Bytes) : Bytes :=
  octets (((pieces text).dropWhile Piece.isSpace).rdropWhile Piece.isSpace)

/-- `strings.Fields`. -/
def fields (text : Bytes) : List Bytes :=
  (((pieces text).splitOnP Piece.isSpace).filter (· != [])).map octets

end OctoMail.Utf8
