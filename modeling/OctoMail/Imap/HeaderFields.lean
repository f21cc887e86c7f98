import Mathlib.Data.List.Infix
import OctoMail.Imap.Sections

/-!
# Header fields of a message

HEADER.FIELDS and HEADER.FIELDS.NOT are for complete fields: the line that names one and the
lines it is folded over. `extractHeaderFields` sorts the lines of a header one by one, each by
the text before its first colon, so the lines of one field can be parted.

A message here is a header of fields and, behind an empty line, a body. Of Go's functions on
text it is assumed what they do with field names, which are visible ASCII.
-/

namespace OctoMail.Imap.HeaderFields

open List Wire

def colon : UInt8 := 58

/-! ### Messages -/

/-- A text with no line end in it. -/
def Unbroken (text : Bytes) : Prop := ¬ [cr, lf] <:+: text

instance (text : Bytes) : Decidable (Unbroken text) :=
  inferInstanceAs (Decidable (¬ [cr, lf] <:+: text))

/-- A field name: visible ASCII other than the colon. -/
def Name (name : Bytes) : Prop := name ≠ [] ∧ ∀ o ∈ name, 33 ≤ o ∧ o ≤ 126 ∧ o ≠ colon

instance (name : Bytes) : Decidable (Name name) := inferInstanceAs (Decidable (_ ∧ _))

/-- A field with the lines that it is folded over. -/
structure HeaderField where
  name : Bytes
  value : Bytes
  folded : List Bytes
  named : Name name
  unbroken : Unbroken (name ++ colon :: value)
  continues : ∀ line ∈ folded, Unbroken line ∧ (line.head? = some space ∨ line.head? = some 9)

def HeaderField.first (field : HeaderField) : Bytes := field.name ++ colon :: field.value

def HeaderField.lines (field : HeaderField) : List Bytes := field.first :: field.folded

/-- Lines with their ends. -/
def unlines (lines : List Bytes) : Bytes := lines.flatMap (· ++ [cr, lf])

structure Message where
  fields : List HeaderField
  body : Option Bytes

def Message.lines (m : Message) : List Bytes := m.fields.flatMap HeaderField.lines

def Message.text (m : Message) : Bytes :=
  unlines m.lines ++ m.body.elim [] (fun body => [cr, lf] ++ body)

/-! ### What is asked for -/

def lower (text : Bytes) : Bytes := text.map (fun o => if 65 ≤ o ∧ o ≤ 90 then o + 32 else o)

/-- The name is among those of a list, up to case. -/
def listed (names : List Bytes) (name : Bytes) : Bool := (names.map lower).contains (lower name)

/-- The fields named, or the others, and an empty line. -/
def answer (names : List Bytes) (exclude : Bool) (fields : List HeaderField) : Bytes :=
  unlines ((fields.filter (fun field => listed names field.name != exclude)).flatMap
    HeaderField.lines) ++ [cr, lf]

/-- A field name that is asked for, written in quotes or not. -/
structure Asked where
  name : Bytes
  quoted : Bool := false
  named : Name name

def Asked.word (asked : Asked) : Bytes :=
  if asked.quoted then 34 :: (asked.name ++ [34]) else asked.name

theorem Asked.word_name (asked : Asked) : Name asked.word := by
  unfold word
  split
  · simpa [Name, or_imp, forall_and, colon] using asked.named.2
  · exact asked.named

/-- BODY[HEADER.FIELDS (..)] and BODY[HEADER.FIELDS.NOT (..)]. -/
def fieldsSection (library : Library) (names : List Bytes) (exclude : Bool) : BodySection :=
  let item := (if exclude then ascii "HEADER.FIELDS.NOT (" else ascii "HEADER.FIELDS (") ++
    [space].intercalate names ++ [closeParen]
  { spec := library.toUpper item, raw := ascii "BODY[" ++ item ++ ascii "]" }

/-- What `strings` does with the texts of a request and with field names. -/
structure Letters (library : Library) : Prop where
  toLower : ∀ name, Name name → library.toLower name = lower name
  trimSpace : ∀ name, Name name → library.trimSpace name = name
  fields : ∀ names, (∀ name ∈ names, Name name) → library.fields ([space].intercalate names) = names
  toUpper : ∀ text rest, (∀ o ∈ text, o < 97) → library.toUpper (text ++ rest) =
    text ++ library.toUpper rest

/-! ### Lines -/

theorem cr_ne_lf : cr ≠ lf := by decide

theorem not_begins_lineEnd {line rest : Bytes} (unbroken : Unbroken line) (some_ : line ≠ []) :
    [cr, lf].isPrefixOf (line ++ cr :: rest) = false := by
  rcases line with _ | ⟨o, _ | ⟨o', line⟩⟩
  · exact absurd rfl some_
  · simp [List.isPrefixOf, cr_ne_lf.symm]
  · refine Bool.eq_false_iff.mpr fun found => unbroken ?_
    simp only [cons_append, List.isPrefixOf, Bool.and_eq_true, beq_iff_eq] at found
    obtain ⟨rfl, rfl, _⟩ := found
    exact ⟨[], line, rfl⟩

theorem Unbroken.tail {o : UInt8} {line : Bytes} (unbroken : Unbroken (o :: line)) :
    Unbroken line := fun inside => unbroken (inside.trans (suffix_cons o line).isInfix)

variable {rest text : Bytes}

theorem splitLines_line (line : Bytes) : ∀ front : Bytes, Unbroken line →
    splitLines front (line ++ cr :: lf :: rest) = (front ++ line) :: splitLines [] rest := by
  induction line with
  | nil =>
    intro front _
    rw [nil_append, splitLines, if_pos ⟨rfl, rfl⟩, append_nil]
  | cons o line ih =>
    intro front unbroken
    have apart : ¬ [cr, lf].isPrefixOf (o :: (line ++ cr :: lf :: rest)) = true := by
      rw [← cons_append, not_begins_lineEnd unbroken (cons_ne_nil _ _)]
      exact Bool.false_ne_true
    have next := ih (front ++ [o]) unbroken.tail
    rw [append_assoc, singleton_append] at next
    cases line with
    | nil =>
      rw [nil_append] at apart next
      rw [cons_append, nil_append, splitLines, if_neg, next]
      rintro ⟨rfl, impossible⟩
      cases impossible
    | cons o' line =>
      rw [cons_append] at apart next
      rw [cons_append, cons_append, splitLines, if_neg, next]
      rintro ⟨rfl, rfl⟩
      exact apart rfl

theorem unlines_cons (line : Bytes) (lines : List Bytes) (rest : Bytes) :
    unlines (line :: lines) ++ rest = line ++ cr :: lf :: (unlines lines ++ rest) := by
  simp [unlines]

variable {lines : List Bytes}

theorem splitLines_unlines (unbroken : ∀ line ∈ lines, Unbroken line)
    (rest : Bytes) : splitLines [] (unlines lines ++ rest) = lines ++ splitLines [] rest := by
  induction lines with
  | nil => rfl
  | cons line lines ih =>
    rw [unlines_cons, splitLines_line line [] (unbroken line mem_cons_self),
      ih fun other member => unbroken other (.tail _ member)]
    rfl

/-- Lines are read back from their text. -/
theorem unlines_inj {others : List Bytes} (unbroken : ∀ line ∈ lines, Unbroken line)
    (unbroken' : ∀ line ∈ others, Unbroken line)
    (same : unlines lines ++ rest = unlines others ++ rest) : lines = others := by
  have split := congrArg (splitLines []) same
  rw [splitLines_unlines unbroken, splitLines_unlines unbroken'] at split
  exact append_cancel_right split

theorem unlines_eq_nil (empty : unlines lines = []) : lines = [] := by
  cases lines with
  | nil => rfl
  | cons line lines => simp [unlines] at empty

/-! ### The end of the header -/

theorem afterEmptyLine_line (rest : Bytes) : ∀ line : Bytes, Unbroken line →
    afterEmptyLine (line ++ cr :: lf :: rest) =
      if [cr, lf].isPrefixOf rest then some (rest.drop 2) else afterEmptyLine rest := by
  intro line
  induction line with
  | nil =>
    intro _
    rw [nil_append, afterEmptyLine]
    have here : emptyLine.isPrefixOf (cr :: lf :: rest) = [cr, lf].isPrefixOf rest := by
      simp [emptyLine, List.isPrefixOf]
    rw [here, drop_succ_cons]
    refine if_congr Iff.rfl rfl ?_
    rw [afterEmptyLine, if_neg]
    simp [emptyLine, List.isPrefixOf, cr_ne_lf]
  | cons o line ih =>
    intro unbroken
    have apart := @not_begins_lineEnd _ (lf :: rest) unbroken (cons_ne_nil _ _)
    rw [cons_append, afterEmptyLine, if_neg, ih unbroken.tail]
    intro found
    refine Bool.false_ne_true (apart.symm.trans ?_)
    refine isPrefixOf_iff_prefix.mpr (List.IsPrefix.trans ?_ (List.isPrefixOf_iff_prefix.mp found))
    exact ⟨[cr, lf], rfl⟩

/-- A line of a message: not empty and with no end in it. -/
def Line (line : Bytes) : Prop := line ≠ [] ∧ Unbroken line

theorem HeaderField.isLine {field : HeaderField} : ∀ line ∈ field.lines, Line line := by
  intro line member
  rcases mem_cons.mp member with rfl | later
  · exact ⟨by simp [HeaderField.first], field.unbroken⟩
  · obtain ⟨unbroken, start⟩ := field.continues line later
    refine ⟨?_, unbroken⟩
    rintro rfl
    simp at start

theorem Message.isLine (m : Message) : ∀ line ∈ m.lines, Line line := by
  intro line member
  obtain ⟨field, _, inside⟩ := mem_flatMap.mp member
  exact HeaderField.isLine line inside

/-- The first empty line is the one behind the lines. -/
theorem afterEmptyLine_unlines (are : ∀ line ∈ lines, Line line)
    (some_ : lines ≠ []) (rest : Bytes) :
    afterEmptyLine (unlines lines ++ rest) =
      if [cr, lf].isPrefixOf rest then some (rest.drop 2) else afterEmptyLine rest := by
  induction lines with
  | nil => exact absurd rfl some_
  | cons line lines ih =>
    rw [unlines_cons, afterEmptyLine_line _ line (are line mem_cons_self).2]
    cases lines with
    | nil => rfl
    | cons next lines =>
      have later := are next (.tail _ mem_cons_self)
      have apart : [cr, lf].isPrefixOf (unlines (next :: lines) ++ rest) = false := by
        rw [unlines_cons]
        exact not_begins_lineEnd later.2 later.1
      rw [apart]
      exact ih (fun other member => are other (.tail _ member))
        (cons_ne_nil _ _)

theorem take_indexHeaderEnd {full front rest : Bytes} (shape : full = front ++ rest)
    (found : afterEmptyLine full = some rest) : full.take (indexHeaderEnd full) = front := by
  rw [indexHeaderEnd, found, Option.elim_some, shape, length_append, Nat.add_sub_cancel,
    take_left]

theorem take_indexHeaderEnd_none {full : Bytes} (missing : afterEmptyLine full = none) :
    full.take (indexHeaderEnd full) = full := by
  rw [indexHeaderEnd, missing, Option.elim_none, take_length]

/-- The lines of a header that has fields. -/
theorem header_lines (m : Message) (some_ : m.fields ≠ []) :
    (splitLines [] (m.text.take (indexHeaderEnd m.text))).filter (· != []) = m.lines := by
  have are := m.isLine
  have lines : m.lines ≠ [] := by
    obtain ⟨field, fields, shape⟩ := exists_cons_of_ne_nil some_
    simp [Message.lines, shape, HeaderField.lines]
  have whole : m.lines.filter (· != []) = m.lines :=
    filter_eq_self.mpr fun line member => bne_iff_ne.mpr (are line member).1
  have unbroken : ∀ line ∈ m.lines, Unbroken line := fun line member => (are line member).2
  rcases body : m.body with _ | content
  · have text : m.text = unlines m.lines ++ [] := by rw [Message.text, body, Option.elim_none]
    have missing : afterEmptyLine m.text = none := by
      rw [text, afterEmptyLine_unlines are lines]
      rfl
    rw [take_indexHeaderEnd_none missing, text, splitLines_unlines unbroken, filter_append,
      whole]
    exact append_nil _
  · have text : m.text = unlines m.lines ++ ([cr, lf] ++ content) := by
      rw [Message.text, body, Option.elim_some]
    have found : afterEmptyLine m.text = some content := by
      rw [text, afterEmptyLine_unlines are lines]
      simp [List.isPrefixOf]
    rw [take_indexHeaderEnd (text.trans (append_assoc _ _ _).symm) found,
      splitLines_unlines unbroken, filter_append, whole]
    have rest : (splitLines [] [cr, lf]).filter (· != []) = [] := by decide
    rw [rest, append_nil]

/-! ### A header without fields -/

/-- The body of a message without fields that is not taken for its header. -/
def Harmless (body : Option Bytes) : Prop :=
  ∀ content, body = some content → content = [] ∨ [cr, lf].isPrefixOf content = true

theorem splitLines_begun {front : Bytes} (some_ : front ≠ []) :
    ∃ line ∈ splitLines front text, line ≠ [] := by
  fun_induction splitLines front text with
  | case1 front => exact ⟨front, mem_singleton_self _, some_⟩
  | case2 front o => exact ⟨front ++ [o], mem_singleton_self _, by simp⟩
  | case3 front => exact ⟨front, mem_cons_self, some_⟩
  | case4 _ _ _ _ _ ih => exact ih (by simp)

theorem splitLines_some (some_ : text ≠ []) (apart : [cr, lf].isPrefixOf text = false) :
    ∃ line ∈ splitLines [] text, line ≠ [] := by
  rcases text with _ | ⟨o, _ | ⟨o', rest⟩⟩
  · exact absurd rfl some_
  · exact ⟨[o], mem_singleton_self _, cons_ne_nil _ _⟩
  · rw [splitLines, if_neg]
    · exact splitLines_begun (by simp)
    · rintro ⟨rfl, rfl⟩
      cases apart

theorem afterEmptyLine_shorter {data : Bytes} (found : afterEmptyLine data = some rest) :
    rest.length < data.length := by
  induction data with
  | nil => cases found
  | cons o more ih =>
    rw [afterEmptyLine] at found
    split at found
    · cases found
      simp only [length_drop, length_cons]
      omega
    · have shorter := ih found
      rw [length_cons]
      omega

theorem header_lines_nil (m : Message) (none_ : m.fields = []) :
    (splitLines [] (m.text.take (indexHeaderEnd m.text))).filter (· != []) = [] ↔
      Harmless m.body := by
  have lines : m.lines = [] := by rw [Message.lines, none_, flatMap_nil]
  rcases body : m.body with _ | content
  · have text : m.text = [] := by rw [Message.text, lines, body]; rfl
    rw [text]
    exact ⟨fun _ content same => (by cases same), fun _ => by decide⟩
  · have text : m.text = [] ++ cr :: lf :: content := by rw [Message.text, lines, body]; rfl
    have past := afterEmptyLine_line content [] (fun inside => by simpa using inside.length_le)
    rw [← text] at past
    by_cases starts : [cr, lf].isPrefixOf content = true
    · obtain ⟨rest, rfl⟩ := isPrefixOf_iff_prefix.mp starts
      rw [if_pos starts] at past
      rw [@take_indexHeaderEnd _ [cr, lf, cr, lf] _ text past]
      refine ⟨fun _ other same => .inr ?_, fun _ => by decide⟩
      cases same
      exact starts
    rw [if_neg starts] at past
    by_cases empty : content = []
    · subst empty
      rw [take_indexHeaderEnd_none past, text]
      refine ⟨fun _ other same => .inl (Option.some.inj same).symm, fun _ => by decide⟩
    -- The first line of the content is taken for a line of the header.
    have kept : ∃ front, front ≠ [] ∧ front <+: content ∧
        m.text.take (indexHeaderEnd m.text) = cr :: lf :: front := by
      rcases found : afterEmptyLine content with _ | rest
      · rw [found] at past
        refine ⟨content, empty, prefix_rfl, ?_⟩
        rw [take_indexHeaderEnd_none past, text]
        rfl
      · have shorter := afterEmptyLine_shorter found
        have place : indexHeaderEnd m.text = content.length - rest.length + 2 := by
          rw [indexHeaderEnd, past, found, Option.elim_some, text]
          simp only [nil_append, length_cons]
          omega
        refine ⟨content.take (content.length - rest.length), ?_, take_prefix _ _, ?_⟩
        · intro nothing
          have length := congrArg List.length nothing
          rw [length_take, length_nil] at length
          omega
        · rw [place, text]
          rfl
    obtain ⟨front, some_, within_, header⟩ := kept
    have apart : [cr, lf].isPrefixOf front = false := by
      refine Bool.eq_false_iff.mpr fun here => starts ?_
      exact isPrefixOf_iff_prefix.mpr ((List.isPrefixOf_iff_prefix.mp here).trans within_)
    obtain ⟨line, member, filled⟩ := splitLines_some some_ apart
    refine ⟨fun nothing => ?_, fun harmless => ?_⟩
    · rw [header, splitLines, if_pos ⟨rfl, rfl⟩, filter_eq_nil_iff] at nothing
      exact absurd (bne_iff_ne.mpr filled) (nothing line (.tail _ member))
    · exact absurd (harmless content rfl) (not_or.mpr ⟨empty, starts⟩)

/-! ### What is answered -/

/-- How a line is sorted: by what stands before its first colon. -/
def lineListed (library : Library) (names : List Bytes) (line : Bytes) : Bool :=
  (names.map library.toLower).contains
    (library.toLower (library.trimSpace (line.takeWhile (· != colon))))

theorem extractHeaderFields_raw (library : Library) {header : Bytes} {before : Bytes}
    (exclude : Bool) (plain : openParen ∉ before) :
    extractHeaderFields library header (before ++ openParen :: (text ++ [closeParen, 93])) exclude =
      unlines (((splitLines [] header).filter (· != [])).filter (fun line =>
        lineListed library (library.fields text) line != exclude)) ++ [cr, lf] := by
  have opening : (before ++ openParen :: (text ++ [closeParen, 93])).findIdx? (· == openParen) =
      some before.length := by
    have early : before.findIdx? (· == openParen) = none := by
      refine findIdx?_eq_none_iff.mpr fun o member => beq_false_of_ne ?_
      rintro rfl
      exact plain member
    rw [findIdx?_append, early, findIdx?_cons]
    simp
  have closing : (before ++ openParen :: (text ++ [closeParen, 93])).reverse.findIdx?
      (· == closeParen) = some 1 := by
    have bracket : ¬ (93 : UInt8) = closeParen := by decide
    simp [findIdx?_cons, bracket]
  have inside : ((before ++ openParen :: (text ++ [closeParen, 93])).take
      (before.length + text.length + 1)).drop (before.length + 1) = text := by
    have whole : before ++ openParen :: (text ++ [closeParen, 93]) =
        (before ++ [openParen]) ++ (text ++ [closeParen, 93]) := by simp
    have upTo : before.length + text.length + 1 = (before ++ [openParen]).length + text.length := by
      simp only [length_append, length_cons, length_nil]
      omega
    have from_ : before.length + 1 = (before ++ [openParen]).length := by simp
    rw [whole, upTo, from_, take_length_add_append, drop_left, take_left]
  have place : (before ++ openParen :: (text ++ [closeParen, 93])).length - 1 - 1 =
      before.length + text.length + 1 := by
    simp only [length_append, length_cons, length_nil]
    omega
  rw [extractHeaderFields, opening, closing]
  simp only [place]
  rw [if_neg (by omega), inside, filter_filter, unlines]
  refine congrArg (fun kept : List Bytes => kept.flatMap (· ++ [cr, lf]) ++ [cr, lf]) ?_
  exact filter_congr fun line _ => Bool.and_comm _ _

/-- The two names of a section, each up to its list. -/
theorem section_names : ascii "HEADER.FIELDS (" = ascii "HEADER.FIELDS" ++ [space, openParen] ∧
    ascii "HEADER.FIELDS.NOT (" = ascii "HEADER.FIELDS.NOT" ++ [space, openParen] ∧
    ascii "]" = [93] := by
  decide +kernel

section Answers

variable {library : Library} (letters : Letters library) {names : List Bytes}
  (proper : ∀ name ∈ names, Name name)

include letters

theorem extractSection_fields (full : Bytes) (exclude : Bool) :
    extractSection library full (fieldsSection library names exclude) =
      .ok (extractHeaderFields library (full.take (indexHeaderEnd full))
        (fieldsSection library names exclude).raw exclude) := by
  have kept : (fieldsSection library names exclude).range = none := rfl
  have octets : (fieldsSection library names exclude).binary = false := rfl
  rw [extractSection, octets, if_neg Bool.false_ne_true]
  simp only [applyPartial, kept]
  refine congrArg Except.ok ?_
  have common : ascii "HEADER.FIELDS" = [72, 69, 65, 68, 69, 82, 46, 70, 73, 69, 76, 68, 83] := by
    decide +kernel
  have others : ascii "HEADER" = [72, 69, 65, 68, 69, 82] ∧ ascii "TEXT" = [84, 69, 88, 84] := by
    decide +kernel
  have without : ascii "HEADER.FIELDS.NOT" = ascii "HEADER.FIELDS" ++ [46, 78, 79, 84] := by
    decide +kernel
  have spec : (fieldsSection library names exclude).spec =
      (if exclude then ascii "HEADER.FIELDS.NOT (" else ascii "HEADER.FIELDS (") ++
        library.toUpper ([space].intercalate names ++ [closeParen]) := by
    rw [← letters.toUpper _ _ (by cases exclude <;> decide +kernel), fieldsSection, append_assoc]
  rw [spec, section_names.1, section_names.2.1, without, others.1, others.2, common]
  cases exclude <;> simp [List.isPrefixOf, space]

include proper

/-- What is answered, for the lines that are taken for the header. -/
theorem extractSection_lines (full : Bytes) (exclude : Bool) :
    extractSection library full (fieldsSection library names exclude) =
      .ok (unlines (((splitLines [] (full.take (indexHeaderEnd full))).filter (· != [])).filter
        (fun line => lineListed library names line != exclude)) ++ [cr, lf]) := by
  rw [extractSection_fields letters]
  refine congrArg Except.ok ?_
  have raw : ∃ before, openParen ∉ before ∧ (fieldsSection library names exclude).raw =
      before ++ openParen :: ([space].intercalate names ++ [closeParen, 93]) := by
    cases exclude with
    | false =>
      exact ⟨ascii "BODY[" ++ ascii "HEADER.FIELDS" ++ [space], by decide +kernel,
        by simp [fieldsSection, section_names]⟩
    | true =>
      exact ⟨ascii "BODY[" ++ ascii "HEADER.FIELDS.NOT" ++ [space], by decide +kernel,
        by simp [fieldsSection, section_names]⟩
  obtain ⟨before, plain, raw⟩ := raw
  rw [raw, extractHeaderFields_raw library exclude plain, letters.fields names proper]

theorem lineListed_first (field : HeaderField) :
    lineListed library names field.first = listed names field.name := by
  have plain : ∀ o ∈ field.name, (o != colon) = true := fun o member =>
    bne_iff_ne.mpr (field.named.2 o member).2.2
  have before : field.first.takeWhile (· != colon) = field.name := by
    rw [HeaderField.first, takeWhile_append_of_pos plain]
    simp
  have lowered : names.map library.toLower = names.map lower :=
    map_congr_left fun name member => letters.toLower name (proper name member)
  rw [lineListed, before, letters.trimSpace _ field.named, letters.toLower _ field.named, lowered,
    listed]

theorem forall_lines_iff (field : HeaderField) {wanted : Bool} :
    (∀ line ∈ field.lines, lineListed library names line = wanted) ↔
      listed names field.name = wanted ∧
        ∀ line ∈ field.folded, lineListed library names line = wanted := by
  rw [← lineListed_first letters proper]
  exact forall_mem_cons

end Answers

variable {library : Library} {words names : List Bytes} {fields : List HeaderField}

/-- The lines sorted one by one are those of the fields that are asked for, if they are sorted as
their field is. -/
theorem filter_lines (whole : ∀ field ∈ fields,
    ∀ line ∈ field.lines, lineListed library words line = listed names field.name)
    (exclude : Bool) :
    (fields.flatMap HeaderField.lines).filter (fun line =>
      lineListed library words line != exclude) =
      (fields.filter (fun field => listed names field.name != exclude)).flatMap HeaderField.lines := by
  induction fields with
  | nil => rfl
  | cons field fields ih =>
    obtain ⟨each, others⟩ := forall_mem_cons.mp whole
    rw [flatMap_cons, filter_append, ih others, filter_cons,
      filter_congr fun line member => by rw [each line member]]
    cases listed names field.name != exclude <;> simp

/-- If both answers hold complete fields, the lines of a field are sorted alike. -/
theorem whole_of_answers
    (same : ∀ exclude : Bool, (fields.flatMap HeaderField.lines).filter
        (fun line => lineListed library words line != exclude) =
      (fields.filter (fun field => listed names field.name != exclude)).flatMap HeaderField.lines) :
    ∀ field ∈ fields, ∀ line ∈ field.lines,
      lineListed library words line = listed names field.name := by
  intro field member line inside
  -- The line belongs into the answer of its field.
  have chosen : line ∈ (fields.filter (fun other =>
      listed names other.name != !(listed names field.name))).flatMap HeaderField.lines := by
    refine mem_flatMap.mpr ⟨field, mem_filter.mpr ⟨member, ?_⟩, inside⟩
    cases listed names field.name <;> rfl
  rw [← same] at chosen
  have sorted := (mem_filter.mp chosen).2
  revert sorted
  cases lineListed library words line <;> cases listed names field.name <;> decide

theorem nil_of_filters {α : Type} {p : α → Bool} {found : List α}
    (first : found.filter (p · != false) = []) (second : found.filter (p · != true) = []) :
    found = [] := by
  refine eq_nil_iff_forall_not_mem.mpr fun line member => ?_
  have one := filter_eq_nil_iff.mp first line member
  have other := filter_eq_nil_iff.mp second line member
  revert one other
  cases p line <;> decide

/-- The two sections part the header into complete fields if and only if every field is listed as
the names are written, in quotes or not, when it is asked for, every continuation line, taken by
itself, is sorted as the field it belongs to, and no body is taken for a header. -/
theorem header_fields_split {library : Library} (letters : Letters library) (asked : List Asked)
    (m : Message) :
    (∀ exclude, extractSection library m.text
        (fieldsSection library (asked.map Asked.word) exclude) =
        .ok (answer (asked.map Asked.name) exclude m.fields)) ↔
      (∀ field ∈ m.fields,
        listed (asked.map Asked.word) field.name = listed (asked.map Asked.name) field.name ∧
        ∀ line ∈ field.folded, lineListed library (asked.map Asked.word) line =
          listed (asked.map Asked.name) field.name) ∧
      (m.fields = [] → Harmless m.body) := by
  have proper : ∀ word ∈ asked.map Asked.word, Name word :=
    forall_mem_map.mpr fun name _ => name.word_name
  simp only [extractSection_lines letters proper, answer, Except.ok.injEq,
    ← forall_lines_iff letters proper]
  by_cases none_ : m.fields = []
  · rw [← header_lines_nil m none_, none_]
    generalize (splitLines [] (m.text.take (indexHeaderEnd m.text))).filter (· != []) = found
    refine ⟨fun same => ⟨by simp, fun _ => ?_⟩, fun nothing exclude => ?_⟩
    · have missing : ∀ exclude, found.filter (fun line =>
        lineListed library (asked.map Asked.word) line != exclude) = [] := by
        intro exclude
        refine unlines_eq_nil (append_cancel_right (same exclude))
      exact nil_of_filters (missing false) (missing true)
    · rw [nothing.2 rfl]
      rfl
  · rw [header_lines m none_]
    have unbroken : ∀ line ∈ m.lines, Unbroken line := fun line member => (m.isLine line member).2
    refine ⟨fun same => ⟨whole_of_answers fun exclude => ?_, fun empty => absurd empty none_⟩,
      fun whole exclude => ?_⟩
    · refine unlines_inj (fun line member => unbroken line (mem_filter.mp member).1)
        (fun line member => ?_) (same exclude)
      obtain ⟨field, chosen, inside⟩ := mem_flatMap.mp member
      exact unbroken line (mem_flatMap.mpr ⟨field, (mem_filter.mp chosen).1, inside⟩)
    · rw [Message.lines, filter_lines whole.1]

/-! ### A folded subject -/

/-- `strings` on ASCII. -/
def asciiLibrary : Library where
  ensurePart := fun _ => (.mk {} [], false)
  sscan := fun _ => 0
  toUpper := List.map (fun o => if 97 ≤ o ∧ o ≤ 122 then o - 32 else o)
  toLower := lower
  trimSpace := fun text => ((text.dropWhile (· ≤ space)).reverse.dropWhile (· ≤ space)).reverse
  fields := fun text => (text.splitOn space).filter (· != [])

theorem asciiLibrary_letters : Letters asciiLibrary where
  toLower := fun _ _ => rfl
  trimSpace := by
    intro name named
    have solid : ∀ o ∈ name, ¬ (decide (o ≤ space) = true) := by
      intro o member blank
      have visible := (named.2 o member).1
      have small := of_decide_eq_true blank
      exact absurd (UInt8.le_trans visible small) (by decide)
    have start : ∀ text : Bytes, (∀ o ∈ text, ¬ (decide (o ≤ space) = true)) →
        text.dropWhile (· ≤ space) = text := by
      intro text solid
      cases text with
      | nil => rfl
      | cons o rest => exact dropWhile_cons_of_neg (solid o mem_cons_self)
    show ((name.dropWhile (· ≤ space)).reverse.dropWhile (· ≤ space)).reverse = name
    rw [start name solid, start _ fun o member => solid o (mem_reverse.mp member),
      reverse_reverse]
  fields := by
    intro names proper
    show (([space].intercalate names).splitOn space).filter (· != []) = names
    rcases names with _ | ⟨name, names⟩
    · rfl
    · rw [splitOn_intercalate]
      · exact filter_eq_self.mpr fun name member => bne_iff_ne.mpr (proper name member).1
      · intro name member blank
        exact absurd ((proper name member).2 space blank).1 (by decide)
      · exact cons_ne_nil _ _
  toUpper := by
    intro text rest small
    show List.map _ (text ++ rest) = text ++ List.map _ rest
    rw [map_append]
    refine congrArg (· ++ _) ((map_congr_left fun o member => if_neg ?_).trans text.map_id)
    rintro ⟨letter, _⟩
    exact absurd (small o member) (UInt8.not_lt.mpr letter)

/-- A subject that is folded, and the date behind it. -/
def foldedSubject : HeaderField where
  name := ascii "Subject"
  value := ascii " Minutes of"
  folded := [ascii " Monday"]
  named := by decide +kernel
  unbroken := by decide +kernel
  continues := by
    intro line member
    obtain rfl := mem_singleton.mp member
    decide +kernel

def foldedMail : Message := ⟨[foldedSubject], some (ascii "Hello")⟩

/-- The subject is cut at the end of its first line. -/
theorem folded_subject_cut :
    foldedMail.text = ascii "Subject: Minutes of\r\n Monday\r\n\r\nHello" ∧
      extractSection asciiLibrary foldedMail.text
          (fieldsSection asciiLibrary [ascii "subject"] false) =
        .ok (ascii "Subject: Minutes of\r\n\r\n") ∧
      answer [ascii "subject"] false foldedMail.fields =
        ascii "Subject: Minutes of\r\n Monday\r\n\r\n" := by
  decide +kernel

/-- A name in quotes that the message has no field of. -/
theorem header_fields_split_date :
    ∃ date : Asked, date.word = ascii "\"Date\"" ∧
      ∀ exclude, extractSection asciiLibrary foldedMail.text
          (fieldsSection asciiLibrary [date.word] exclude) =
        .ok (answer [date.name] exclude foldedMail.fields) := by
  refine ⟨⟨ascii "Date", true, by decide +kernel⟩, by decide +kernel,
    (header_fields_split asciiLibrary_letters [_] foldedMail).mpr ⟨?_, fun empty => ?_⟩⟩
  · intro field member
    obtain rfl := mem_singleton.mp member
    refine ⟨by decide +kernel, fun line later => ?_⟩
    obtain rfl := mem_singleton.mp later
    decide +kernel
  · cases empty

end OctoMail.Imap.HeaderFields
