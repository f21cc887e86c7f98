import OctoMail.Imap.Sets

/-!
# Lists of UIDs

VANISHED reports UIDs as a set: `compressUIDList` of `protocol/imapd/commands.go` collapses an
ascending list of decimal texts into ranges. The loop keeps one range open and flushes it when a
number does not continue it. `parseUIDSet` reads the set again, and keeps of each part the range
that was flushed.

The text of an empty list is empty. Read as a set, that is one part which is no number, and stands
for the range of zero alone.
-/

namespace OctoMail.Imap.UidLists

open List Sets

/-- `strconv.ParseUint(s, 10, 64)`. -/
def parseUint64 (text : String) : Option Nat :=
  let value := Nat.ofDigitChars 10 text.toList 0
  if text ≠ "" ∧ text.toList.all Char.isDigit ∧ value < 2 ^ 64 then some value else none

/-- `strconv.FormatUint(n, 10)`. -/
def formatUint (n : Nat) : String := String.ofList (Nat.toDigits 10 n)

def flush (range : Nat × Nat) : String :=
  if range.1 = range.2 then formatUint range.1
  else formatUint range.1 ++ ":" ++ formatUint range.2

/-- The ranges that are flushed when one is open and these numbers are left. -/
def collapse (start prev : Nat) : List Nat → List (Nat × Nat)
  | [] => [(start, prev)]
  | n :: rest =>
      if n = (prev + 1) % 2 ^ 64 then collapse start n rest
      else (start, prev) :: collapse n n rest

def compressUIDList (ids : List String) : String :=
  match ids.mapM parseUint64 with
  | some [] => ""
  | some (first :: rest) => ",".intercalate ((collapse first first rest).map flush)
  | none => ",".intercalate ids

/-- An ascending list of UIDs. -/
structure UidList where
  uids : List Nat
  increasing : uids.Pairwise (· < ·)
  valid : ∀ uid ∈ uids, 0 < uid ∧ uid < 2 ^ 32

/-- The list as texts. -/
def UidList.ids (list : UidList) : List String := list.uids.map formatUint

/-! ### The loop -/

/-- A range of UIDs, lower end first. -/
def Range (range : Nat × Nat) : Prop := 0 < range.1 ∧ range.1 ≤ range.2 ∧ range.2 < 2 ^ 32

/-- There is a number between the first range and the second. -/
def Apart (first second : Nat × Nat) : Prop := first.2 + 1 < second.1

/-- What the ranges flushed are, from an open one and the numbers left. -/
theorem collapse_spec (rest : List Nat) : ∀ start prev : Nat, Range (start, prev) →
    (prev :: rest).Pairwise (· < ·) → (∀ n ∈ rest, n < 2 ^ 32) →
    (∀ range ∈ collapse start prev rest, Range range ∧ start ≤ range.1) ∧
      (collapse start prev rest).Pairwise Apart ∧
      ∀ v, (∃ range ∈ collapse start prev rest, range.1 ≤ v ∧ v ≤ range.2) ↔
        (start ≤ v ∧ v ≤ prev) ∨ v ∈ rest := by
  induction rest with
  | nil =>
    intro start prev open_ _ _
    simp [collapse, open_]
  | cons n rest ih =>
    intro start prev open_ increasing bounded
    obtain ⟨above, later⟩ := pairwise_cons.mp increasing
    obtain ⟨small, others⟩ := forall_mem_cons.mp bounded
    obtain ⟨positive, ordered, _⟩ := open_
    simp only at positive ordered
    have next := above n mem_cons_self
    have succ : (prev + 1) % 2 ^ 64 = prev + 1 := Nat.mod_eq_of_lt (by omega)
    rw [collapse, succ]
    split
    · rename_i continues
      obtain ⟨ranges, apart, covers⟩ := ih start n
        ⟨positive, by show start ≤ n; omega, small⟩ later others
      refine ⟨ranges, apart, fun v => ?_⟩
      rw [covers, mem_cons]
      constructor
      · rintro (inside | member)
        · omega
        · exact .inr (.inr member)
      · rintro (inside | rfl | member)
        · omega
        · omega
        · exact .inr member
    · rename_i jumps
      obtain ⟨ranges, apart, covers⟩ := ih n n
        ⟨by show 0 < n; omega, Nat.le_refl n, small⟩ later others
      refine ⟨?_, ?_, fun v => ?_⟩
      · rintro range member
        rcases mem_cons.mp member with rfl | member
        · exact ⟨⟨positive, ordered, by show prev < 2 ^ 32; omega⟩, Nat.le_refl start⟩
        · obtain ⟨is, from_⟩ := ranges range member
          exact ⟨is, by omega⟩
      · refine pairwise_cons.mpr ⟨fun range member => ?_, apart⟩
        have from_ := (ranges range member).2
        show prev + 1 < range.1
        omega
      · have only : v ∈ n :: rest ↔ (n ≤ v ∧ v ≤ n) ∨ v ∈ rest := by
          rw [mem_cons]
          exact or_congr_left (by omega)
        rw [exists_mem_cons_iff, covers, only]

/-! ### The text -/

theorem parseUint64_formatUint {n : Nat} (bounded : n < 2 ^ 32) :
    parseUint64 (formatUint n) = some n := by
  have value := @Nat.ofDigitChars_toDigits 10 n (by decide) (by decide)
  have digits : (Nat.toDigits 10 n).all Char.isDigit = true :=
    all_eq_true.mpr fun c => Nat.isDigit_of_mem_toDigits (by decide) (by decide)
  have some_ : formatUint n ≠ "" := by
    intro empty
    have chars := congrArg String.toList empty
    rw [formatUint, String.toList_ofList] at chars
    exact Nat.toDigits_ne_nil chars
  rw [parseUint64, if_pos]
  · rw [formatUint, String.toList_ofList, value]
  · refine ⟨some_, ?_, ?_⟩
    · rw [formatUint, String.toList_ofList]
      exact digits
    · rw [formatUint, String.toList_ofList, value]
      omega

theorem mapM_ids (uids : List Nat) (bounded : ∀ uid ∈ uids, uid < 2 ^ 32) :
    (uids.map formatUint).mapM parseUint64 = some uids := by
  induction uids with
  | nil => rfl
  | cons uid rest ih =>
    obtain ⟨first, others⟩ := forall_mem_cons.mp bounded
    rw [map_cons, mapM_cons, parseUint64_formatUint first, ih others]
    rfl

/-- A range is flushed as a part of the grammar. -/
theorem flush_part {range : Nat × Nat} (is : Range range) :
    ∃ part : Part, part.render = (flush range).toList ∧ ∀ max, part.ends max = range := by
  obtain ⟨positive, ordered, bounded⟩ := is
  by_cases single : range.1 = range.2
  · refine ⟨.single (.number range.1 positive (by omega)), ?_, fun max => ?_⟩
    · rw [flush, if_pos single, formatUint, String.toList_ofList]
      rfl
    · exact Prod.ext rfl single
  · refine ⟨.range (.number range.1 positive (by omega)) (.number range.2 (by omega) bounded), ?_,
      fun max => rfl⟩
    rw [flush, if_neg single]
    simp [formatUint, Part.render, Bound.render]

theorem flush_parts {ranges : List (Nat × Nat)} (are : ∀ range ∈ ranges, Range range) :
    ∃ parts : List Part, parts.map Part.render = ranges.map (fun range => (flush range).toList) ∧
      ∀ max, parts.map (Part.ends max) = ranges := by
  induction ranges with
  | nil => exact ⟨[], rfl, fun _ => rfl⟩
  | cons range rest ih =>
    obtain ⟨is, others⟩ := forall_mem_cons.mp are
    obtain ⟨part, text, ends⟩ := flush_part is
    obtain ⟨parts, texts, allEnds⟩ := ih others
    refine ⟨part :: parts, ?_, fun max => ?_⟩
    · rw [map_cons, map_cons, text, texts]
    · rw [map_cons, ends, allEnds]

/-- The empty text has one part, which is no number. -/
theorem parseRanges_empty (max : Nat) : parseRanges "" max = [(0, 0)] := by
  have split : "".toList.splitOn ',' = [[]] := by decide
  rw [parseRanges, split]
  rfl

/-- The ranges flushed are read back, whatever the largest UID is. -/
theorem parseRanges_flush {ranges : List (Nat × Nat)} (some_ : ranges ≠ [])
    (are : ∀ range ∈ ranges, Range range) (max : Nat) :
    parseRanges (",".intercalate (ranges.map flush)) max = ranges := by
  obtain ⟨parts, texts, ends⟩ := flush_parts are
  obtain ⟨part, others, rfl⟩ : ∃ part others, parts = part :: others := by
    refine exists_cons_of_ne_nil ?_
    rintro rfl
    exact some_ (ends 0).symm
  have rendered : ",".intercalate (ranges.map flush) =
      String.ofList (SeqSet.mk part others).render := by
    rw [render_eq, SeqSet.parts, texts, ← String.toList_inj, String.toList_intercalate,
      String.toList_ofList, String.toList_ofList, map_map]
    rfl
  rw [rendered, parseRanges_render, SeqSet.parts]
  refine Eq.trans (map_congr_left fun part member => if_neg ?_) (ends max)
  have range : Range (part.ends max) := are _ (by
    rw [← ends max]
    exact mem_map_of_mem member)
  exact Nat.not_lt.mpr range.2.1

/-- What is read of the text of a list: the ranges of its collapsed form, or zero for none. -/
theorem parseRanges_compressUIDList (list : UidList) (max : Nat) :
    (list.uids = [] ∧ parseRanges (compressUIDList list.ids) max = [(0, 0)]) ∨
      ∃ first rest, list.uids = first :: rest ∧
        parseRanges (compressUIDList list.ids) max = collapse first first rest ∧
        (collapse first first rest).Pairwise Apart ∧
        ∀ v, (∃ range ∈ collapse first first rest, range.1 ≤ v ∧ v ≤ range.2) ↔ v ∈ list.uids := by
  obtain ⟨uids, increasing, valid⟩ := list
  rw [compressUIDList, UidList.ids, mapM_ids uids fun uid member => (valid uid member).2]
  cases uids with
  | nil => exact .inl ⟨rfl, parseRanges_empty max⟩
  | cons first rest =>
    obtain ⟨head, others⟩ := forall_mem_cons.mp valid
    obtain ⟨ranges, apart, covers⟩ := collapse_spec rest first first
      ⟨head.1, Nat.le_refl first, head.2⟩ increasing fun n member => (others n member).2
    refine .inr ⟨first, rest, rfl, ?_, apart, fun v => ?_⟩
    · refine parseRanges_flush ?_ (fun range member => (ranges range member).1) max
      intro none_
      have covered := (covers first).mpr (.inl ⟨Nat.le_refl first, Nat.le_refl first⟩)
      rw [none_] at covered
      obtain ⟨_, member, _⟩ := covered
      cases member
    · rw [covers, mem_cons]
      exact or_congr_left (by omega)

/-- A list is read back from its compressed text: of the UIDs, which begin at one, exactly those in
the list are matched. Its ranges are as few as they can be. -/
theorem compressed_list_read (list : UidList) (max : Nat) :
    (∀ uid, 0 < uid ∧ parseUIDSet (compressUIDList list.ids) max uid = true ↔ uid ∈ list.uids) ∧
    (parseRanges (compressUIDList list.ids) max).Pairwise Apart := by
  have matches_ (uid : Nat) : parseUIDSet (compressUIDList list.ids) max uid = true ↔
      ∃ range ∈ parseRanges (compressUIDList list.ids) max, range.1 ≤ uid ∧ uid ≤ range.2 := by
    simp [parseUIDSet]
  rcases parseRanges_compressUIDList list max with
    ⟨none_, read⟩ | ⟨first, rest, shape, read, apart, covers⟩
  · -- The text of no UIDs is read as the range from zero to zero.
    rw [read] at matches_ ⊢
    refine ⟨fun uid => ?_, pairwise_singleton _ _⟩
    rw [matches_, none_]
    simp
    omega
  · rw [read] at matches_ ⊢
    refine ⟨fun uid => ?_, apart⟩
    rw [matches_, covers]
    exact and_iff_right_of_imp fun member => (list.valid uid member).1

/-- A list with two ranges and a number alone. -/
example : compressUIDList ["1", "3", "4", "5", "8", "9"] = "1,3:5,8:9" := by decide

end OctoMail.Imap.UidLists
