import Mathlib.Data.List.Basic
import Mathlib.Data.List.Infix
import Mathlib.Data.Nat.Find

/-!
# Searching a text

The first occurrence of a text in another (`List.dropInfix?`), and a text cut at each occurrence
of a separator. A separator whose first element does not come again in it cannot overlap itself,
so the pieces of a text put together with it are found again.
-/

namespace OctoMail.TextSearch

open List

variable {α : Type}

/-! ### Separators -/

/-- The first element of a separator does not come again in it. -/
def Separator (sep : List α) : Prop := ∃ first rest, sep = first :: rest ∧ first ∉ rest

variable {sep : List α}

theorem Separator.ne_nil (separates : Separator sep) : sep ≠ [] := by
  obtain ⟨first, rest, rfl, _⟩ := separates
  exact cons_ne_nil _ _

variable {text : List α} {pieces : List (List α)}

/-- A separator does not begin within a text that it ends. -/
theorem Separator.not_before (separates : Separator sep) {front behind rest : List α}
    (free : ¬sep <:+: text) (same : text ++ sep ++ behind = front ++ sep ++ rest) :
    text.length ≤ front.length := by
  apply Nat.le_of_not_lt
  intro shorter
  obtain ⟨first, more, rfl, once⟩ := separates
  rw [append_assoc, append_assoc, append_eq_append_iff] at same
  rcases same with ⟨extra, longer, _⟩ | ⟨extra, shape, later⟩
  · rw [longer, length_append] at shorter
    omega
  cases extra with
  | nil =>
    rw [shape, append_nil] at shorter
    exact Nat.lt_irrefl _ shorter
  | cons c extra =>
    rw [cons_append, cons_append, List.cons.injEq] at later
    obtain ⟨rfl, later⟩ := later
    rcases append_eq_append_iff.mp later with ⟨middle, within_, _⟩ | ⟨middle, within_, over_⟩
    · exact free ⟨front, middle, by simp [shape, within_]⟩
    · cases middle with
      | nil => exact free ⟨front, [], by simp [shape, within_]⟩
      | cons d middle =>
        rw [cons_append, cons_append, List.cons.injEq] at over_
        exact once (by simp [within_, over_.1])

theorem intercalate_cons {piece : List α} (some_ : pieces ≠ []) :
    sep.intercalate (piece :: pieces) = piece ++ sep ++ sep.intercalate pieces := by
  obtain ⟨next, others, rfl⟩ := exists_cons_of_ne_nil some_
  exact intercalate_cons_cons

theorem length_le_intercalate (separates : Separator sep)
    (some_ : pieces ≠ []) : pieces.length ≤ (sep.intercalate pieces).length + 1 := by
  have one := length_pos_of_ne_nil separates.ne_nil
  induction pieces with
  | nil => exact absurd rfl some_
  | cons piece pieces ih =>
    by_cases last : pieces = []
    · subst last
      simp
    · have later := ih last
      rw [intercalate_cons last]
      simp only [length_append, length_cons]
      omega

variable [DecidableEq α]

/-! ### The first occurrence -/

theorem dropInfix_some_iff {sought before behind : List α} :
    text.dropInfix? sought = some (before, behind) ↔ text = before ++ sought ++ behind ∧
      ∀ front rest, text = front ++ sought ++ rest → before.length ≤ front.length := by
  simp only [dropInfix?_eq_some_iff, beq_iff_eq]
  constructor
  · rintro ⟨⟨_, shape, rfl⟩, first⟩
    exact ⟨shape, fun front rest other => first front _ rest other rfl⟩
  · rintro ⟨shape, first⟩
    refine ⟨⟨_, shape, rfl⟩, ?_⟩
    rintro front _ rest other rfl
    exact first front rest other

theorem dropInfix_none_iff {sought : List α} :
    text.dropInfix? sought = none ↔ ¬sought <:+: text := by
  constructor
  · rintro missing ⟨front, rest, shape⟩
    -- among the places where it occurs there is a first one
    have some_ : ∃ n, ∃ front rest : List α, text = front ++ sought ++ rest ∧ front.length = n :=
      ⟨_, front, rest, shape.symm, rfl⟩
    classical
    obtain ⟨front, rest, here, least⟩ := Nat.find_spec some_
    have found : text.dropInfix? sought = some (front, rest) :=
      dropInfix_some_iff.mpr ⟨here, fun other behind there =>
        least ▸ Nat.find_min' some_ ⟨other, behind, there, rfl⟩⟩
    rw [missing] at found
    cases found
  · intro missing
    cases found : text.dropInfix? sought with
    | none => rfl
    | some parts =>
      obtain ⟨shape, _⟩ := dropInfix_some_iff.mp (show _ = some (parts.1, parts.2) from found)
      exact absurd ⟨parts.1, parts.2, shape.symm⟩ missing

theorem Separator.dropInfix (separates : Separator sep) (free : ¬sep <:+: text)
    (rest : List α) : (text ++ sep ++ rest).dropInfix? sep = some (text, rest) :=
  dropInfix_some_iff.mpr ⟨rfl, fun _ _ same => separates.not_before free same⟩

/-! ### Cutting a text -/

/-- A text cut at each occurrence of a separator, as long as there is fuel. -/
def splitFuel (sep : List α) : Nat → List α → List (List α)
  | 0, text => [text]
  | fuel + 1, text =>
      match text.dropInfix? sep with
      | none => [text]
      | some (before, behind) => before :: splitFuel sep fuel behind

/-- `bytes.Split`. -/
def split (sep text : List α) : List (List α) := splitFuel sep text.length text

theorem splitFuel_ne_nil (sep : List α) (fuel : Nat) (text : List α) :
    splitFuel sep fuel text ≠ [] := by
  cases fuel with
  | zero => exact cons_ne_nil _ _
  | succ fuel =>
    rw [splitFuel]
    split <;> exact cons_ne_nil _ _

theorem intercalate_splitFuel (sep : List α) (fuel : Nat) (text : List α) :
    sep.intercalate (splitFuel sep fuel text) = text := by
  induction fuel generalizing text with
  | zero => exact intercalate_singleton
  | succ fuel ih =>
    rw [splitFuel]
    split
    · exact intercalate_singleton
    · rename_i before behind found
      rw [intercalate_cons (splitFuel_ne_nil sep fuel behind), ih]
      exact (dropInfix_some_iff.mp found).1.symm

/-- The pieces put together are the text. -/
theorem intercalate_split (sep text : List α) : sep.intercalate (split sep text) = text :=
  intercalate_splitFuel sep text.length text

theorem splitFuel_intercalate (separates : Separator sep) (some_ : pieces ≠ [])
    (free : ∀ piece ∈ pieces, ¬sep <:+: piece) (fuel : Nat) (enough : pieces.length ≤ fuel + 1) :
    splitFuel sep fuel (sep.intercalate pieces) = pieces := by
  induction pieces generalizing fuel with
  | nil => exact absurd rfl some_
  | cons piece pieces ih =>
    obtain ⟨here, later⟩ := forall_mem_cons.mp free
    by_cases last : pieces = []
    · subst last
      rw [intercalate_singleton]
      cases fuel with
      | zero => rfl
      | succ fuel => rw [splitFuel, dropInfix_none_iff.mpr here]
    · cases fuel with
      | zero =>
        have positive := length_pos_of_ne_nil last
        simp only [length_cons] at enough
        omega
      | succ fuel =>
        simp only [length_cons] at enough
        rw [intercalate_cons last, splitFuel, separates.dropInfix here]
        exact congrArg _ (ih last later fuel (by omega))

/-- A text put together from pieces without the separator is cut into them. -/
theorem split_intercalate (separates : Separator sep) (some_ : pieces ≠ [])
    (free : ∀ piece ∈ pieces, ¬sep <:+: piece) : split sep (sep.intercalate pieces) = pieces :=
  splitFuel_intercalate separates some_ free _ (length_le_intercalate separates some_)

/-- Every text is put together from pieces without the separator. -/
theorem exists_pieces (some_ : sep ≠ []) (text : List α) :
    ∃ pieces, pieces ≠ [] ∧ (∀ piece ∈ pieces, ¬sep <:+: piece) ∧
      sep.intercalate pieces = text := by
  induction size : text.length using Nat.strong_induction_on generalizing text with
  | _ size ih =>
    cases found : text.dropInfix? sep with
    | none =>
      refine ⟨[text], cons_ne_nil _ _, ?_, intercalate_singleton⟩
      rw [forall_mem_singleton]
      exact dropInfix_none_iff.mp found
    | some parts =>
      obtain ⟨before, behind⟩ := parts
      obtain ⟨rfl, first⟩ := dropInfix_some_iff.mp found
      have one := length_pos_of_ne_nil some_
      obtain ⟨pieces, others, free, rfl⟩ :=
        ih behind.length (by simp at size; omega) behind rfl
      refine ⟨before :: pieces, cons_ne_nil _ _, forall_mem_cons.mpr ⟨?_, free⟩,
        intercalate_cons others⟩
      rintro ⟨front, rest, rfl⟩
      have least := first front (rest ++ sep ++ sep.intercalate pieces) (by simp)
      simp only [length_append] at least
      omega

/-- No piece has the separator. -/
theorem split_free (separates : Separator sep) (text : List α) :
    ∀ piece ∈ split sep text, ¬sep <:+: piece := by
  obtain ⟨pieces, some_, free, rfl⟩ := exists_pieces separates.ne_nil text
  rw [split_intercalate separates some_ free]
  exact free

end OctoMail.TextSearch
