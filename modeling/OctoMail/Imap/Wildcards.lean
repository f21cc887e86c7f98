import Mathlib.Data.List.Basic
import Mathlib.Data.List.TakeWhile
import OctoMail.Imap.Sections

/-!
# The wildcards of LIST

`wildMatch` of `protocol/imapd/list.go` walks through a pattern and a name at once. Of the
wildcards it has passed it remembers the last: where the walk fails it goes back there and
lets that wildcard take one octet more.

To remember one wildcard only is enough among wildcards of one kind, and for a '*' after a
'%'. A '%' that follows a '*' makes it forget the '*', although only that may take a '/'.
And whether a '%' may take an octet is decided by the octet where the walk failed, which is
another one when the '%' is followed by a '/' and the '/' was matched. So the walk has two
faulty mismatches (`Swallows`, `Forgets`). A positive answer is right unless the walk met the
first, and a negative one unless it met the second.
-/

namespace OctoMail.Imap.Wildcards

open List Wire

def star : UInt8 := 42
def percent : UInt8 := 37
def slash : UInt8 := 47

def isWild (o : UInt8) : Bool := o == star || o == percent

/-- The wildcard seen last, which is a '%' where it stays within a level: what follows it in
the pattern, and the rest of the name where the walk after it began. -/
inductive Saved where
  | none
  | wild (level : Bool) (pattern name : Bytes)

def Saved.pattern : Saved → Bytes
  | .none => []
  | .wild _ pattern _ => pattern

def Saved.name : Saved → Bytes
  | .none => []
  | .wild _ _ name => name

/-- The loop of `wildMatch`, from a place in the pattern and one in the name. -/
def wildLoop (pat s : Bytes) (saved : Saved) : Bool :=
  match s with
  | [] => (pat.dropWhile isWild).isEmpty
  | c :: rest =>
      if _here : pat.head? = some star then
        wildLoop pat.tail (c :: rest) (.wild false pat.tail (c :: rest))
      else if _here : pat.head? = some percent then
        wildLoop pat.tail (c :: rest) (.wild true pat.tail (c :: rest))
      else if pat.head? = some c then wildLoop pat.tail rest saved
      else
        match saved with
        | .wild level p (_ :: x) =>
            if level && c == slash then false else wildLoop p x (.wild level p x)
        | _ => false
termination_by (max pat.length saved.pattern.length, saved.name.length, s.length)
decreasing_by
  · cases pat with
    | nil => cases _here
    | cons o more => exact Prod.Lex.left _ _ (by simp only [List.tail, Saved.pattern]; grind)
  · cases pat with
    | nil => cases _here
    | cons o more => exact Prod.Lex.left _ _ (by simp only [List.tail, Saved.pattern]; grind)
  · exact Prod.Lex.right' _ (by simp only [length_tail]; omega)
      (Prod.Lex.right _ (by simp))
  · exact Prod.Lex.right' _ (by simp only [Saved.pattern]; omega)
      (Prod.Lex.left _ _ (by simp [Saved.name]))

def wildMatch (pat s : Bytes) : Bool := wildLoop pat s .none

/-! ### What a pattern means -/

/-- The name is the pattern with a string in place of each '*', and a string without '/' in
place of each '%'. -/
inductive Matches : Bytes → Bytes → Prop where
  | nil : Matches [] []
  | star {pat s : Bytes} (taken : Bytes) (rest : Matches pat s) :
      Matches (Wildcards.star :: pat) (taken ++ s)
  | percent {pat s : Bytes} (taken : Bytes) (level : slash ∉ taken) (rest : Matches pat s) :
      Matches (Wildcards.percent :: pat) (taken ++ s)
  | literal {pat s : Bytes} (o : UInt8) (plain : isWild o = false) (rest : Matches pat s) :
      Matches (o :: pat) (o :: s)

variable {pat s literal rest taken : Bytes}

theorem matches_star :
    Matches (star :: pat) s ↔ ∃ taken rest, s = taken ++ rest ∧ Matches pat rest := by
  constructor
  · intro found
    cases found with
    | star taken rest => exact ⟨taken, _, rfl, rest⟩
    | literal _ plain => cases plain
  · rintro ⟨taken, rest, rfl, found⟩
    exact .star taken found

theorem matches_percent :
    Matches (percent :: pat) s ↔
      ∃ taken rest, s = taken ++ rest ∧ slash ∉ taken ∧ Matches pat rest := by
  constructor
  · intro found
    cases found with
    | percent taken level rest => exact ⟨taken, _, rfl, level, rest⟩
    | literal _ plain => cases plain
  · rintro ⟨taken, rest, rfl, level, found⟩
    exact .percent taken level found

theorem matches_literal {o : UInt8} (plain : isWild o = false) :
    Matches (o :: pat) s ↔ ∃ rest, s = o :: rest ∧ Matches pat rest := by
  constructor
  · intro found
    cases found with
    | literal _ _ rest => exact ⟨_, rfl, rest⟩
    | star | percent => cases plain
  · rintro ⟨rest, rfl, found⟩
    exact .literal o plain found

/-- Octets in front of a pattern are octets in front of the name. -/
theorem matches_append (plain : ∀ o ∈ literal, isWild o = false) :
    Matches (literal ++ pat) s ↔ ∃ rest, s = literal ++ rest ∧ Matches pat rest := by
  induction literal generalizing s with
  | nil => simp
  | cons o more ih =>
    obtain ⟨first, others⟩ := forall_mem_cons.mp plain
    rw [cons_append, matches_literal first]
    constructor
    · rintro ⟨rest, rfl, found⟩
      obtain ⟨after, rfl, here⟩ := (ih others).mp found
      exact ⟨after, rfl, here⟩
    · rintro ⟨rest, rfl, found⟩
      exact ⟨_, rfl, (ih others).mpr ⟨rest, rfl, found⟩⟩

theorem matches_empty : Matches pat [] ↔ ∀ o ∈ pat, isWild o = true := by
  induction pat with
  | nil => simp [Matches.nil]
  | cons o more ih =>
    rw [forall_mem_cons, ← ih]
    constructor
    · intro found
      generalize nothing : ([] : Bytes) = s at found
      cases found with
      | star _ rest | percent _ _ rest =>
        obtain ⟨rfl, rfl⟩ := append_eq_nil_iff.mp nothing.symm
        exact ⟨rfl, rest⟩
      | literal => cases nothing
    · rintro ⟨wild, found⟩
      rcases Bool.or_eq_true_iff.mp wild with same | same
      · rw [beq_iff_eq.mp same]
        exact .star [] found
      · rw [beq_iff_eq.mp same]
        exact .percent [] (by simp) found

/-! ### The walk -/

/-- The pattern goes on with no wildcard and with another octet than the name. -/
structure Stuck (pat : Bytes) (c : UInt8) : Prop where
  noStar : pat.head? ≠ some star
  noPercent : pat.head? ≠ some percent
  other : pat.head? ≠ some c

/-- The loop comes to a mismatch of a kind, given by the octet of the name, what is saved and
whether a '*' was passed. The constructors are the steps of `wildLoop`. -/
inductive Meets (fault : UInt8 → Saved → Bool → Prop) : Bytes → Bytes → Saved → Bool → Prop where
  | here {pat rest c saved wide} (stuck : Stuck pat c) (faulty : fault c saved wide) :
      Meets fault pat (c :: rest) saved wide
  | star {pat rest c saved wide}
      (later : Meets fault pat (c :: rest) (.wild false pat (c :: rest)) true) :
      Meets fault (Wildcards.star :: pat) (c :: rest) saved wide
  | percent {pat rest c saved wide}
      (later : Meets fault pat (c :: rest) (.wild true pat (c :: rest)) wide) :
      Meets fault (Wildcards.percent :: pat) (c :: rest) saved wide
  | literal {pat rest c saved wide} (plain : isWild c = false)
      (later : Meets fault pat rest saved wide) : Meets fault (c :: pat) (c :: rest) saved wide
  | back {pat rest c level p h x wide} (stuck : Stuck pat c) (goesOn : level = true → c ≠ slash)
      (later : Meets fault p x (.wild level p x) wide) :
      Meets fault pat (c :: rest) (.wild level p (h :: x)) wide

/-- The last wildcard is a '%', and the octet that it takes next is a '/'. The code looks at the
octet of the mismatch, which is none. -/
def Swallows (c : UInt8) (saved : Saved) (_ : Bool) : Prop :=
  c ≠ slash ∧ ∃ p x, saved = .wild true p (slash :: x)

/-- The loop gives up at a '/' because the last wildcard is a '%', although it passed a '*'. -/
def Forgets (c : UInt8) (saved : Saved) (wide : Bool) : Prop :=
  c = slash ∧ wide = true ∧ ∃ p x, saved = .wild true p x

namespace Saved

/-- The walk since the wildcard went over octets of the pattern only. -/
def Fits (pat s : Bytes) : Saved → Prop
  | none => True
  | wild _ p x =>
      ∃ literal, (∀ o ∈ literal, isWild o = false) ∧ p = literal ++ pat ∧ x = literal ++ s

/-- What follows the wildcard matches when that takes more than it has now. After a '*' a '%'
may take anything here: what an earlier '*' could take is among it. -/
def Retries (wide : Bool) : Saved → Prop
  | none => False
  | wild level p x => ∃ taken rest, taken ≠ [] ∧ (level = true → wide = false → slash ∉ taken) ∧
      x = taken ++ rest ∧ Matches p rest

/-- A '*' can only be saved when one was passed. -/
def Narrow (saved : Saved) (wide : Bool) : Prop :=
  wide = false → ∀ p x, saved ≠ .wild false p x

end Saved

/-- A later start of the same octets leaves less of the name. The part between has as many
'/' as what the wildcard takes. -/
theorem later_start (same : literal ++ s = taken ++ (literal ++ rest)) :
    ∃ between, s = between ++ rest ∧ between.count slash = taken.count slash := by
  have shorter : rest.length ≤ s.length := by
    have lengths := congrArg List.length same
    simp only [length_append] at lengths
    omega
  have ends : rest <:+ literal ++ s := by
    rw [same, ← append_assoc]
    exact suffix_append _ _
  obtain ⟨between, rfl⟩ := suffix_of_suffix_length_le ends (suffix_append _ _) shorter
  refine ⟨between, rfl, ?_⟩
  have counts := congrArg (List.count slash) same
  simp only [count_append] at counts
  omega

/-- Where a walk stops at a '/', the '%' before it cannot take more. -/
theorem stops_at_slash {other : Bytes} (more : taken ≠ []) (level : slash ∉ taken)
    (same : literal ++ slash :: rest = taken ++ (literal ++ other)) : False := by
  have first := congrArg (List.idxOf slash) same
  rw [idxOf_append_of_notMem level] at first
  have longer := length_pos_iff.mpr more
  by_cases inside : slash ∈ literal
  · rw [idxOf_append_of_mem inside, idxOf_append_of_mem inside] at first
    omega
  · rw [idxOf_append_of_notMem inside, idxOf_append_of_notMem inside,
      idxOf_cons_self] at first
    omega

section Walk

variable {pat s more : Bytes} {saved : Saved} {wide : Bool}

/-- What an attempt at more finds, it finds behind the octets walked over. -/
theorem retries_found (plain : ∀ o ∈ literal, isWild o = false)
    (same : literal ++ s = taken ++ rest) (found : Matches (literal ++ pat) rest) :
    ∃ between after, s = between ++ after ∧ between.count slash = taken.count slash ∧
      Matches pat after := by
  obtain ⟨after, rfl, here⟩ := (matches_append plain).mp found
  obtain ⟨between, left_, counted⟩ := later_start same
  exact ⟨between, after, left_, counted, here⟩

variable {level : Bool}

/-- A wildcard that takes nothing or more. -/
theorem matches_or_retries
    (within : level = true → wide = false → slash ∉ taken) (found : Matches more rest) :
    Matches more (taken ++ rest) ∨ (Saved.wild level more (taken ++ rest)).Retries wide := by
  by_cases nothing : taken = []
  · subst nothing
    exact .inl found
  · exact .inr ⟨taken, rest, nothing, within, rfl, found⟩

/-- A '*' takes whatever an earlier wildcard could take more. -/
theorem retries_star (fits : saved.Fits (star :: more) s)
    (found : Matches (star :: more) s ∨ saved.Retries wide) :
    Matches more s ∨ (Saved.wild false more s).Retries true := by
  rcases found with found | again
  · obtain ⟨taken, rest, rfl, last⟩ := matches_star.mp found
    exact matches_or_retries (by simp) last
  · cases saved with
    | none => cases again
    | wild =>
      obtain ⟨literal, plain, rfl, rfl⟩ := fits
      obtain ⟨taken, rest, _, _, same, found⟩ := again
      obtain ⟨between, after, rfl, _, here⟩ := retries_found plain same found
      obtain ⟨taken, rest, rfl, last⟩ := matches_star.mp here
      rw [← append_assoc]
      exact matches_or_retries (by simp) last

/-- A '%' takes what an earlier '%' could take more. -/
theorem retries_percent (fits : saved.Fits (percent :: more) s) (narrow : saved.Narrow wide)
    (found : Matches (percent :: more) s ∨ saved.Retries wide) :
    Matches more s ∨ (Saved.wild true more s).Retries wide := by
  rcases found with found | again
  · obtain ⟨taken, rest, rfl, within, last⟩ := matches_percent.mp found
    exact matches_or_retries (fun _ _ => within) last
  · cases saved with
    | none => cases again
    | wild level =>
      obtain ⟨literal, plain, rfl, rfl⟩ := fits
      obtain ⟨taken, rest, _, within, same, found⟩ := again
      obtain ⟨between, after, rfl, counted, here⟩ := retries_found plain same found
      obtain ⟨taken', rest', rfl, level', last⟩ := matches_percent.mp here
      rw [← append_assoc]
      refine matches_or_retries (fun _ only inside => ?_) last
      cases level with
      | false => exact narrow only _ _ rfl
      | true =>
        rcases mem_append.mp inside with before | behind
        · have apart : between.count slash = 0 :=
            counted.trans (count_eq_zero.mpr (within rfl only))
          exact count_eq_zero.mp apart before
        · exact level' behind

/-- At the end of the name an earlier wildcard has nothing more to take. -/
theorem retries_end (fits : saved.Fits pat []) : ¬saved.Retries wide := by
  intro again
  cases saved with
  | none => cases again
  | wild =>
    obtain ⟨literal, plain, rfl, rfl⟩ := fits
    obtain ⟨taken, rest, more, _, same, found⟩ := again
    obtain ⟨after, rfl, _⟩ := (matches_append plain).mp found
    have lengths := congrArg List.length same
    have longer := length_pos_iff.mpr more
    simp only [length_append, length_nil] at lengths
    omega

/-- To take more is to take one octet, or still more behind it. -/
theorem retries_cons {p x : Bytes} {h : UInt8}
    (again : (Saved.wild level p (h :: x)).Retries wide) :
    Matches p x ∨ (Saved.wild level p x).Retries wide := by
  obtain ⟨taken, rest, more, within, same, found⟩ := again
  cases taken with
  | nil => exact absurd rfl more
  | cons first others =>
    obtain ⟨rfl, rfl⟩ := List.cons.inj same
    exact matches_or_retries (fun high only inside =>
      within high only (mem_cons_of_mem _ inside)) found

/-- Where the walk cannot go on, nothing matches. -/
theorem not_matches {c : UInt8} (stuck : Stuck pat c) : ¬Matches pat (c :: rest) := by
  intro found
  generalize same : c :: rest = s at found
  cases found with
  | nil => cases same
  | star => exact stuck.noStar rfl
  | percent => exact stuck.noPercent rfl
  | literal =>
    obtain ⟨rfl, _⟩ := List.cons.inj same
    exact stuck.other rfl

theorem fits_literal {c : UInt8} (plain : isWild c = false)
    (fits : saved.Fits (c :: more) (c :: rest)) : saved.Fits more rest := by
  cases saved with
  | none => trivial
  | wild =>
    obtain ⟨literal, before, rfl, rfl⟩ := fits
    exact ⟨literal ++ [c], by simpa [or_imp, forall_and] using ⟨before, plain⟩, by simp, by simp⟩

theorem fits_here : (Saved.wild level pat s).Fits pat s := ⟨[], by simp⟩

/-- What the walk finds is a match from where it is, or one that gives the last wildcard more,
unless it lets a '%' take a '/'. -/
theorem wildLoop_found (faultless : ¬Meets Swallows pat s saved wide)
    (found : wildLoop pat s saved = true) : Matches pat s ∨ saved.Retries false := by
  fun_induction wildLoop pat s saved generalizing wide with
  | case1 =>
    left
    rw [matches_empty]
    simpa [dropWhile_eq_nil_iff] using found
  | case2 _ _ _ _ here ih =>
    obtain ⟨more, rfl⟩ := head?_eq_some_iff.mp here
    rcases ih (mt .star faultless) found with now | ⟨taken, rest', _, _, same, later⟩
    · exact .inl (.star [] now)
    · rw [same]
      exact .inl (.star taken later)
  | case3 _ _ _ _ _ here ih =>
    obtain ⟨more, rfl⟩ := head?_eq_some_iff.mp here
    rcases ih (mt .percent faultless) found with now | ⟨taken, rest', _, within, same, later⟩
    · exact .inl (.percent [] (by simp) now)
    · rw [same]
      exact .inl (.percent taken (within rfl rfl) later)
  | case4 _ _ c _ _ _ here ih =>
    obtain ⟨more, rfl⟩ := head?_eq_some_iff.mp here
    have plain : isWild c = false := by simp_all [isWild]
    exact (ih (mt (.literal plain) faultless) found).imp_left (.literal c plain)
  | case5 => cases found
  | case6 pat c _ noStar noPercent other level p h x goesOn ih =>
    have stuck : Stuck pat c := ⟨noStar, noPercent, other⟩
    have allowed : level = true → h ≠ slash := by
      rintro rfl rfl
      exact faultless (.here stuck ⟨by simpa using goesOn, p, x, rfl⟩)
    have later := ih (mt (.back stuck (by simpa using goesOn)) faultless) found
    refine .inr ?_
    rcases later with now | ⟨taken, rest', _, within, rfl, later⟩
    · exact ⟨[h], x, by simp, fun high _ => by simpa using (allowed high).symm, rfl, now⟩
    · refine ⟨h :: taken, rest', by simp, fun high only => ?_, rfl, later⟩
      simp [within high only, (allowed high).symm]
  | case7 => cases found

/-- A match from where the walk is, or one that gives the last wildcard more, is found unless the
walk gives up behind a '*' that it has forgotten. -/
theorem wildLoop_finds (fits : saved.Fits pat s) (narrow : saved.Narrow wide)
    (faultless : ¬Meets Forgets pat s saved wide)
    (found : Matches pat s ∨ saved.Retries wide) : wildLoop pat s saved = true := by
  fun_induction wildLoop pat s saved generalizing wide with
  | case1 =>
    rcases found with found | again
    · simpa [dropWhile_eq_nil_iff] using matches_empty.mp found
    · exact absurd again (retries_end fits)
  | case2 _ _ _ _ here ih =>
    obtain ⟨more, rfl⟩ := head?_eq_some_iff.mp here
    exact ih fits_here (fun only => by cases only) (mt .star faultless) (retries_star fits found)
  | case3 _ _ _ _ _ here ih =>
    obtain ⟨more, rfl⟩ := head?_eq_some_iff.mp here
    exact ih fits_here (fun _ _ _ other => by cases other) (mt .percent faultless)
      (retries_percent fits narrow found)
  | case4 _ _ c _ _ _ here ih =>
    obtain ⟨more, rfl⟩ := head?_eq_some_iff.mp here
    have plain : isWild c = false := by simp_all [isWild]
    refine ih (fits_literal plain fits) narrow (mt (.literal plain) faultless)
      (found.imp_left fun whole => ?_)
    simpa using (matches_literal plain).mp whole
  | case5 pat c _ noStar noPercent other level _ _ _ stops =>
    have stuck : Stuck pat c := ⟨noStar, noPercent, other⟩
    obtain ⟨rfl, rfl⟩ : level = true ∧ c = slash := by simpa using stops
    obtain ⟨literal, plain, rfl, same⟩ := fits
    obtain ⟨taken, rest', more, within, again, later⟩ := found.resolve_left (not_matches stuck)
    obtain ⟨after, rfl, _⟩ := (matches_append plain).mp later
    cases wide with
    | false => exact (stops_at_slash more (within rfl rfl) (same.symm.trans again)).elim
    | true => exact absurd (.here stuck ⟨rfl, rfl, _, _, rfl⟩) faultless
  | case6 pat c _ noStar noPercent other _ _ _ _ goesOn ih =>
    have stuck : Stuck pat c := ⟨noStar, noPercent, other⟩
    refine ih fits_here (fun only q y same => ?_)
      (mt (.back stuck (by simpa using goesOn)) faultless)
      (retries_cons (found.resolve_left (not_matches stuck)))
    obtain ⟨rfl, _, _⟩ := Saved.wild.inj same
    exact narrow only _ _ rfl
  | case7 _ saved c rest noStar noPercent other nothing =>
    have again := found.resolve_left (not_matches ⟨noStar, noPercent, other⟩)
    cases saved with
    | none => cases again
    | wild level p =>
      obtain ⟨literal, _, _, rfl⟩ := fits
      cases literal with
      | nil => exact absurd rfl (nothing level p c rest)
      | cons o others => exact absurd rfl (nothing level p o (others ++ c :: rest))

end Walk

/-- For every pattern and name a positive answer is right unless the walk let a '%' take a '/',
and a negative one unless the walk gave up at a '/' with a '*' forgotten. -/
theorem wildMatch_exact (pattern name : Bytes) :
    (¬Meets Swallows pattern name .none false →
      wildMatch pattern name = true → Matches pattern name) ∧
    (¬Meets Forgets pattern name .none false →
      Matches pattern name → wildMatch pattern name = true) := by
  refine ⟨fun faultless found => ?_, fun faultless found => ?_⟩
  · exact (wildLoop_found faultless found).resolve_right (fun again => again)
  · exact wildLoop_finds trivial (fun _ _ _ other => by cases other) faultless (.inl found)

/-- With the pattern "%/b" the '%' takes first '/' of "/a/b", and with "*%" the '*' does not take
the '/' of "a/b". -/
theorem level_swallowed_star_forgotten :
    (wildMatch [percent, slash, 98] [slash, 97, slash, 98] = true ∧
      ¬Matches [percent, slash, 98] [slash, 97, slash, 98]) ∧
    (wildMatch [star, percent] [97, slash, 98] = false ∧
      Matches [star, percent] [97, slash, 98]) := by
  refine ⟨⟨?_, fun found => ?_⟩, ?_, ?_⟩
  · simp [wildMatch, wildLoop, star, percent, slash]
  · obtain ⟨taken, rest, same, level, behind⟩ := matches_percent.mp found
    obtain ⟨after, rfl, ending⟩ := (matches_literal rfl).mp behind
    obtain ⟨last, rfl, ends⟩ := (matches_literal rfl).mp ending
    cases ends
    have counted := congrArg (List.count slash) same
    rw [count_append, count_eq_zero.mpr level] at counted
    cases counted
  · simp [wildMatch, wildLoop, star, percent, slash]
  · exact .star [97, slash, 98] (.percent [] (by simp) .nil)

/-- "%/b" and the name "/b": the walk stops nowhere, and the '%' takes nothing. -/
theorem wildMatch_exact_levels : ¬Meets Swallows [percent, slash, 98] [slash, 98] .none false ∧
    ¬Meets Forgets [percent, slash, 98] [slash, 98] .none false ∧
    (wildMatch [percent, slash, 98] [slash, 98] = true ↔
      Matches [percent, slash, 98] [slash, 98]) := by
  have steady : ∀ fault, ¬Meets fault [percent, slash, 98] [slash, 98] .none false := by
    intro fault met
    cases met with
    | here stuck => exact stuck.noPercent rfl
    | percent later =>
      cases later with
      | here stuck => exact stuck.other rfl
      | literal _ later =>
        cases later with
        | here stuck => exact stuck.other rfl
        | literal _ later => cases later
        | back stuck => exact stuck.other rfl
      | back stuck => exact stuck.other rfl
  exact ⟨steady _, steady _, (wildMatch_exact _ _).1 (steady _), (wildMatch_exact _ _).2 (steady _)⟩

end OctoMail.Imap.Wildcards
