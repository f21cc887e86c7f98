import OctoMail.TextSearch

/-!
# Search snippets

`snippetAround` and `highlight` of `protocol/jmapd/mail.go`. A string is the list of its
characters, and positions count octets, as in Go: a slice that ends within a character or behind
the string has no value here. The first is a text that is no longer UTF-8, the second a panic.

A term is searched in a lower-case copy of the text, and the place where it is found there is used
in the text itself. A snippet is right exactly if the term stands at the places that are used, and
the first of them is that of its first occurrence (`InPlace`). That is so where lower-case letters
take as many octets.
-/

namespace OctoMail.Jmap.Snippets

open List TextSearch

abbrev Text := List Char

/-- The functions of the package `unicode`. -/
structure Go where
  toLower : Char → Char
  isSpace : Char → Bool

/-- The octets of a string. -/
def size : Text → Nat
  | [] => 0
  | c :: s => c.utf8Size + size s

/-- The parts of a string before and behind a position. -/
def cutAt : Text → Nat → Option (Text × Text)
  | s, 0 => some ([], s)
  | [], _ + 1 => none
  | c :: s, n + 1 =>
      if c.utf8Size ≤ n + 1 then (cutAt s (n + 1 - c.utf8Size)).map (fun parts =>
        (c :: parts.1, parts.2))
      else none

/-- `s[lo:hi]`. -/
def slice (s : Text) (lo hi : Nat) : Option Text :=
  (cutAt s hi).bind (fun parts => (cutAt parts.1 lo).map Prod.snd)

/-- `strings.ReplaceAll` of a character. -/
def replaceAll (old : Char) (new : String) (s : Text) : Text :=
  s.flatMap (fun c => if c = old then new.toList else [c])

def htmlEscape (s : Text) : Text :=
  replaceAll '>' "&gt;" (replaceAll '<' "&lt;" (replaceAll '&' "&amp;" s))

/-- The next position at which a character begins, or the end. -/
def alignRune : Text → Int → Nat
  | [], _ => 0
  | c :: s, i => if i ≤ 0 then 0 else c.utf8Size + alignRune s (i - c.utf8Size)

section Snippets

variable (go : Go)

/-- `strings.Fields`, joined by blanks. -/
def collapseSpace (s : Text) : Text :=
  [' '].intercalate ((s.splitOnP go.isSpace).filter (fun word => !word.isEmpty))

/-- Where the term is first found in lower case. -/
def indexFold (s sub : Text) : Option Nat :=
  if sub = [] then some 0
  else ((s.map go.toLower).dropInfix? (sub.map go.toLower)).map (fun parts => size parts.1)

def excerpt (s : Text) (start : Int) (n : Nat) : Option Text :=
  let start := alignRune s start
  slice s start (alignRune s (start + n))

/-- A piece of a text as `highlight` writes it, marked or not. -/
def render (piece : Bool × Text) : Text :=
  if piece.1 then "<mark>".toList ++ htmlEscape piece.2 ++ "</mark>".toList else htmlEscape piece.2

/-- The pieces that the loop of `highlight` writes. It takes less than one round for each character
and one more. -/
def highlightLoop (term : Text) : Nat → Text → Option (List (Bool × Text))
  | 0, _ => none
  | fuel + 1, rest =>
      match indexFold go rest term with
      | none => some [(false, rest)]
      | some i => do
          let before ← slice rest 0 i
          let found ← slice rest i (i + size term)
          let behind ← slice rest (i + size term) (size rest)
          let later ← highlightLoop term fuel behind
          return (false, before) :: (true, found) :: later

def pieces (text term : Text) : Option (List (Bool × Text)) :=
  if term = [] then some [(false, text)] else highlightLoop go term (text.length + 1) text

def highlight (text term : Text) : Option Text :=
  (pieces go text term).map (fun pieces => pieces.flatMap render)

def snippetAround (text term : Text) : Option Text :=
  let text := collapseSpace go text
  if term = [] then (excerpt text 0 200).map htmlEscape
  else
    match indexFold go text term with
    | none => (excerpt text 0 200).map htmlEscape
    | some idx => do
        let start := alignRune text (idx - 40)
        let stop := alignRune text (start + 200)
        let window ← slice text start stop
        let shown ← highlight go window term
        return (if start > 0 then ['…'] else []) ++ shown ++
          (if stop < size text then ['…'] else [])

/-! ### What a snippet is -/

/-- A window of a text shown in pieces. Without the marks it is the window escaped, and each marked
piece is the term up to case. If the term occurs in the text and has at most 100 octets, its first
occurrence is in the window and marked. -/
structure Shown (text term before window : Text) (pieces : List (Bool × Text)) : Prop where
  escaped : pieces.flatMap (fun piece => htmlEscape piece.2) = htmlEscape window
  found : ∀ piece ∈ pieces, piece.1 = true → piece.2.map go.toLower = term.map go.toLower
  first : ∀ front rest, term ≠ [] → size term ≤ 100 →
    (text.map go.toLower).dropInfix? (term.map go.toLower) = some (front, rest) →
      ∃ plain hit more, pieces = (false, plain) :: (true, hit) :: more ∧
        (before ++ plain).map go.toLower = front

/-- The term stands, in some case, at each place that the loop uses: behind as many octets as there
are in lower case. -/
inductive Placed (term : Text) : Text → Prop
  | absent {s : Text} (none_ : (s.map go.toLower).dropInfix? (term.map go.toLower) = none) :
      Placed term s
  | found {plain hit rest before behind : Text}
      (found : ((plain ++ hit ++ rest).map go.toLower).dropInfix? (term.map go.toLower) =
        some (before, behind))
      (place : size before = size plain) (octets : size hit = size term)
      (spelled : hit.map go.toLower = term.map go.toLower) (later : Placed term rest) :
      Placed term (plain ++ hit ++ rest)

/-- The places used in a window of a text are right, and if the term has at most 100 octets, its
first occurrence in the text is in the window behind as many octets as there are in lower case. -/
structure InPlace (text term before window : Text) : Prop where
  placed : term ≠ [] → Placed go term window
  first : ∀ front rest, term ≠ [] → size term ≤ 100 →
    (text.map go.toLower).dropInfix? (term.map go.toLower) = some (front, rest) →
      ∃ plain hit more, window = plain ++ hit ++ more ∧ (before ++ plain).map go.toLower = front ∧
        hit.map go.toLower = term.map go.toLower ∧ size (plain.map go.toLower) = size plain

/-- Lower-case letters take as many octets. -/
def SameSize (s : Text) : Prop := ∀ c ∈ s, (go.toLower c).utf8Size = c.utf8Size

end Snippets

/-! ### Positions -/

theorem size_append (s t : Text) : size (s ++ t) = size s + size t := by
  induction s with
  | nil => simp [size]
  | cons c s ih => simp [size, ih, Nat.add_assoc]

variable {s hit rest before behind : Text}

theorem size_pos (some_ : s ≠ []) : 0 < size s := by
  obtain ⟨c, rest, rfl⟩ := exists_cons_of_ne_nil some_
  have one := c.utf8Size_pos
  rw [size]
  omega

theorem cutAt_append (s t : Text) : cutAt (s ++ t) (size s) = some (s, t) := by
  induction s with
  | nil =>
    rw [size, cutAt.eq_def]
    rfl
  | cons c s ih =>
    obtain ⟨n, positive⟩ := Nat.exists_eq_succ_of_ne_zero
      (Nat.ne_of_gt (size_pos (cons_ne_nil c s)))
    have rest : n + 1 - c.utf8Size = size s := by
      rw [size] at positive
      omega
    have fits : c.utf8Size ≤ n + 1 := by
      rw [size] at positive
      omega
    rw [positive, cons_append, cutAt, if_pos fits, rest, ih]
    rfl

theorem cutAt_some {front back : Text} {n : Nat} (cut : cutAt s n = some (front, back)) :
    s = front ++ back ∧ size front = n := by
  induction s generalizing n front with
  | nil =>
    cases n with
    | zero =>
      cases cut
      exact ⟨rfl, rfl⟩
    | succ n => cases cut
  | cons c s ih =>
    cases n with
    | zero =>
      cases cut
      exact ⟨rfl, rfl⟩
    | succ n =>
      rw [cutAt] at cut
      obtain ⟨fits, cut⟩ := Option.ite_none_right_eq_some.mp cut
      obtain ⟨⟨rest, _⟩, later, here⟩ := Option.map_eq_some_iff.mp cut
      cases here
      obtain ⟨rfl, place⟩ := ih later
      exact ⟨rfl, by rw [size, place]; omega⟩

/-- A slice is what stands between two positions. -/
theorem slice_some {middle : Text} {lo hi : Nat} (cut : slice s lo hi = some middle) :
    ∃ front back, s = front ++ middle ++ back ∧ size front = lo ∧ size (front ++ middle) = hi := by
  obtain ⟨⟨upper, back⟩, high, cut⟩ := Option.bind_eq_some_iff.mp cut
  obtain ⟨⟨front, _⟩, low, rfl⟩ := Option.map_eq_some_iff.mp cut
  obtain ⟨rfl, top⟩ := cutAt_some high
  obtain ⟨rfl, bottom⟩ := cutAt_some low
  exact ⟨front, back, rfl, bottom, top⟩

theorem slice_middle (s t u : Text) : slice (s ++ t ++ u) (size s) (size (s ++ t)) = some t := by
  rw [slice, cutAt_append, Option.bind_some, cutAt_append]
  rfl

/-- A position that is the next beginning of a character. -/
theorem alignRune_spec (s : Text) (i : Int) : ∃ before behind, s = before ++ behind ∧
    alignRune s i = size before ∧ (i ≤ size before ∨ behind = []) ∧
      ∀ front rest, s = front ++ rest → i ≤ size front → size before ≤ size front := by
  induction s generalizing i with
  | nil => exact ⟨[], [], rfl, rfl, .inr rfl, fun _ _ _ _ => Nat.zero_le _⟩
  | cons c s ih =>
    rw [alignRune]
    split
    · rename_i start
      exact ⟨[], c :: s, rfl, rfl, .inl start, fun _ _ _ _ => Nat.zero_le _⟩
    rename_i later
    obtain ⟨before, behind, shape, place, reached, least⟩ := ih (i - c.utf8Size)
    refine ⟨c :: before, behind, by rw [shape]; rfl, by rw [place, size], ?_, ?_⟩
    · rcases reached with here | last
      · exact .inl (by rw [size]; omega)
      · exact .inr last
    · intro front rest split_ far
      cases front with
      | nil => exact absurd far later
      | cons d front =>
        obtain ⟨rfl, tail⟩ := List.cons.inj split_
        rw [size] at far ⊢
        have bound := least front rest tail (by omega)
        rw [size]
        omega

/-- Of two beginnings of a string the one with fewer octets begins the other. -/
theorem exists_append_of_size_le {t u v : Text} (same : s ++ t = u ++ v) (le : size s ≤ size u) :
    ∃ extra, u = s ++ extra ∧ t = extra ++ v := by
  rcases append_eq_append_iff.mp same with longer | ⟨extra, shape, tail⟩
  · exact longer
  · by_cases empty : extra = []
    · subst empty
      exact ⟨[], by simp [shape], by simpa using tail.symm⟩
    · have more := size_pos empty
      rw [shape, size_append] at le
      omega

theorem append_inj_size {t u v : Text} (same : s ++ t = u ++ v) (sizes : size s = size u) :
    s = u ∧ t = v := by
  obtain ⟨extra, rfl, rfl⟩ := exists_append_of_size_le same (Nat.le_of_eq sizes)
  cases extra with
  | nil => simp
  | cons c extra =>
    have more := size_pos (cons_ne_nil c extra)
    rw [size_append] at sizes
    omega

/-- Three slices that follow each other are the text. -/
theorem slices {plain : Text} {i j : Nat} (first : slice s 0 i = some plain)
    (second : slice s i j = some hit) (third : slice s j (size s) = some rest) :
    s = plain ++ hit ++ rest ∧ size plain = i ∧ size (plain ++ hit) = j := by
  obtain ⟨start, tail, shape, empty, place⟩ := slice_some first
  obtain ⟨front, behind, shape', before, stop⟩ := slice_some second
  obtain ⟨upto, last, shape'', before', whole⟩ := slice_some third
  have start_ : start = [] := by
    by_contra filled
    exact Nat.ne_of_gt (size_pos filled) empty
  have last_ : last = [] := by
    by_contra filled
    have more := size_pos filled
    rw [shape'', size_append (upto ++ rest)] at whole
    omega
  subst start_ last_
  rw [nil_append] at shape place
  rw [append_nil] at shape''
  rw [append_assoc] at shape'
  obtain ⟨rfl, _⟩ := append_inj_size (shape'.symm.trans shape) (before.trans place.symm)
  rw [← append_assoc] at shape'
  obtain ⟨rfl, _⟩ := append_inj_size (shape''.symm.trans shape') (before'.trans stop.symm)
  exact ⟨shape'', place, stop⟩

theorem htmlEscape_append (s t : Text) : htmlEscape (s ++ t) = htmlEscape s ++ htmlEscape t := by
  simp [htmlEscape, replaceAll]

theorem htmlEscape_flatMap (pieces : List (Bool × Text)) :
    pieces.flatMap (fun piece => htmlEscape piece.2) = htmlEscape (pieces.flatMap Prod.snd) := by
  induction pieces with
  | nil => rfl
  | cons piece pieces ih =>
    rw [flatMap_cons, flatMap_cons, ih, htmlEscape_append]

/-! ### Finding the term -/

section Search

variable {go : Go} {s t term : Text}

theorem SameSize.of_append (same : SameSize go (s ++ t)) : SameSize go s ∧ SameSize go t :=
  forall_mem_append.mp same

theorem SameSize.size_map (same : SameSize go s) : size (s.map go.toLower) = size s := by
  induction s with
  | nil => rfl
  | cons c s ih =>
    obtain ⟨here, later⟩ := forall_mem_cons.mp same
    rw [map_cons, size, size, here, ih later]

/-- Where the term is found in lower case it stands in the text, in some case, and the position is
the same. -/
theorem dropInfix_lower
    (found : (s.map go.toLower).dropInfix? (term.map go.toLower) = some (before, behind))
    (text : SameSize go s) (sought : SameSize go term) :
    ∃ plain hit rest, s = plain ++ hit ++ rest ∧ plain.map go.toLower = before ∧
      hit.map go.toLower = term.map go.toLower ∧ size before = size plain ∧ size hit = size term := by
  obtain ⟨shape, _⟩ := dropInfix_some_iff.mp found
  obtain ⟨front, rest, rfl, frontLower, rfl⟩ := map_eq_append_iff.mp shape
  obtain ⟨plain, hit, rfl, rfl, hitLower⟩ := map_eq_append_iff.mp frontLower
  have sizes := text.of_append.1.of_append
  refine ⟨plain, hit, rest, rfl, rfl, hitLower, sizes.1.size_map, ?_⟩
  rw [← sizes.2.size_map, hitLower, sought.size_map]

/-- A round of the loop at a place that is a beginning of a character. -/
theorem round {plain : Text} {fuel place : Nat}
    (found : indexFold go (plain ++ hit ++ rest) term = some place) (here : place = size plain)
    (octets : size hit = size term) :
    highlightLoop go term (fuel + 1) (plain ++ hit ++ rest) =
      (highlightLoop go term fuel rest).map (fun later =>
        (false, plain) :: (true, hit) :: later) := by
  have first : slice (plain ++ hit ++ rest) 0 (size plain) = some plain := by
    have cut := slice_middle [] plain (hit ++ rest)
    simpa [size] using cut
  have second : slice (plain ++ hit ++ rest) (size plain) (size plain + size hit) = some hit := by
    rw [← size_append]
    exact slice_middle plain hit rest
  have third : slice (plain ++ hit ++ rest) (size plain + size hit)
      (size (plain ++ hit ++ rest)) = some rest := by
    have cut := slice_middle (plain ++ hit) rest []
    rw [append_nil] at cut
    rwa [← size_append]
  subst here
  rw [highlightLoop, found]
  simp only [← octets, first, second, third, Option.bind_eq_bind, Option.bind_some]
  cases highlightLoop go term fuel rest <;> rfl

/-- The loop shows a text whose places are right, and marks the first one. -/
theorem Placed.shows (some_ : term ≠ []) (placed : Placed go term s) :
    ∀ fuel, s.length < fuel → ∃ pieces, highlightLoop go term fuel s = some pieces ∧
      pieces.flatMap Prod.snd = s ∧
      (∀ piece ∈ pieces, piece.1 = true → piece.2.map go.toLower = term.map go.toLower) ∧
      ∀ before behind, (s.map go.toLower).dropInfix? (term.map go.toLower) = some (before, behind) →
        ∃ plain hit more, pieces = (false, plain) :: (true, hit) :: more ∧ plain <+: s ∧
          size before = size plain := by
  induction placed with
  | @absent s none_ =>
    rintro (_ | fuel) enough
    · exact absurd enough (Nat.not_lt_zero _)
    refine ⟨[(false, s)], ?_, by simp, by simp, fun _ _ other => ?_⟩
    · rw [highlightLoop, indexFold, if_neg some_, none_]
      rfl
    · rw [none_] at other
      cases other
  | @found plain hit rest before behind found place octets spelled later ih =>
    rintro (_ | fuel) enough
    · exact absurd enough (Nat.not_lt_zero _)
    have hit_ : hit ≠ [] := by
      rintro rfl
      exact Nat.ne_of_gt (size_pos some_) octets.symm
    obtain ⟨pieces, shown, whole, marked, _⟩ := ih fuel (by
      have positive := length_pos_of_ne_nil hit_
      simp only [length_append] at enough
      omega)
    refine ⟨(false, plain) :: (true, hit) :: pieces, ?_, ?_, ?_, ?_⟩
    · rw [round (by rw [indexFold, if_neg some_, found]; rfl) place octets, shown]
      rfl
    · rw [flatMap_cons, flatMap_cons, whole, append_assoc]
    · simpa [spelled] using marked
    · intro other tail again
      rw [found] at again
      cases again
      exact ⟨plain, hit, pieces, rfl, by simp [append_assoc], place⟩

/-- Where the marked pieces are the term, the places are right, and the first one is used first. -/
theorem placed_of_loop (some_ : term ≠ []) {fuel : Nat} : ∀ (s : Text) pieces,
    highlightLoop go term fuel s = some pieces →
    (∀ piece ∈ pieces, piece.1 = true → piece.2.map go.toLower = term.map go.toLower) →
      Placed go term s ∧ pieces.flatMap Prod.snd = s ∧
        ∀ plain hit more, pieces = (false, plain) :: (true, hit) :: more → ∃ rest before behind,
          s = plain ++ hit ++ rest ∧ size before = size plain ∧
            (s.map go.toLower).dropInfix? (term.map go.toLower) = some (before, behind) := by
  induction fuel with
  | zero => exact fun s pieces shown => by cases shown
  | succ fuel ih =>
    intro s pieces shown marked
    rw [highlightLoop, indexFold, if_neg some_] at shown
    cases found : (s.map go.toLower).dropInfix? (term.map go.toLower) with
    | none =>
      rw [found] at shown
      cases shown
      exact ⟨.absent found, by simp, fun _ _ _ other => by simp at other⟩
    | some parts =>
      rw [found] at shown
      simp only [Option.map_some, Option.bind_eq_bind, Option.bind_eq_some_iff, Option.pure_def,
        Option.some.injEq] at shown
      obtain ⟨plain, first, hit, second, rest, third, later, behind, rfl⟩ := shown
      obtain ⟨rfl, place, stop⟩ := slices first second third
      have octets : size hit = size term := by
        rw [size_append] at stop
        omega
      have spelled := marked (true, hit) (by simp) rfl
      obtain ⟨placed, whole, _⟩ := ih rest later behind fun piece member =>
        marked piece (mem_cons_of_mem _ (mem_cons_of_mem _ member))
      refine ⟨.found found place.symm octets spelled placed, by simp [whole], ?_⟩
      intro plain' hit' more same
      simp only [List.cons.injEq, Prod.mk.injEq, true_and] at same
      obtain ⟨rfl, rfl, _⟩ := same
      exact ⟨rest, parts.1, parts.2, rfl, place.symm, rfl⟩

end Search

/-! ### The snippet -/

section Snippet

variable {go : Go}

/-- An excerpt from the beginning. -/
theorem excerpt_front (text : Text) :
    ∃ window behind, text = window ++ behind ∧ excerpt text 0 200 = some window := by
  obtain ⟨window, behind, shape, place, _⟩ := alignRune_spec text 200
  have start : alignRune text 0 = 0 := by cases text <;> rfl
  refine ⟨window, behind, shape, ?_⟩
  have cut := slice_middle [] window behind
  simp only [excerpt, start]
  rw [show ((0 : Nat) : Int) + (200 : Nat) = 200 from rfl, place]
  simpa [size, ← shape] using cut

/-- A window of two hundred octets. -/
theorem window_at (text : Text) (i : Int) :
    ∃ before window behind, text = before ++ window ++ behind ∧ alignRune text i = size before ∧
      alignRune text ((size before : Int) + 200) = size (before ++ window) ∧
      (∀ plain rest, text = plain ++ rest → i ≤ size plain → ∃ lead, plain = before ++ lead) ∧
        (i + 200 ≤ size (before ++ window) ∨ behind = []) := by
  obtain ⟨before, tail, split_, start, reached, least⟩ := alignRune_spec text i
  obtain ⟨front, behind, split', stop, far, _⟩ := alignRune_spec text ((size before : Int) + 200)
  have ordered : size before ≤ size front := by
    rcases far with here | last
    · omega
    · rw [last, append_nil] at split'
      rw [← split', split_, size_append]
      omega
  obtain ⟨window, rfl, _⟩ := exists_append_of_size_le (split_.symm.trans split') ordered
  refine ⟨before, window, behind, split', start, stop, fun plain rest shape far => ?_, ?_⟩
  · obtain ⟨lead, leads, _⟩ :=
      exists_append_of_size_le (split_.symm.trans shape) (least plain rest shape far)
    exact ⟨lead, leads⟩
  · rcases far with here | last
    · rcases reached with there | end_
      · exact .inl (by omega)
      · -- nothing stands behind the beginning of the window
        subst end_
        have whole := congrArg size (split_.symm.trans split')
        simp only [size_append, size] at whole here
        omega
    · exact .inr last

variable {term : Text}

/-- The first occurrence in a text that lies in a window is the first one there. -/
theorem dropInfix_window {lead more front : Text}
    (hitLower : hit.map go.toLower = term.map go.toLower)
    (found : ((before ++ (lead ++ hit ++ more) ++ behind).map go.toLower).dropInfix?
      (term.map go.toLower) = some (front, rest))
    (place : (before ++ lead).map go.toLower = front) :
    ((lead ++ hit ++ more).map go.toLower).dropInfix? (term.map go.toLower) =
      some (lead.map go.toLower, more.map go.toLower) := by
  refine dropInfix_some_iff.mpr ⟨by simp [hitLower], fun other tail shape => ?_⟩
  have least := (dropInfix_some_iff.mp found).2 (before.map go.toLower ++ other)
    (tail ++ behind.map go.toLower) (by
      rw [map_append, map_append, shape]
      simp)
  rw [← place] at least
  simp only [map_append, length_append] at least
  omega

/-- A window is shown as it should be exactly if the places used in it are right. -/
theorem shown_iff {text window : Text} (split_ : text = before ++ window ++ behind) :
    (∃ shown, pieces go window term = some shown ∧ Shown go text term before window shown) ↔
      InPlace go text term before window := by
  by_cases empty : term = []
  · refine ⟨fun _ => ⟨absurd empty, fun _ _ some_ => absurd empty some_⟩, fun _ => ?_⟩
    exact ⟨_, if_pos empty, by simp, by simp, fun _ _ some_ => absurd empty some_⟩
  rw [pieces, if_neg empty]
  constructor
  · rintro ⟨shown, ran, escaped, found, first⟩
    obtain ⟨placed, _, used⟩ := placed_of_loop empty window shown ran found
    refine ⟨fun _ => placed, fun front rest _ short occurs => ?_⟩
    obtain ⟨plain, hit, more, rfl, leads⟩ := first front rest empty short occurs
    obtain ⟨others, w, tail, rfl, place, here⟩ := used plain hit more rfl
    have spelled := found (true, hit) (by simp) rfl
    have again := dropInfix_window spelled (split_ ▸ occurs) leads
    rw [here] at again
    obtain ⟨rfl, _⟩ := Prod.mk.inj (Option.some.inj again)
    exact ⟨plain, hit, others, rfl, leads, spelled, place⟩
  · rintro ⟨placed, first⟩
    obtain ⟨shown, ran, whole, found, used⟩ :=
      (placed empty).shows empty (window.length + 1) (Nat.lt_succ_self _)
    refine ⟨shown, ran, by rw [htmlEscape_flatMap, whole], found, ?_⟩
    intro front rest _ short occurs
    obtain ⟨plain, hit, more, rfl, leads, spelled, octets⟩ := first front rest empty short occurs
    obtain ⟨plain', hit', others, rfl, ⟨tail, begins⟩, place⟩ := used _ _
      (dropInfix_window spelled (split_ ▸ occurs) leads)
    rw [append_assoc] at begins
    obtain ⟨rfl, _⟩ := append_inj_size begins (place.symm.trans octets)
    exact ⟨plain', hit', others, rfl, leads⟩

/-- Where sizes are kept, every place is right. -/
theorem SameSize.placed (some_ : term ≠ []) (sought : SameSize go term)
    (text : SameSize go s) : Placed go term s := by
  induction n : s.length using Nat.strong_induction_on generalizing s with
  | _ n ih =>
    cases found : (s.map go.toLower).dropInfix? (term.map go.toLower) with
    | none => exact .absent found
    | some parts =>
      obtain ⟨plain, hit, rest, rfl, lower, hitLower, place, hitSize⟩ :=
        dropInfix_lower (show _ = some (parts.1, parts.2) from found) text sought
      have hit_ : hit ≠ [] := by
        rintro rfl
        exact Nat.ne_of_gt (size_pos some_) hitSize.symm
      refine .found found place hitSize hitLower (ih rest.length ?_ text.of_append.2 rfl)
      have positive := length_pos_of_ne_nil hit_
      simp only [← n, length_append]
      omega

/-- The window that a snippet shows, and where sizes are kept, the places in it are right. -/
theorem snippetAround_window (text term : Text) :
    ∃ before window behind lead trail, collapseSpace go text = before ++ window ++ behind ∧
      (lead = [] ∨ lead = ['…']) ∧ (trail = [] ∨ trail = ['…']) ∧
      snippetAround go text term =
        (highlight go window term).map (fun shown => lead ++ shown ++ trail) ∧
      (SameSize go (collapseSpace go text ++ term) →
        InPlace go (collapseSpace go text) term before window) := by
  generalize shown : collapseSpace go text = t
  rw [snippetAround, shown]
  obtain ⟨window, behind, shape, front⟩ := excerpt_front t
  by_cases empty : term = []
  · refine ⟨[], window, behind, [], [], shape, .inl rfl, .inl rfl, ?_, fun _ => ?_⟩
    · simp [empty, front, highlight, pieces, render]
    · exact ⟨absurd empty, fun _ _ some_ => absurd empty some_⟩
  simp only [if_neg empty, indexFold]
  cases found : (t.map go.toLower).dropInfix? (term.map go.toLower) with
  | none =>
    have absent : (window.map go.toLower).dropInfix? (term.map go.toLower) = none := by
      rw [dropInfix_none_iff] at found ⊢
      refine fun inside => found (inside.trans ?_)
      rw [shape, map_append]
      exact (prefix_append _ _).isInfix
    refine ⟨[], window, behind, [], [], shape, .inl rfl, .inl rfl, ?_, fun _ => ?_⟩
    · simp [empty, front, highlight, pieces, highlightLoop, indexFold, absent, render]
    · refine ⟨fun _ => .absent absent, fun _ _ _ _ other => ?_⟩
      rw [found] at other
      cases other
  | some parts =>
    obtain ⟨first, tail⟩ := parts
    obtain ⟨before, window, behind, split_, lo, hi, least, far⟩ :=
      window_at t ((size first : Int) - 40)
    have cut : slice t (size before) (size (before ++ window)) = some window := by
      rw [split_]
      exact slice_middle before window behind
    refine ⟨before, window, behind, if size before > 0 then ['…'] else [],
      if size (before ++ window) < size t then ['…'] else [], split_, (ite_eq_or_eq _ _ _).symm,
      (ite_eq_or_eq _ _ _).symm, ?_, fun same => ?_⟩
    · simp only [Option.map_some, lo, hi, cut, Option.bind_eq_bind, Option.bind_some]
      cases highlight go window term <;> rfl
    obtain ⟨whole, sought⟩ := same.of_append
    have inWindow : SameSize go window := by
      rw [split_] at whole
      exact whole.of_append.1.of_append.2
    refine ⟨fun _ => sought.placed empty inWindow, fun front rest _ short other => ?_⟩
    rw [found] at other
    cases other
    obtain ⟨plain, hit, rest, shape, lower, hitLower, place, hitSize⟩ :=
      dropInfix_lower found whole sought
    obtain ⟨lead, leads⟩ := least plain (hit ++ rest) (shape.trans (append_assoc ..)) (by omega)
    have inside : size (plain ++ hit) ≤ size (before ++ window) := by
      rcases far with here | last
      · rw [size_append, hitSize]
        omega
      · rw [last, append_nil] at split_
        rw [← split_, shape, size_append (plain ++ hit)]
        omega
    obtain ⟨more, longer, _⟩ := exists_append_of_size_le (shape.symm.trans split_) inside
    rw [leads, append_assoc, append_assoc, append_cancel_left_eq,
      ← append_assoc] at longer
    subst longer
    exact ⟨lead, hit, more, rfl, leads ▸ lower, hitLower, inWindow.of_append.1.of_append.1.size_map⟩

end Snippet

/-- `highlight`, which shows a subject, is right exactly if the places that it uses are. A snippet
is what `highlight` shows of a window of the collapsed text, between ellipses or not, and is right
under the same condition on the window. It holds where the letters take as many octets in lower
case. -/
theorem snippet_faithful (go : Go) (text term : Text) :
    ((∃ shown, pieces go text term = some shown ∧ Shown go text term [] text shown) ↔
      InPlace go text term [] text) ∧
    ∃ before window behind lead trail, collapseSpace go text = before ++ window ++ behind ∧
      (lead = [] ∨ lead = ['…']) ∧ (trail = [] ∨ trail = ['…']) ∧
      snippetAround go text term =
        (highlight go window term).map (fun shown => lead ++ shown ++ trail) ∧
      ((∃ shown, pieces go window term = some shown ∧
          Shown go (collapseSpace go text) term before window shown) ↔
        InPlace go (collapseSpace go text) term before window) ∧
      (SameSize go (collapseSpace go text ++ term) →
        InPlace go (collapseSpace go text) term before window) := by
  have whole : text = [] ++ text ++ [] := by simp
  refine ⟨shown_iff whole, ?_⟩
  obtain ⟨before, window, behind, lead, trail, split_, led, trailed, shown, sized⟩ :=
    @snippetAround_window go text term
  exact ⟨before, window, behind, lead, trail, split_, led, trailed, shown, shown_iff split_, sized⟩

/-- Two of the characters whose lower-case letters have another length. -/
def sampleGo : Go where
  toLower := fun c => if c = 'Ⱥ' then 'ⱥ' else if c = 'İ' then 'i' else c.toLower
  isSpace := Char.isWhitespace

/-- A text with a letter whose size changes, in which the term does not occur, and one in which it
is found and marked. -/
theorem snippet_faithful_hello :
    (∃ shown, pieces sampleGo "Ⱥ x y".toList "zz".toList = some shown ∧
      Shown sampleGo "Ⱥ x y".toList "zz".toList [] "Ⱥ x y".toList shown) ∧
    ∃ before window lead trail shown,
      snippetAround sampleGo "Say  Hello".toList "hello".toList =
        some (lead ++ shown.flatMap render ++ trail) ∧
      Shown sampleGo "Say Hello".toList "hello".toList before window shown := by
  have absent : ("Ⱥ x y".toList.map sampleGo.toLower).dropInfix?
    ("zz".toList.map sampleGo.toLower) = none := by decide +kernel
  refine ⟨(snippet_faithful sampleGo "Ⱥ x y".toList "zz".toList).1.mpr
    ⟨fun _ => .absent absent, fun _ _ _ _ other => ?_⟩, ?_⟩
  · rw [absent] at other
    cases other
  have collapsed : collapseSpace sampleGo "Say  Hello".toList = "Say Hello".toList := by
    decide +kernel
  have sizes : ("Say Hello".toList ++ "hello".toList).all
      (fun c => (sampleGo.toLower c).utf8Size == c.utf8Size) = true := by decide +kernel
  obtain ⟨before, window, behind, lead, trail, _, _, _, around, exact_, sized⟩ :=
    (snippet_faithful sampleGo "Say  Hello".toList "hello".toList).2
  rw [collapsed] at exact_ sized
  obtain ⟨shown, ran, right⟩ := exact_.mpr (sized fun c inside =>
    eq_of_beq (all_eq_true.mp sizes c inside))
  refine ⟨before, window, lead, trail, shown, ?_, right⟩
  rw [around, highlight, ran]
  rfl

/-- The place of the term is behind the text, and the slice is out of range; or it is within a
character, and the slice cuts it. -/
theorem snippet_out_of_place :
    indexFold sampleGo "Ⱥx".toList "x".toList = some 3 ∧ size "Ⱥx".toList < 3 + size "x".toList ∧
      snippetAround sampleGo "Ⱥx".toList "x".toList = none ∧
      indexFold sampleGo "İéx".toList "x".toList = some 3 ∧ cutAt "İéx".toList 3 = none ∧
      snippetAround sampleGo "İéx".toList "x".toList = none := by
  decide +kernel

end OctoMail.Jmap.Snippets
