import OctoMail.TextLines
import OctoMail.TextSearch

/-!
# The three normalisers of line ends

`inbound.NormalizeEOL` and `autoreply.normalizeEOL` go through a text once and look one octet
ahead; `webapi.normalizeCRLF` replaces three times. They are one function: a line end is written for
each pair of a carriage return and a newline and for each of the two that is not in such a pair.
-/

namespace OctoMail.Mailflow.LineEnds

open List TextLines TextSearch

def lineEnd : Bytes := [cr, lf]

theorem separator_lineEnd : Separator lineEnd := ⟨cr, [lf], rfl, by decide⟩

/-- Every carriage return is followed by a newline, and every newline follows one. -/
def clean : Bytes → Bool
  | [] => true
  | [c] => c != cr && c != lf
  | c :: d :: rest =>
      if c = cr then d == lf && clean rest else c != lf && clean (d :: rest)

variable {rest text : Bytes}

theorem clean_append {front : Bytes} (left : clean front = true) (right : clean rest = true) :
    clean (front ++ rest) = true := by
  fun_induction clean front with
  | case1 => exact right
  | case2 =>
    rw [Bool.and_eq_true, bne_iff_ne, bne_iff_ne] at left
    cases rest with
    | nil => simp [clean, left]
    | cons d rest => simp [clean, left, right]
  | case3 _ _ ih =>
    rw [Bool.and_eq_true] at left
    simp [clean, left.1, ih left.2]
  | case4 _ _ _ other ih =>
    rw [Bool.and_eq_true] at left
    have later := ih left.2
    rw [cons_append] at later
    rw [cons_append, cons_append, clean, if_neg other, left.1, later]
    rfl

theorem clean_of_free (noCr : cr ∉ text) (noLf : lf ∉ text) : clean text = true := by
  induction text with
  | nil => rfl
  | cons c rest ih =>
    obtain ⟨first, noCr⟩ := not_or.mp (mt mem_cons.mpr noCr)
    obtain ⟨second, noLf⟩ := not_or.mp (mt mem_cons.mpr noLf)
    have single : clean [c] = true := by simp [clean, Ne.symm first, Ne.symm second]
    exact clean_append single (ih noCr noLf)

theorem clean_flatMap {α : Type} {items : List α} {text : α → Bytes}
    (each : ∀ item ∈ items, clean (text item) = true) : clean (items.flatMap text) = true := by
  induction items with
  | nil => rfl
  | cons item rest ih =>
    obtain ⟨here, later⟩ := forall_mem_cons.mp each
    exact clean_append here (ih later)

/-! ### The normalisers -/

/-- `stripCRLF` of `protocol/webapi/compose.go`. -/
def stripCRLF (text : Bytes) : Bytes := text.filter (fun c => c != cr && c != lf)

/-- `strings.ReplaceAll` of a single octet. -/
def replaceOctet (old : UInt8) (new text : Bytes) : Bytes :=
  text.flatMap (fun c => if c = old then new else [c])

/-- `webapi.normalizeCRLF`. -/
def normalizeCRLF (text : Bytes) : Bytes :=
  if cr ∉ text ∧ lf ∉ text then text
  else
    let text := List.intercalate [lf] (split lineEnd text)
    let text := replaceOctet cr [lf] text
    replaceOctet lf lineEnd text

/-- The loop of both scanners. -/
def scanEOL : Bytes → Bytes
  | [] => []
  | [c] => if c = cr then lineEnd else if c = lf then lineEnd else [c]
  | c :: d :: rest =>
      if c = cr then
        -- The newline of a pair is consumed.
        if d = lf then lineEnd ++ scanEOL rest else lineEnd ++ scanEOL (d :: rest)
      else if c = lf then lineEnd ++ scanEOL (d :: rest)
      else c :: scanEOL (d :: rest)

/-- A run of carriage returns and newlines. -/
example : scanEOL [97, cr, cr, lf, lf] = [97, cr, lf, cr, lf, cr, lf] := by
  simp [scanEOL, cr, lf, lineEnd]

def scanUnlessFree (text : Bytes) : Bytes :=
  if cr ∉ text ∧ lf ∉ text then text else scanEOL text

/-- `inbound.NormalizeEOL`. -/
def inboundNormalizeEOL (b : Bytes) : Bytes := scanUnlessFree b

/-- `autoreply.normalizeEOL`. -/
def normalizeEOL (s : Bytes) : Bytes := scanUnlessFree s

/-! ### The scanner -/

theorem scanEOL_pair (rest : Bytes) : scanEOL (cr :: lf :: rest) = lineEnd ++ scanEOL rest := by
  rw [scanEOL, if_pos rfl, if_pos rfl]

theorem scanEOL_cr (alone : rest.head? ≠ some lf) :
    scanEOL (cr :: rest) = lineEnd ++ scanEOL rest := by
  cases rest with
  | nil => rfl
  | cons d rest =>
    rw [scanEOL, if_pos rfl, if_neg (fun same => alone (congrArg some same))]

theorem scanEOL_lf (rest : Bytes) : scanEOL (lf :: rest) = lineEnd ++ scanEOL rest := by
  cases rest with
  | nil => rfl
  | cons d rest => rw [scanEOL, if_neg (by decide), if_pos rfl]

theorem scanEOL_other {c : UInt8} (notCr : c ≠ cr) (notLf : c ≠ lf) (rest : Bytes) :
    scanEOL (c :: rest) = c :: scanEOL rest := by
  cases rest with
  | nil => simp [scanEOL, notCr, notLf]
  | cons d rest => rw [scanEOL, if_neg notCr, if_neg notLf]

/-- Two texts are scanned apart, unless a pair is cut between them. -/
theorem scanEOL_append {front : Bytes} (apart : front.getLast? ≠ some cr ∨ rest.head? ≠ some lf) :
    scanEOL (front ++ rest) = scanEOL front ++ scanEOL rest := by
  have later : ∀ {c d : UInt8} {more : Bytes},
      (c :: d :: more).getLast? ≠ some cr ∨ rest.head? ≠ some lf →
      (d :: more).getLast? ≠ some cr ∨ rest.head? ≠ some lf :=
    fun apart => apart.imp_left (fun last => by rwa [getLast?_cons_cons] at last)
  fun_induction scanEOL front with
  | case1 => rfl
  | case2 =>
    have alone : rest.head? ≠ some lf := apart.resolve_left (fun last => last rfl)
    exact scanEOL_cr alone
  | case3 => exact scanEOL_lf rest
  | case4 _ notCr notLf => exact scanEOL_other notCr notLf rest
  | case5 more ih =>
    rw [cons_append, cons_append, scanEOL_pair, append_assoc]
    cases more with
    | nil => rfl
    | cons d more => rw [ih (later (later apart))]
  | case6 d more other ih =>
    have alone : (d :: more ++ rest).head? ≠ some lf := fun same => other (Option.some.inj same)
    rw [cons_append, scanEOL_cr alone, append_assoc, ih (later apart)]
  | case7 _ _ _ ih =>
    rw [cons_append, scanEOL_lf, append_assoc, ih (later apart)]
  | case8 _ _ _ notCr notLf ih =>
    rw [cons_append, scanEOL_other notCr notLf, ih (later apart)]
    rfl

theorem normalizeCRLF_clean (text : Bytes) : clean (normalizeCRLF text) = true := by
  unfold normalizeCRLF
  split
  · rename_i free
    exact clean_of_free free.1 free.2
  refine clean_flatMap fun c member => ?_
  -- There is no carriage return left when newlines are replaced.
  have other : c ≠ cr := by
    rintro rfl
    obtain ⟨d, _, inside⟩ := mem_flatMap.mp member
    split at inside
    · exact absurd inside (by decide)
    · rename_i differs
      exact differs (mem_singleton.mp inside).symm
  split
  · rfl
  · rename_i differs
    simp [clean, other, differs]

theorem scanEOL_clean (cleaned : clean text = true) : scanEOL text = text := by
  fun_induction clean text with
  | case1 => rfl
  | case2 =>
    rw [Bool.and_eq_true, bne_iff_ne, bne_iff_ne] at cleaned
    rw [scanEOL_other cleaned.1 cleaned.2, scanEOL]
  | case3 _ _ ih =>
    obtain ⟨follows, cleaned⟩ := Bool.and_eq_true_iff.mp cleaned
    rw [eq_of_beq follows, scanEOL_pair, ih cleaned]
    rfl
  | case4 _ _ _ notCr ih =>
    obtain ⟨notLf, cleaned⟩ := Bool.and_eq_true_iff.mp cleaned
    rw [scanEOL_other notCr (bne_iff_ne.mp notLf), ih cleaned]

theorem scanUnlessFree_eq (text : Bytes) : scanUnlessFree text = scanEOL text := by
  unfold scanUnlessFree
  split
  · rename_i free
    exact (scanEOL_clean (clean_of_free free.1 free.2)).symm
  · rfl

theorem stripCRLF_scanEOL (text : Bytes) : stripCRLF (scanEOL text) = stripCRLF text := by
  have ends : stripCRLF lineEnd = [] := rfl
  have apart (front rest : Bytes) : stripCRLF (front ++ rest) = stripCRLF front ++ stripCRLF rest :=
    filter_append front rest
  fun_induction scanEOL text with
  | case1 | case2 | case3 | case4 => rfl
  | case5 _ ih | case6 _ _ _ ih | case7 _ _ _ ih => rw [apart, ends, ih]; rfl
  | case8 c _ rest notCr notLf ih =>
    have kept (rest : Bytes) : stripCRLF (c :: rest) = c :: stripCRLF rest :=
      filter_cons_of_pos (by simp [notCr, notLf])
    rw [kept, ih, kept]

/-! ### The replacements -/

/-- What a lone octet becomes. -/
def octetEnd (c : UInt8) : Bytes := if c = cr ∨ c = lf then lineEnd else [c]

theorem scanEOL_octet (c : UInt8) : scanEOL [c] = octetEnd c := by
  unfold octetEnd
  split
  · rename_i either
    rcases either with rfl | rfl <;> rfl
  · rename_i neither
    obtain ⟨notCr, notLf⟩ := not_or.mp neither
    exact scanEOL_other notCr notLf []

/-- Without a pair each octet is rewritten for itself. -/
theorem scanEOL_unpaired (free : ¬lineEnd <:+: text) : scanEOL text = text.flatMap octetEnd := by
  induction text with
  | nil => rfl
  | cons c rest ih =>
    have apart : [c].getLast? ≠ some cr ∨ rest.head? ≠ some lf := by
      by_contra both
      obtain ⟨last, first⟩ := not_or.mp both
      obtain ⟨more, rfl⟩ := head?_eq_some_iff.mp (not_not.mp first)
      cases not_not.mp last
      exact free ⟨[], more, rfl⟩
    have tail : ¬lineEnd <:+: rest :=
      fun within => free (within.trans (suffix_cons c rest).isInfix)
    rw [← singleton_append, scanEOL_append apart, scanEOL_octet, ih tail]
    rfl

/-- The two replacements behind that of the pairs. -/
theorem replaceOctet_twice (text : Bytes) :
    replaceOctet lf lineEnd (replaceOctet cr [lf] text) = text.flatMap octetEnd := by
  rw [replaceOctet, replaceOctet, flatMap_assoc]
  refine flatMap_congr fun c _ => ?_
  by_cases return_ : c = cr
  · subst return_
    rfl
  · rw [if_neg return_, flatMap_singleton, octetEnd]
    simp only [return_, false_or]

theorem normalizeCRLF_eq (text : Bytes) : normalizeCRLF text = scanEOL text := by
  unfold normalizeCRLF
  split
  · rename_i free
    exact (scanEOL_clean (clean_of_free free.1 free.2)).symm
  rw [replaceOctet_twice]
  have free := split_free separator_lineEnd text
  have some_ := splitFuel_ne_nil lineEnd text.length text
  conv_rhs => rw [← intercalate_split lineEnd text]
  change split lineEnd text ≠ [] at some_
  generalize split lineEnd text = pieces at free some_
  induction pieces with
  | nil => exact absurd rfl some_
  | cons piece pieces ih =>
    obtain ⟨here, later⟩ := forall_mem_cons.mp free
    by_cases last : pieces = []
    · subst last
      rw [intercalate_singleton, intercalate_singleton, scanEOL_unpaired here]
    have begins : (lineEnd ++ lineEnd.intercalate pieces).head? ≠ some lf := by
      simp [lineEnd, cr, lf]
    rw [intercalate_cons last, intercalate_cons last, append_assoc, append_assoc,
      scanEOL_append (.inr begins), scanEOL_unpaired here]
    have pair : scanEOL (lineEnd ++ lineEnd.intercalate pieces) =
        lineEnd ++ scanEOL (lineEnd.intercalate pieces) := scanEOL_pair _
    rw [pair, ← ih later last, flatMap_append, flatMap_append]
    rfl

/-! ### One function -/

/-- A text whose carriage returns and newlines stand in pairs only. -/
structure Paired (text : Bytes) : Prop where
  follows : ∀ front rest, text = front ++ cr :: rest → rest.head? = some lf
  precedes : ∀ front rest, text = front ++ lf :: rest → front.getLast? = some cr

theorem paired_of_clean (cleaned : clean text = true) : Paired text := by
  fun_induction clean text with
  | case1 => constructor <;> simp
  | case2 =>
    rw [Bool.and_eq_true, bne_iff_ne, bne_iff_ne] at cleaned
    constructor
    · intro front rest same
      cases front with
      | nil => exact absurd (List.cons.inj same).1 cleaned.1
      | cons d front => simp at same
    · intro front rest same
      cases front with
      | nil => exact absurd (List.cons.inj same).1 cleaned.2
      | cons d front => simp at same
  | case3 d _ ih =>
    obtain ⟨paired, cleaned⟩ := Bool.and_eq_true_iff.mp cleaned
    obtain rfl := eq_of_beq paired
    have later := ih cleaned
    constructor
    · rintro (_ | ⟨c, _ | ⟨d, front⟩⟩) rest same
      · obtain rfl := (List.cons.inj same).2
        rfl
      · exact absurd (List.cons.inj (List.cons.inj same).2).1 (by decide)
      · exact later.follows front rest (List.cons.inj (List.cons.inj same).2).2
    · rintro (_ | ⟨c, _ | ⟨d, front⟩⟩) rest same
      · exact absurd (List.cons.inj same).1 (by decide)
      · rw [← (List.cons.inj same).1]
        rfl
      · have last := later.precedes front rest (List.cons.inj (List.cons.inj same).2).2
        cases front with
        | nil => cases last
        | cons e front => rwa [getLast?_cons_cons, getLast?_cons_cons]
  | case4 _ _ _ notCr ih =>
    obtain ⟨notLf, cleaned⟩ := Bool.and_eq_true_iff.mp cleaned
    have later := ih cleaned
    constructor
    · rintro (_ | ⟨e, front⟩) rest same
      · exact absurd (List.cons.inj same).1 notCr
      · exact later.follows front rest (List.cons.inj same).2
    · rintro (_ | ⟨e, front⟩) rest same
      · exact absurd (List.cons.inj same).1 (bne_iff_ne.mp notLf)
      · have last := later.precedes front rest (List.cons.inj same).2
        cases front with
        | nil => cases last
        | cons e front => rwa [getLast?_cons_cons]

/-- The three functions agree on every text. What they give has its line ends in pairs, is not
changed by any of them, and is the text apart from its line ends. -/
theorem normalisers_agree (text : Bytes) :
    normalizeEOL text = inboundNormalizeEOL text ∧ normalizeCRLF text = inboundNormalizeEOL text ∧
      Paired (inboundNormalizeEOL text) ∧
      (∀ normalize ∈ [inboundNormalizeEOL, normalizeEOL, normalizeCRLF],
        normalize (inboundNormalizeEOL text) = inboundNormalizeEOL text) ∧
      stripCRLF (inboundNormalizeEOL text) = stripCRLF text := by
  have inbound : ∀ text, inboundNormalizeEOL text = scanEOL text := scanUnlessFree_eq
  have cleaned : clean (inboundNormalizeEOL text) = true := by
    rw [inbound, ← normalizeCRLF_eq]
    exact normalizeCRLF_clean text
  refine ⟨rfl, ?_, paired_of_clean cleaned, ?_, ?_⟩
  · rw [normalizeCRLF_eq, inbound]
  · intro normalize listed
    have scans : normalize = scanEOL := by
      simp only [mem_cons, not_mem_nil, or_false] at listed
      rcases listed with rfl | rfl | rfl
      · exact funext scanUnlessFree_eq
      · exact funext scanUnlessFree_eq
      · exact funext normalizeCRLF_eq
    rw [scans, scanEOL_clean cleaned]
  · rw [inbound, stripCRLF_scanEOL]

end OctoMail.Mailflow.LineEnds
