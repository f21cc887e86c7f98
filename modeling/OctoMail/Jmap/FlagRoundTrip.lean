import OctoMail.Imap.Commands
import OctoMail.Mailflow.Header
import OctoMail.Store.FlagNames

/-!
# Flags as names and back

IMAP and JMAP show the flags of a message as names, followed by its keywords, and read them back
through one registry (`IMAPFlags`, `JMAPKeywords` and `SetByName` in `core/store/shapes.go`,
`parseFlagList` and `applyFlags` in `protocol/imapd/store.go`, `applyJMAPKeywords` in
`protocol/jmapd/mail.go`). A flag is compared by what each entry of the registry reads of it, so
that setting flags by a list of names is described name by name.
-/

namespace OctoMail.Jmap.FlagRoundTrip

open List Store

/-! ### Showing and reading -/

/-- `IMAPFlags`. -/
def imapFlags (flags : Flags) (keywords : List String) : List String :=
  (flagRegistry.filter (fun spec => spec.get flags)).map FlagSpec.imap ++ keywords

/-- The list in parentheses, as FETCH shows it. -/
def showFlags (names : List String) : List Char :=
  '(' :: ([' '].intercalate (names.map String.toList) ++ [')'])

/-- `strings.TrimPrefix` and `strings.TrimSuffix` of the parentheses. -/
def trimParentheses (text : List Char) : List Char :=
  let text := if text.head? = some '(' then text.tail else text
  if text.getLast? = some ')' then text.dropLast else text

/-- `strings.Fields`. -/
def fields (text : List Char) : List String :=
  ((text.splitOnP Utf8.isSpace).filter (· != [])).map String.ofList

def parseFlagList (text : List Char) : List String :=
  fields (trimParentheses (Mailflow.trimSpace (String.ofList text)).toList)

/-! ### Lists of names as text -/

/-- A name that a flag list can hold. -/
def Word (name : String) : Prop := name ≠ "" ∧ ∀ c ∈ name.toList, Utf8.isSpace c = false

theorem splitOnP_intercalate {words : List (List Char)} (some_ : words ≠ [])
    (solid : ∀ word ∈ words, ∀ c ∈ word, Utf8.isSpace c = false) :
    ([' '].intercalate words).splitOnP Utf8.isSpace = words := by
  induction words with
  | nil => exact absurd rfl some_
  | cons word words ih =>
    obtain ⟨here, there⟩ := forall_mem_cons.mp solid
    cases words with
    | nil => simpa [List.intercalate] using splitOnP_eq_singleton here
    | cons next words =>
      have joined : [' '].intercalate (word :: next :: words) =
          word ++ ' ' :: [' '].intercalate (next :: words) := by
        simp [List.intercalate, List.intersperse]
      rw [joined, splitOnP_append_cons_of_forall_mem here ' ' (by decide),
        ih (cons_ne_nil _ _) there]

theorem trimSpace_parentheses (text : List Char) :
    (Mailflow.trimSpace (String.ofList ('(' :: (text ++ [')'])))).toList =
      '(' :: (text ++ [')']) := by
  have opening : Utf8.isSpace '(' = false := by decide
  have closing : Utf8.isSpace ')' = false := by decide
  rw [Mailflow.trimSpace, String.toList_ofList, String.toList_ofList,
    dropWhile_cons_of_neg (by simp [opening]), reverse_cons, reverse_append]
  simp [closing]

variable {names keywords : List String} {flags : Flags}

/-- A list of names is read as it was shown. -/
theorem parseFlagList_show (words : ∀ name ∈ names, Word name) :
    parseFlagList (showFlags names) = names := by
  rw [parseFlagList, showFlags, trimSpace_parentheses]
  have inside : trimParentheses ('(' :: ([' '].intercalate (names.map String.toList) ++ [')'])) =
      [' '].intercalate (names.map String.toList) := by
    simp [trimParentheses]
  rw [inside, fields]
  cases names with
  | nil => rfl
  | cons name names =>
    have solid : ∀ word ∈ (name :: names).map String.toList, ∀ c ∈ word,
        Utf8.isSpace c = false := by
      intro word member
      obtain ⟨source, listed, rfl⟩ := mem_map.mp member
      exact (words source listed).2
    have kept : ((name :: names).map String.toList).filter (· != []) =
        (name :: names).map String.toList := by
      refine filter_eq_self.mpr fun word member => bne_iff_ne.mpr fun empty => ?_
      obtain ⟨source, listed, rfl⟩ := mem_map.mp member
      exact (words source listed).1 (String.toList_eq_nil_iff.mp empty)
    rw [splitOnP_intercalate (by simp) solid, kept, map_map]
    exact (map_congr_left fun source _ => String.ofList_toList).trans (map_id _)

/-! ### Flags by a list of names -/

/-- Set the flags that names stand for. -/
def setFlags (flags : Flags) (value : Bool) (names : List String) : Flags :=
  names.foldl (fun flags name => (flags.setByName name value).getD flags) flags

/-- A flag is set or cleared if one of the names stands for it. -/
theorem flagShown_setFlags (flags : Flags) (value : Bool) (names : List String) (flag : String) :
    flagShown (setFlags flags value names) flag =
      if ∃ name ∈ names, flagName name = some flag then value else flagShown flags flag := by
  induction names generalizing flags with
  | nil => simp [setFlags]
  | cons name names ih =>
    have first : flagShown ((flags.setByName name value).getD flags) flag =
        if flagName name = some flag then value else flagShown flags flag := by
      rw [setByName_eq, flagName]
      rcases found : specOf name with _ | spec
      · simp
      · have shown := flagShown_set flags value spec (mem_of_find?_eq_some found) flag
        simpa [eq_comm] using shown
    have rest := ih ((flags.setByName name value).getD flags)
    rw [first] at rest
    rw [setFlags, foldl_cons]
    refine rest.trans ?_
    simp only [exists_mem_cons_iff]
    by_cases here : flagName name = some flag <;> by_cases later : ∃ name ∈ names,
      flagName name = some flag <;> simp [here, later]

theorem flagShown_none (flag : String) : flagShown {} flag = false := by
  simp [flagShown_eq, flagTable_eq]

/-- The flags shown under names that stand for exactly these flags. -/
theorem setFlags_shown
    (exactly : ∀ flag, (∃ name ∈ names, flagName name = some flag) ↔ flagShown flags flag = true) :
    setFlags {} true names = flags := by
  refine flags_ext fun flag => ?_
  rw [flagShown_setFlags, flagShown_none]
  simp only [exactly flag]
  cases flagShown flags flag <;> rfl

/-- The names of the flags that are set, in either spelling, and free names. -/
theorem names_exactly
    (free : ∀ keyword ∈ keywords, flagName keyword = none) {spelling : FlagSpec → String}
    (known : ∀ spec ∈ flagRegistry, flagName (spelling spec) = some spec.jmap) (flag : String) :
    (∃ name ∈ (flagRegistry.filter (fun spec => spec.get flags)).map spelling ++ keywords,
      flagName name = some flag) ↔ flagShown flags flag = true := by
  simp only [mem_append, mem_map, mem_filter, flagShown, any_eq_true,
    Bool.and_eq_true, beq_iff_eq]
  constructor
  · rintro ⟨name, ⟨spec, ⟨member, set⟩, rfl⟩ | listed, stands⟩
    · rw [known spec member] at stands
      exact ⟨spec, member, set, Option.some.inj stands⟩
    · rw [free name listed] at stands
      cases stands
  · rintro ⟨spec, member, set, rfl⟩
    exact ⟨spelling spec, .inl ⟨spec, ⟨member, set⟩, rfl⟩, known spec member⟩

/-! ### Keywords by a list of names -/

section Keywords

variable (equalFold : String → String → Bool)

/-- The free names of a list. -/
def freeNames (names : List String) : List String :=
  names.filter (fun name => (flagName name).isNone)

theorem setFlag_flags (m : Message) (name : String) (value : Bool) :
    (Imap.setFlag equalFold m name value).flags = (m.flags.setByName name value).getD m.flags := by
  rw [Imap.setFlag]
  cases m.flags.setByName name value with
  | some flags => rfl
  | none =>
    simp only [Option.getD_none]
    split
    · split <;> rfl
    · rfl

theorem foldl_flags (names : List String) (value : Bool) (m : Message) :
    (names.foldl (fun m name => Imap.setFlag equalFold m name value) m).flags =
      setFlags m.flags value names := by
  induction names generalizing m with
  | nil => rfl
  | cons name names ih =>
    rw [foldl_cons, ih, setFlag_flags]
    rfl

theorem setFlag_known {m : Message} {name : String} {value : Bool}
    (known : (flagName name).isSome = true) :
    (Imap.setFlag equalFold m name value).keywords = m.keywords := by
  obtain ⟨spec, found⟩ : ∃ spec, specOf name = some spec := by
    rw [flagName, Option.isSome_map] at known
    exact Option.isSome_iff_exists.mp known
  rw [Imap.setFlag, setByName_eq, found]
  rfl

theorem setFlag_free {m : Message} {name : String} {value : Bool} (free : flagName name = none) :
    (Imap.setFlag equalFold m name value).keywords.getD [] =
      if value then
        if (m.keywords.getD []).any (fun keyword => equalFold keyword name) then m.keywords.getD []
        else m.keywords.getD [] ++ [name]
      else (m.keywords.getD []).filter (fun keyword => !equalFold keyword name) := by
  have missing : m.flags.setByName name value = none := by
    rw [setByName_eq, Option.map_eq_none_iff.mp free]
    rfl
  rw [Imap.setFlag, missing]
  cases value with
  | true =>
    by_cases listed : (m.keywords.getD []).any (fun keyword => equalFold keyword name) = true <;>
      simp [Imap.contains, listed]
  | false =>
    simp only [Bool.false_eq_true, if_false, Imap.remove]
    split
    · rename_i empty
      exact (isEmpty_iff.mp empty).symm
    · rfl

theorem freeNames_cons (name : String) (names : List String) : freeNames (name :: names) =
    if flagName name = none then name :: freeNames names else freeNames names := by
  rw [freeNames, filter_cons]
  simp only [Option.isNone_iff_eq_none, freeNames]

variable {equalFold}

/-- Names that are new and differ from each other are all added. -/
theorem add_keywords {m : Message}
    (new : ∀ keyword ∈ m.keywords.getD [], ∀ name ∈ freeNames names, equalFold keyword name = false)
    (apart : (freeNames names).Pairwise (fun first second => equalFold first second = false)) :
    (names.foldl (fun m name => Imap.setFlag equalFold m name true) m).keywords.getD [] =
      m.keywords.getD [] ++ freeNames names := by
  induction names generalizing m with
  | nil => exact (append_nil _).symm
  | cons name names ih =>
    rw [freeNames_cons] at new apart ⊢
    rw [foldl_cons]
    by_cases free : flagName name = none
    · simp only [if_pos free, pairwise_cons, forall_mem_cons] at new apart ⊢
      have missing : (m.keywords.getD []).any (fun keyword => equalFold keyword name) = false :=
        any_eq_false.mpr fun keyword member => by simp [(new keyword member).1]
      have added := @setFlag_free equalFold m name true free
      rw [if_pos rfl, missing, if_neg Bool.false_ne_true] at added
      rw [ih _ apart.2, added, append_assoc, singleton_append]
      intro keyword member other later
      rw [added, mem_append, mem_singleton] at member
      rcases member with old | rfl
      · exact (new keyword old).2 other later
      · exact apart.1 other later
    · simp only [if_neg free] at new apart ⊢
      have kept := @setFlag_known equalFold m name true (Option.isSome_iff_ne_none.mpr free)
      rw [ih (by rwa [kept]) apart, kept]

/-- What adding names to keywords leaves: the keywords and some of the names. -/
theorem add_keywords_some (names : List String) (m : Message) :
    ∃ added, added ⊆ freeNames names ∧
      (names.foldl (fun m name => Imap.setFlag equalFold m name true) m).keywords.getD [] =
        m.keywords.getD [] ++ added := by
  induction names generalizing m with
  | nil => exact ⟨[], nil_subset _, (append_nil _).symm⟩
  | cons name names ih =>
    rw [foldl_cons, freeNames_cons]
    obtain ⟨later, listed, rest⟩ := ih (Imap.setFlag equalFold m name true)
    by_cases free : flagName name = none
    · rw [setFlag_free equalFold free, if_pos rfl] at rest
      rw [if_pos free]
      split at rest
      · exact ⟨later, subset_cons_of_subset _ listed, rest⟩
      · refine ⟨name :: later, cons_subset_cons _ listed, ?_⟩
        rw [rest, append_assoc, singleton_append]
    · rw [setFlag_known equalFold (Option.isSome_iff_ne_none.mpr free)] at rest
      rw [if_neg free]
      exact ⟨later, listed, rest⟩

theorem remove_keywords (names : List String) (m : Message) :
    (names.foldl (fun m name => Imap.setFlag equalFold m name false) m).keywords.getD [] =
      (m.keywords.getD []).filter (fun keyword =>
        (freeNames names).all (fun name => !equalFold keyword name)) := by
  induction names generalizing m with
  | nil => simp [freeNames]
  | cons name names ih =>
    rw [foldl_cons, freeNames_cons, ih]
    by_cases free : flagName name = none
    · rw [setFlag_free equalFold free, if_neg Bool.false_ne_true, filter_filter, if_pos free]
      refine filter_congr fun keyword _ => ?_
      rw [all_cons, Bool.and_comm]
    · rw [setFlag_known equalFold (Option.isSome_iff_ne_none.mpr free), if_neg free]

end Keywords

/-- A map of keywords that are all true. -/
theorem applyJMAPKeywords_true (entries : List (String × Bool)) (m : Message)
    (set : ∀ entry ∈ entries, entry.2 = true) :
    (applyJMAPKeywords m entries).flags = setFlags m.flags true (entries.map Prod.fst) ∧
      (applyJMAPKeywords m entries).keywords.getD [] =
        m.keywords.getD [] ++ freeNames (entries.map Prod.fst) := by
  induction entries generalizing m with
  | nil => exact ⟨rfl, (append_nil _).symm⟩
  | cons entry entries ih =>
    obtain ⟨name, value⟩ := entry
    obtain ⟨rfl, there⟩ := forall_mem_cons.mp set
    rw [applyJMAPKeywords, foldl_cons, map_cons, freeNames_cons, setFlags, foldl_cons]
    rcases found : specOf name with _ | spec
    · have free : flagName name = none := by rw [flagName, found]; rfl
      have missing : m.flags.setByName name true = none := by rw [setByName_eq, found]; rfl
      obtain ⟨flags, keywords⟩ := ih
        { m with keywords := some (m.keywords.getD [] ++ [name]) } there
      simp only [missing, if_true, if_pos free, Option.getD_none]
      refine ⟨flags, keywords.trans ?_⟩
      rw [Option.getD_some, append_assoc, singleton_append]
    · have known : flagName name ≠ none := by rw [flagName, found]; simp
      have here : m.flags.setByName name true = some (spec.set m.flags true) := by
        rw [setByName_eq, found]
        rfl
      obtain ⟨flags, keywords⟩ := ih { m with flags := spec.set m.flags true } there
      simp only [here, if_neg known, Option.getD_some]
      exact ⟨flags, keywords⟩

/-! ### Round trips -/

/-- Keywords that a message can carry beside its flags. -/
structure Free (equalFold : String → String → Bool) (keywords : List String) : Prop where
  words : ∀ keyword ∈ keywords, Word keyword
  free : ∀ keyword ∈ keywords, flagName keyword = none
  apart : keywords.Pairwise (fun first second => equalFold first second = false)

/-- A name stands neither for a flag of the message that is set nor for one of its keywords. -/
def Absent (equalFold : String → String → Bool) (m : Message) (name : String) : Prop :=
  (∀ flag, flagName name = some flag → flagShown m.flags flag = false) ∧
    (flagName name = none → ∀ keyword ∈ m.keywords.getD [], equalFold keyword name = false)

/-- The message has these flags and this set of keywords. -/
def Carries (m : Message) (flags : Flags) (keywords : List String) : Prop :=
  m.flags = flags ∧ ∀ keyword, keyword ∈ m.keywords.getD [] ↔ keyword ∈ keywords

section RoundTrips

variable {equalFold : String → String → Bool} (m : Message)

theorem freeNames_append {spelling : FlagSpec → String} {flags : Flags} {keywords : List String}
    (known : ∀ spec ∈ flagRegistry, flagName (spelling spec) = some spec.jmap)
    (free : ∀ keyword ∈ keywords, flagName keyword = none) :
    freeNames ((flagRegistry.filter (fun spec => spec.get flags)).map spelling ++ keywords) =
      keywords := by
  rw [freeNames, filter_append, filter_eq_nil_iff.mpr, nil_append]
  · exact filter_eq_self.mpr fun keyword member => by rw [free keyword member]; rfl
  · intro name member
    obtain ⟨spec, listed, rfl⟩ := mem_map.mp member
    rw [known spec (mem_filter.mp listed).1]
    exact Bool.false_ne_true

/-- What FETCH shows, STORE with FLAGS restores. -/
theorem replace_carries (flags : Flags) (free : Free equalFold keywords) :
    Carries (Imap.applyFlags equalFold m .replace
      (parseFlagList (showFlags (imapFlags flags keywords)))) flags keywords := by
  have words : ∀ name ∈ imapFlags flags keywords, Word name := by
    intro name member
    rcases mem_append.mp member with flag | keyword
    · obtain ⟨spec, listed, rfl⟩ := mem_map.mp flag
      have each : ∀ spec ∈ flagRegistry, spec.imap ≠ "" ∧
          spec.imap.toList.all (fun c => !Utf8.isSpace c) = true := by decide
      obtain ⟨text, free⟩ := each spec (mem_filter.mp listed).1
      exact ⟨text, by simpa using free⟩
    · exact free.words name keyword
  have names := @freeNames_append FlagSpec.imap flags keywords flagName_imap free.free
  rw [parseFlagList_show words, Imap.applyFlags]
  refine ⟨?_, fun keyword => ?_⟩
  · rw [foldl_flags]
    exact setFlags_shown (names_exactly free.free flagName_imap)
  · rw [add_keywords (by simp), imapFlags, names]
    · exact Iff.rfl
    · rw [imapFlags, names]
      exact free.apart

/-- What Email/get shows, Email/set restores, in whatever order the map is read. -/
theorem keywords_carry (free : ∀ keyword ∈ keywords, flagName keyword = none)
    {entries : List (String × Bool)}
    (shown : entries.Perm ((flags.jmapKeywords keywords).map (fun name => (name, true)))) :
    Carries (applyJMAPKeywords { m with flags := {}, keywords := none } entries) flags
      keywords := by
  have set : ∀ entry ∈ entries, entry.2 = true := by
    intro entry member
    obtain ⟨name, _, rfl⟩ := mem_map.mp (shown.mem_iff.mp member)
    rfl
  have listed : ∀ name, name ∈ entries.map Prod.fst ↔
      name ∈ (flagRegistry.filter (fun spec => spec.get flags)).map FlagSpec.jmap ++ keywords := by
    intro name
    have same := (shown.map Prod.fst).mem_iff (a := name)
    rwa [map_map, Function.comp_def, map_id', Flags.jmapKeywords, mem_eraseDups] at same
  obtain ⟨result, added⟩ := applyJMAPKeywords_true entries
    { m with flags := {}, keywords := none } set
  refine ⟨result.trans (setFlags_shown fun flag => ?_), fun keyword => ?_⟩
  · simp only [listed]
    exact names_exactly free flagName_jmap flag
  · have names := congrArg (keyword ∈ ·)
      (@freeNames_append FlagSpec.jmap flags keywords flagName_jmap free)
    rw [added, Option.getD_none, nil_append, ← names]
    simp only [freeNames, mem_filter, listed]

/-- Names that are new to a message leave no trace when they are added and removed. -/
theorem restored (folds : ∀ name, equalFold name name = true)
    (absent : ∀ name ∈ names, Absent equalFold m name) :
    Carries (Imap.applyFlags equalFold (Imap.applyFlags equalFold m .add names) .remove names)
      m.flags (m.keywords.getD []) := by
  rw [Imap.applyFlags, Imap.applyFlags]
  refine ⟨?_, fun keyword => ?_⟩
  · rw [foldl_flags, foldl_flags]
    refine flags_ext fun flag => ?_
    rw [flagShown_setFlags, flagShown_setFlags]
    split
    · rename_i named
      obtain ⟨name, member, stands⟩ := named
      exact ((absent name member).1 flag stands).symm
    · rfl
  · obtain ⟨added, among, keywords⟩ := @add_keywords_some equalFold names m
    rw [remove_keywords, keywords, filter_append, mem_append, mem_filter,
      mem_filter]
    constructor
    · rintro (⟨old, _⟩ | ⟨new, kept⟩)
      · exact old
      · -- A name that was added is among those that are removed.
        have gone := all_eq_true.mp kept keyword (among new)
        rw [folds keyword] at gone
        cases gone
    · refine fun old => .inl ⟨old, all_eq_true.mpr fun name member => ?_⟩
      obtain ⟨inside, free⟩ := mem_filter.mp member
      have apart := (absent name inside).2 (Option.isNone_iff_eq_none.mp free) keyword old
      rw [apart]
      rfl

end RoundTrips

/-- Flags and keywords survive a round trip through IMAP, where keywords are not empty, and through
JMAP, where any name that is no flag's may be a keyword. Names that are added to a message that has
none of them are gone when they are removed. -/
theorem flags_round_trip {equalFold : String → String → Bool}
    (folds : ∀ name, equalFold name name = true) (m : Message) :
    (∀ (flags : Flags) (keywords : List String), Free equalFold keywords →
      Carries (Imap.applyFlags equalFold m .replace
        (parseFlagList (showFlags (imapFlags flags keywords)))) flags keywords) ∧
    (∀ (flags : Flags) (keywords : List String),
      (∀ keyword ∈ keywords, flagName keyword = none) → ∀ entries : List (String × Bool),
        entries.Perm ((flags.jmapKeywords keywords).map (fun name => (name, true))) →
        Carries (applyJMAPKeywords { m with flags := {}, keywords := none } entries) flags
          keywords) ∧
    ∀ names : List String, (∀ name ∈ names, Absent equalFold m name) →
      Carries (Imap.applyFlags equalFold (Imap.applyFlags equalFold m .add names) .remove names)
        m.flags (m.keywords.getD []) :=
  ⟨fun flags _ free => replace_carries m flags free,
    fun _ _ free _ shown => keywords_carry m free shown, fun _ absent => restored m folds absent⟩

/-- An empty keyword is shown as two blanks and not read back. -/
theorem empty_keyword_lost :
    flagName "" = none ∧ (∀ c ∈ "".toList, Utf8.isSpace c = false ∧ c ≠ '(' ∧ c ≠ ')') ∧
      showFlags (imapFlags { seen := true } [""]) = "(\\Seen )".toList ∧
      Imap.applyFlags (· == ·) {} .replace
          (parseFlagList (showFlags (imapFlags { seen := true } [""]))) =
        { flags := { seen := true }, keywords := none } := by
  refine ⟨by decide +kernel, by simp, by decide +kernel⟩

theorem flags_round_trip_work :
    Carries (Imap.applyFlags (· == ·) {} .replace
      (parseFlagList (showFlags (imapFlags { flagged := true } ["Work", "$Later"]))))
      { flagged := true } ["Work", "$Later"] := by
  refine (flags_round_trip (fun name => beq_self_eq_true name) {}).1 { flagged := true }
    ["Work", "$Later"] ⟨?_, ?_, ?_⟩
  · intro keyword member
    have each : ∀ keyword ∈ ["Work", "$Later"], keyword ≠ "" ∧
        keyword.toList.all (fun c => !Utf8.isSpace c) = true := by decide +kernel
    obtain ⟨text, free⟩ := each keyword member
    exact ⟨text, by simpa using free⟩
  · decide +kernel
  · decide +kernel

end OctoMail.Jmap.FlagRoundTrip
