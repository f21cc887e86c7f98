import OctoMail.Store.Shapes

/-!
# The keyword filters of Email/query

Email/query tests `hasKeyword` and `notKeyword` twice over: in SQL for the rows whose summary is
folded, where the name of a system flag stands for a column, and in the server for the other rows.
Email/get shows the keywords of a message from the flag registry. The registry has ten flags and
both tests know six of them, so the two do not always agree.
-/

namespace OctoMail.Jmap.KeywordFilter

open List Store

/-- The comparisons of letter case: `strings.ToLower` and `strings.EqualFold` of the server and
`lower` of the database. -/
structure Letters where
  toLower : String → String
  equalFold : String → String → Bool
  lower : String → String
  /-- The JMAP names of the flags are in lower case. -/
  names : ∀ spec ∈ flagRegistry, toLower spec.jmap = spec.jmap

/-- The spellings of a flag, and the flag. -/
abbrev FlagTable := List (List String × (Flags → Bool))

def FlagTable.find (table : FlagTable) (name : String) : Option (Flags → Bool) :=
  (table.find? (fun row => row.1.contains name)).map Prod.snd

def flagColumns : FlagTable :=
  [(["\\seen", "$seen"], Flags.seen), (["\\answered", "$answered"], Flags.answered),
    (["\\flagged", "$flagged"], Flags.flagged), (["\\draft", "$draft"], Flags.draft),
    (["\\deleted", "$deleted"], Flags.deleted), (["\\junk", "$junk"], Flags.junk)]

def liveFlags : FlagTable :=
  [(["$seen", "\\seen"], Flags.seen), (["$flagged", "\\flagged"], Flags.flagged),
    (["$answered", "\\answered"], Flags.answered), (["$draft", "\\draft"], Flags.draft),
    (["$deleted", "\\deleted"], Flags.deleted), (["$junk", "\\junk"], Flags.junk)]

section Filters

variable (letters : Letters)

def systemFlagColumn (kw : String) : Option (Flags → Bool) :=
  flagColumns.find (letters.toLower kw)

/-- The condition that `FilterKeyword` adds to the query, on a row. -/
def filterKeyword (kw : String) (want : Bool) (m : Message) : Bool :=
  match systemFlagColumn letters kw with
  | some column => column m.flags == want
  | none => (m.keywords.getD []).any (fun k => letters.lower k == letters.lower kw) == want

def hasKeyword (m : Message) (kw : String) : Bool :=
  match liveFlags.find (letters.toLower kw) with
  | some flag => flag m.flags
  | none => (m.keywords.getD []).any (fun k => letters.equalFold k kw)

/-- The part of a filter that is about keywords; the empty name is no filter. -/
structure EmailFilter where
  hasKeyword : String
  notKeyword : String

/-- A filter without texts to find in the header. -/
def matchesLiveFilter (m : Message) (f : EmailFilter) : Bool :=
  if f.hasKeyword != "" && !hasKeyword letters m f.hasKeyword then false
  else if f.notKeyword != "" && hasKeyword letters m f.notKeyword then false
  else true

/-- Whether `emailQuery` finds a row. -/
def finds (folded : Bool) (f : EmailFilter) (m : Message) : Bool :=
  if folded then
    (f.hasKeyword == "" || filterKeyword letters f.hasKeyword true m) &&
      (f.notKeyword == "" || filterKeyword letters f.notKeyword false m)
  else matchesLiveFilter letters m f

/-- Email/get shows the keyword, up to letter case. -/
def Shows (m : Message) (k : String) : Prop :=
  ∃ name ∈ m.flags.jmapKeywords (m.keywords.getD []), letters.equalFold name k = true

/-- One of the free keywords of the message is this one. -/
def Lists (m : Message) (k : String) : Prop := ∃ name ∈ m.keywords.getD [],
  letters.equalFold name k = true

/-- The comparisons give one answer on the names that are compared with `k`: those of the flags that
are set and, where SQL compares them, those of the free keywords. -/
structure Alike (m : Message) (k : String) (folded : Bool) : Prop where
  flags : ∀ spec ∈ flagRegistry, spec.get m.flags = true →
    (letters.equalFold spec.jmap k = true ↔ letters.toLower k = spec.jmap)
  keywords : folded = true → systemFlagColumn letters k = none → ∀ name ∈ m.keywords.getD [],
    (letters.equalFold name k = true ↔ letters.lower name = letters.lower k)

/-- The message does not tell the filters from the keywords shown: a flag that has no column is
not set, or a free keyword says the same; a free keyword with the spelling of a flag is there only
with the flag; and `k` is not the IMAP spelling of a flag that is set. -/
structure Agrees (m : Message) (k : String) : Prop where
  nonempty : k ≠ ""
  uncolumned : systemFlagColumn letters k = none → ∀ spec ∈ flagRegistry,
    letters.toLower k = spec.jmap → spec.get m.flags = true → Lists letters m k
  column : ∀ column, systemFlagColumn letters k = some column →
    Lists letters m k → column m.flags = true
  spelling : ∀ column, systemFlagColumn letters k = some column → column m.flags = true →
    letters.toLower k ∈ flagRegistry.map FlagSpec.jmap ∨ Lists letters m k

/-! ### The tables -/

theorem find_eq_none {table : FlagTable} {name : String}
    (absent : name ∉ table.flatMap Prod.fst) : table.find name = none := by
  rw [FlagTable.find, Option.map_eq_none_iff, find?_eq_none]
  intro row member found
  exact absent (mem_flatMap.mpr ⟨row, member, contains_iff_mem.mp found⟩)

/-- Both tests know the same flags, under the same names. -/
theorem tables_agree (name : String) : liveFlags.find name = flagColumns.find name := by
  by_cases known : name ∈ flagColumns.flatMap Prod.fst
  · simp only [flagColumns, flatMap_cons, flatMap_nil, cons_append, nil_append,
      append_nil, mem_cons, not_mem_nil, or_false] at known
    rcases known with rfl | rfl | rfl | rfl | rfl | rfl | rfl | rfl | rfl | rfl | rfl | rfl <;> rfl
  · rw [find_eq_none known, find_eq_none]
    exact fun member => known ((List.Perm.mem_iff (by decide)).mp member)

/-- A flag that both tests know under its JMAP name is the flag of the registry. -/
theorem column_get {spec : FlagSpec} (member : spec ∈ flagRegistry) {column : Flags → Bool}
    (found : flagColumns.find spec.jmap = some column) (flags : Flags) :
    spec.get flags = column flags := by
  simp only [flagRegistry, mem_cons, not_mem_nil, or_false] at member
  rcases member with rfl | rfl | rfl | rfl | rfl | rfl | rfl | rfl | rfl | rfl <;>
    first
    | cases found
      cases flags
      simp [FlagSpec.get]
    | cases found

end Filters

section Agreement

variable {letters : Letters} {m : Message} {k : String} {folded : Bool}

theorem shows_iff (alike : Alike letters m k folded) : Shows letters m k ↔
    (∃ spec ∈ flagRegistry, letters.toLower k = spec.jmap ∧ spec.get m.flags = true) ∨
      Lists letters m k := by
  simp only [Shows, Flags.jmapKeywords, mem_eraseDups, mem_append, mem_map,
    mem_filter]
  constructor
  · rintro ⟨name, ⟨spec, ⟨member, set⟩, rfl⟩ | listed, same⟩
    · exact .inl ⟨spec, member, (alike.flags spec member set).mp same, set⟩
    · exact .inr ⟨name, listed, same⟩
  · rintro (⟨spec, member, same, set⟩ | ⟨name, listed, same⟩)
    · exact ⟨spec.jmap, .inl ⟨spec, ⟨member, set⟩, rfl⟩, (alike.flags spec member set).mpr same⟩
    · exact ⟨name, .inr listed, same⟩

/-- The answer both tests give. -/
def found (letters : Letters) (m : Message) (k : String) : Bool :=
  match systemFlagColumn letters k with
  | some column => column m.flags
  | none => (m.keywords.getD []).any (fun name => letters.equalFold name k)

theorem filterKeyword_eq (alike : Alike letters m k true) (want : Bool) :
    filterKeyword letters k want m = (found letters m k == want) := by
  rw [filterKeyword, found]
  split
  · rfl
  rename_i free
  congr 1
  refine Bool.eq_iff_iff.mpr ?_
  simp only [any_eq_true, beq_iff_eq]
  exact exists_congr fun name => and_congr_right fun member =>
    (alike.keywords rfl free name member).symm

theorem hasKeyword_eq : hasKeyword letters m k = found letters m k := by
  rw [hasKeyword, found, tables_agree]
  rfl

theorem finds_has (alike : Alike letters m k folded) :
    finds letters folded ⟨k, ""⟩ m = (decide (k = "") || found letters m k) := by
  cases folded
  · simp [finds, matchesLiveFilter, hasKeyword_eq]
  · simp [finds, filterKeyword_eq alike, Bool.beq_eq_decide_eq]

theorem finds_not (alike : Alike letters m k folded) :
    finds letters folded ⟨"", k⟩ m = (decide (k = "") || !found letters m k) := by
  cases folded
  · simp [finds, matchesLiveFilter, hasKeyword_eq]
  · simp [finds, filterKeyword_eq alike, Bool.beq_eq_decide_eq]

theorem found_iff (alike : Alike letters m k folded) (some_ : k ≠ "") :
    (found letters m k = true ↔ Shows letters m k) ↔ Agrees letters m k := by
  rw [shows_iff alike, found]
  cases column : systemFlagColumn letters k with
  | none =>
    have listed : (m.keywords.getD []).any (fun name => letters.equalFold name k) = true ↔
        Lists letters m k := by simp [Lists]
    dsimp only
    rw [listed]
    constructor
    · intro agree
      exact ⟨some_, fun _ spec member same set => agree.mpr (.inl ⟨spec, member, same, set⟩),
        fun _ known => absurd (known.symm.trans column) (Option.some_ne_none _),
        fun _ known => absurd (known.symm.trans column) (Option.some_ne_none _)⟩
    · intro agrees
      constructor
      · exact .inr
      · rintro (⟨spec, member, same, set⟩ | listed)
        · exact agrees.uncolumned column spec member same set
        · exact listed
  | some get =>
    dsimp only
    have named : ∀ spec ∈ flagRegistry, letters.toLower k = spec.jmap →
        spec.get m.flags = get m.flags := by
      intro spec member same
      rw [systemFlagColumn, same] at column
      exact column_get member column m.flags
    constructor
    · intro agree
      refine ⟨some_, fun none => absurd (column.symm.trans none) (Option.some_ne_none _),
        fun other known listed => ?_, fun other known set => ?_⟩
      · cases column.symm.trans known
        exact agree.mpr (.inr listed)
      · cases column.symm.trans known
        refine (agree.mp set).imp_left ?_
        rintro ⟨spec, member, same, _⟩
        exact mem_map.mpr ⟨spec, member, same.symm⟩
    · intro agrees
      constructor
      · intro set
        refine (agrees.spelling get column set).imp_left fun spelled => ?_
        obtain ⟨spec, member, same⟩ := mem_map.mp spelled
        exact ⟨spec, member, same.symm, (named spec member same.symm).trans set⟩
      · rintro (⟨spec, member, same, set⟩ | listed)
        · rwa [named spec member same] at set
        · exact agrees.column get column listed

end Agreement

/-- Whichever way a row is tested, the filters agree with the keywords shown exactly where the
message does not tell them apart. -/
theorem keyword_filters_agree (letters : Letters) (m : Message) (k : String) (folded : Bool)
    (alike : Alike letters m k folded) :
    ((finds letters folded ⟨k, ""⟩ m = true ↔ Shows letters m k) ∧
      (finds letters folded ⟨"", k⟩ m = true ↔ ¬ Shows letters m k)) ↔ Agrees letters m k := by
  rw [finds_has alike, finds_not alike]
  by_cases empty : k = ""
  · -- Without a name both queries find every message.
    simp only [empty, decide_true, Bool.true_or, true_iff]
    constructor
    · rintro ⟨shown, hidden⟩
      exact absurd shown hidden
    · exact fun agrees => absurd rfl agrees.nonempty
  · rw [← found_iff alike empty]
    simp only [empty, decide_false, Bool.false_or]
    cases found letters m k <;> simp

/-- Letter case of ASCII text, where the three comparisons are one. -/
def asciiLetters : Letters where
  toLower text := String.ofList (lowerAscii text.toList)
  equalFold first second := lowerAscii first.toList == lowerAscii second.toList
  lower text := String.ofList (lowerAscii text.toList)
  names := by decide

/-- A message whose mail was forwarded. -/
def forwardedMessage : Message := { flags := { forwarded := true }, keywords := some ["work"] }

/-- Email/get shows `$forwarded`, and neither test finds the message by it. -/
theorem forwarded_shown_not_found :
    "$forwarded" ∈ forwardedMessage.flags.jmapKeywords (forwardedMessage.keywords.getD []) ∧
      finds asciiLetters true ⟨"$forwarded", ""⟩ forwardedMessage = false ∧
      finds asciiLetters false ⟨"$forwarded", ""⟩ forwardedMessage = false ∧
      finds asciiLetters true ⟨"", "$forwarded"⟩ forwardedMessage = true ∧
      finds asciiLetters false ⟨"", "$forwarded"⟩ forwardedMessage = true := by
  decide +kernel

theorem asciiLetters_alike (m : Message) (k : String) (folded : Bool) :
    Alike asciiLetters m k folded := by
  have fold : ∀ name, asciiLetters.equalFold name k = true ↔
      asciiLetters.lower name = asciiLetters.lower k := by
    intro name
    simp [asciiLetters, String.ofList_inj]
  constructor
  · intro spec member _
    have name : asciiLetters.lower spec.jmap = spec.jmap := asciiLetters.names spec member
    rw [fold, eq_comm, name]
    exact Iff.rfl
  · exact fun _ _ name _ => fold name

/-- The free keyword of the message is found, in another spelling too. -/
theorem keyword_filters_agree_work :
    finds asciiLetters true ⟨"WORK", ""⟩ forwardedMessage = true ∧
      Shows asciiLetters forwardedMessage "WORK" := by
  have agrees : Agrees asciiLetters forwardedMessage "WORK" := by
    have column : systemFlagColumn asciiLetters "WORK" = none := by decide +kernel
    have listed : Lists asciiLetters forwardedMessage "WORK" := ⟨"work", by decide, by decide⟩
    exact ⟨by decide, fun _ _ _ _ _ => listed,
      fun _ known => absurd (known.symm.trans column) (Option.some_ne_none _),
      fun _ _ _ => .inr listed⟩
  have found : finds asciiLetters true ⟨"WORK", ""⟩ forwardedMessage = true := by decide +kernel
  exact ⟨found, ((keyword_filters_agree asciiLetters forwardedMessage "WORK" true
    (asciiLetters_alike ..)).mpr agrees).1.mp found⟩

end OctoMail.Jmap.KeywordFilter
