import OctoMail.Imap.Search

/-!
# Search criteria as written

What IMAP makes of search criteria, apart from the parser: the words of the text, the keys that the
grammar reads from them, and what each key asks of a message. The code agrees where the keys are
clear to it. Not clear are recent messages, of which there are none, numbers that `fmt.Sscan` reads
otherwise, ages beyond 64 bits in nanoseconds, `*` as a UID, header fields whose first line does not
decide, and texts on which the index and the message differ. What has no reading may be answered all
the same: a closing parenthesis ends the criteria, and a number or a set is not checked.
-/

namespace OctoMail.Imap.Search

open Store Sets

/-! ### Words -/

inductive Word where
  | left
  | right
  | atom (text : Token)
  | quoted (text : Token)

def Word.text : Word → Token
  | .left => ['(']
  | .right => closing
  | .atom text => text
  | .quoted text => text

/-- An argument that is a text; a parenthesis is none. -/
def Word.isString : Word → Bool
  | .atom _ | .quoted _ => true
  | _ => false

def escaped (text : Token) : Token :=
  text.flatMap (fun c => if c = '"' ∨ c = '\\' then ['\\', c] else [c])

def isAtom (c : Char) : Bool := !isBlank c && !isParen c && c != '"' && c != '\\'

/-- The words of a text. An atom ends at a blank or a parenthesis. -/
inductive Words : Token → List Word → Prop where
  | nil : Words [] []
  | blank {c : Char} (blank : isBlank c = true) (behind : Words s ws) : Words (c :: s) ws
  | left (behind : Words s ws) : Words ('(' :: s) (.left :: ws)
  | right (behind : Words s ws) : Words (')' :: s) (.right :: ws)
  | quoted (text : Token) (behind : Words s ws) :
      Words ('"' :: (escaped text ++ '"' :: s)) (.quoted text :: ws)
  | atom {t : Token} (some_ : t ≠ []) (plain : ∀ c ∈ t, isAtom c = true)
      (ends : ∀ c ∈ s.head?, isBlank c = true ∨ isParen c = true) (behind : Words s ws) :
      Words (t ++ s) (.atom t :: ws)

theorem quotedText_escaped (text s : Token) :
    quotedText (escaped text ++ '"' :: s) = (text, s) := by
  induction text with
  | nil => rfl
  | cons c text ih =>
    rw [escaped, List.flatMap_cons, ← escaped]
    by_cases special : c = '"' ∨ c = '\\'
    · rw [if_pos special]
      simp [quotedText, ih]
    rw [if_neg special]
    obtain ⟨noQuote, noSlash⟩ := not_or.mp special
    rw [List.singleton_append, List.cons_append, quotedText.eq_def]
    split
    · rename_i end_
      cases end_
    · rename_i first
      exact absurd (List.cons.inj first).1 noQuote
    · rename_i first
      exact absurd (List.cons.inj first).1 noSlash
    · rename_i first
      obtain ⟨rfl, rfl⟩ := List.cons.inj first
      rw [ih]

/-- The words of a text are its tokens. -/
theorem words_tokens {s : Token} {ws : List Word} (words : Words s ws) :
    tokenizeSearch s = ws.map Word.text := by
  induction words with
  | nil => rw [tokenizeSearch, List.map_nil]
  | blank blank _ ih => rw [tokenizeSearch, if_pos blank, ih]
  | left _ ih | right _ ih =>
    rw [tokenizeSearch, if_neg (by decide), if_pos (by decide), ih]
    rfl
  | quoted _ _ ih =>
    rw [tokenizeSearch, if_neg (by decide), if_neg (by decide), if_pos rfl, quotedText_escaped, ih]
    rfl
  | @atom _ _ t some_ plain ends _ ih =>
    rw [tokenizeSearch_word some_ (fun c inside => ?_) ends, ih]
    · rfl
    · have atom := plain c inside
      simp only [isAtom, Bool.and_eq_true, Bool.not_eq_true', bne_iff_ne] at atom
      exact ⟨atom.1.1.1, atom.1.1.2, atom.1.2⟩

/-! ### Keys -/

/-- A key word, in either case. -/
def Names (t : Token) (name : String) : Prop := t.map Char.toUpper = name.toList

/-- What a key asks of a message with its number. The texts it looks up in the index are those of
`terms`; `clear` is what makes the code agree, given the texts of all the keys. -/
structure Criterion where
  means : Nat × Message → Prop
  terms : List Token := []
  clear : List Token → Prop := fun _ => True

def Criterion.not (key : Criterion) : Criterion :=
  { key with means := fun entry => ¬ key.means entry }

def Criterion.or (a b : Criterion) : Criterion where
  means entry := a.means entry ∨ b.means entry
  terms := a.terms ++ b.terms
  clear terms := a.clear terms ∧ b.clear terms

def Criterion.all (keys : List Criterion) : Criterion where
  means entry := ∀ key ∈ keys, key.means entry
  terms := keys.flatMap Criterion.terms
  clear terms := ∀ key ∈ keys, key.clear terms

/-- A message has a flag, or has it not. -/
def hasFlag (flag : Flags → Bool) (want : Bool) : Criterion :=
  { means := fun entry => flag entry.2.flags = want }

section Grammar

variable (ctx : Context) (fields : Message → Token → List Token) (msgs : List Message)

/-- No message is recent, and so none is new. -/
def recentKey : Criterion where
  means _ := False
  clear _ := msgs = []

/-- The keys without argument. -/
def plainKeys : List (String × Criterion) := [
  ("ALL", { means := fun _ => True }),
  ("SAVEDATESUPPORTED", { means := fun _ => True }),
  ("NEW", recentKey msgs),
  ("RECENT", recentKey msgs),
  ("SEEN", hasFlag Flags.seen true),
  ("UNSEEN", hasFlag Flags.seen false),
  ("ANSWERED", hasFlag Flags.answered true),
  ("UNANSWERED", hasFlag Flags.answered false),
  ("FLAGGED", hasFlag Flags.flagged true),
  ("UNFLAGGED", hasFlag Flags.flagged false),
  ("DELETED", hasFlag Flags.deleted true),
  ("UNDELETED", hasFlag Flags.deleted false),
  ("DRAFT", hasFlag Flags.draft true),
  ("UNDRAFT", hasFlag Flags.draft false)]

/-- A text contains another one, up to case. -/
def Contains (text sub : Token) : Prop := ctx.lib.toLower sub <:+: ctx.lib.toLower text

/-- One of the fields with the name contains the text. The code looks at the first line of the first
one, and takes a field that is not there for an empty one. -/
def headerKey (name sub : Token) : Criterion where
  means entry := ∃ value ∈ fields entry.2 name, Contains ctx value sub
  clear _ := ∀ m ∈ msgs, (Contains ctx (ctx.headerValue m name) sub ↔
    ∃ value ∈ fields m name, Contains ctx value sub)

def fieldKey (name : String) (arg : Word) (key : Criterion) : Prop :=
  arg.isString = true ∧ key = headerKey ctx fields msgs name.toList arg.text

/-- A text in the message or in its body. The code asks the index, for the last of the texts of the
criteria that are the same up to case. -/
def textKey (part : Token → Token) (arg : Word) (key : Criterion) : Prop :=
  arg.isString = true ∧
    key = { means := fun entry => Contains ctx (part (ctx.messageBytes entry.2)) arg.text
            terms := [arg.text]
            clear := fun terms => ∀ q,
              (terms.filter (fun t => ctx.lib.toLower t == ctx.lib.toLower arg.text)).getLast? =
                some q →
              ∀ m ∈ msgs, (ctx.fts q m = true ↔
                Contains ctx (part (ctx.messageBytes m)) arg.text) }

/-- The day of a time of the message, compared with a date. -/
def dateKey (time : Message → Nat) (compare : Int → Int → Prop) (arg : Word) (key : Criterion) :
    Prop :=
  arg.isString = true ∧ ∃ date, ctx.lib.parseSearchDate arg.text = .ok date ∧
    key = { means := fun entry => compare (ctx.lib.day (time entry.2)) date }

def decimal (digits : Token) : Int := (Nat.ofDigitChars 10 digits 0 : Nat)

/-- A decimal number of some unit, which is clear if it is read as such and within 64 bits. -/
def numberKey (unit : Int) (compare : Message → Int → Prop) (arg : Word) (key : Criterion) : Prop :=
  ∃ digits, arg = .atom digits ∧ digits ≠ [] ∧ digits.all Char.isDigit = true ∧
    key = { means := fun entry => compare entry.2 (decimal digits * unit)
            clear := fun _ => decimal digits * unit < 2 ^ 63 ∧
              ctx.lib.sscanInt64 digits = some (decimal digits) }

def largest : Nat := (msgs.map Message.uid).foldl max 0

/-- A set of UIDs, in which `*` is the largest one. The code takes it for the UID it looks at. -/
def uidKey (arg : Word) (key : Criterion) : Prop :=
  ∃ set : SeqSet, arg = .atom set.render ∧
    key = { means := fun entry => set.Denotes (largest msgs) entry.2.uid
            clear := fun _ => set.stars = false ∨
              ∀ m ∈ msgs, set.Denotes (largest msgs) m.uid }

/-- The keys with one argument. -/
def argumentKeys : List (String × (Word → Criterion → Prop)) := [
  ("FROM", fieldKey ctx fields msgs "From"),
  ("TO", fieldKey ctx fields msgs "To"),
  ("CC", fieldKey ctx fields msgs "Cc"),
  ("BCC", fieldKey ctx fields msgs "Bcc"),
  ("SUBJECT", fieldKey ctx fields msgs "Subject"),
  ("BODY", textKey ctx msgs ctx.bodyOf),
  ("TEXT", textKey ctx msgs id),
  ("SINCE", dateKey ctx Message.received (fun day date => date ≤ day)),
  ("BEFORE", dateKey ctx Message.received (fun day date => day < date)),
  ("ON", dateKey ctx Message.received (fun day date => day = date)),
  ("SAVEDSINCE", dateKey ctx Message.saveDate (fun day date => date ≤ day)),
  ("SAVEDBEFORE", dateKey ctx Message.saveDate (fun day date => day < date)),
  ("SAVEDON", dateKey ctx Message.saveDate (fun day date => day = date)),
  ("LARGER", numberKey ctx 1 (fun m n => n < m.size)),
  ("SMALLER", numberKey ctx 1 (fun m n => m.size < n)),
  ("OLDER", numberKey ctx 1000000000 (fun m n => n ≤ ctx.since m)),
  ("YOUNGER", numberKey ctx 1000000000 (fun m n => ctx.since m ≤ n)),
  ("UID", uidKey msgs)]

/-- Words read as keys, up to what is left. NOT is about the next key, OR about the next two. -/
inductive Keys : List Word → List Criterion → List Word → Prop where
  | nil (ws : List Word) : Keys ws [] ws
  | plain {t : Token} {name : String} {key : Criterion} (known : (name, key) ∈ plainKeys msgs)
      (names : Names t name) (behind : Keys ws keys rest) : Keys (.atom t :: ws) (key :: keys) rest
  | argument {t : Token} {name : String} {rule : Word → Criterion → Prop} {arg : Word}
      {key : Criterion} (known : (name, rule) ∈ argumentKeys ctx fields msgs) (names : Names t name)
      (read : rule arg key) (behind : Keys ws keys rest) :
      Keys (.atom t :: arg :: ws) (key :: keys) rest
  | header {t : Token} {name sub : Word} (names : Names t "HEADER") (field : name.isString = true)
      (value : sub.isString = true) (behind : Keys ws keys rest) :
      Keys (.atom t :: name :: sub :: ws)
        (headerKey ctx fields msgs name.text sub.text :: keys) rest
  | not {t : Token} {key : Criterion} (names : Names t "NOT")
      (behind : Keys ws (key :: keys) rest) : Keys (.atom t :: ws) (key.not :: keys) rest
  | or {t : Token} {a b : Criterion} (names : Names t "OR")
      (behind : Keys ws (a :: b :: keys) rest) : Keys (.atom t :: ws) (a.or b :: keys) rest
  | group {inner : List Criterion} (inside : Keys ws inner (.right :: after)) (some_ : inner ≠ [])
      (behind : Keys after keys rest) : Keys (.left :: ws) (.all inner :: keys) rest
  | saved (behind : Keys ws keys rest) :
      Keys (.atom ['$'] :: ws)
        ({ means := fun entry => entry.2.uid ∈ ctx.savedSearch } :: keys) rest
  | numbers (set : SeqSet) (behind : Keys ws keys rest) :
      Keys (.atom set.render :: ws)
        ({ means := fun entry => set.Denotes msgs.length entry.1 } :: keys) rest

/-- A text read as keys to its end. -/
def Reading (text : Token) (keys : List Criterion) : Prop :=
  keys ≠ [] ∧ ∃ ws, Words text ws ∧ Keys ctx fields msgs ws keys []

/-- An answer is about all of a text that IMAP reads, and has the messages that all keys ask for. -/
def AsWritten (text : Token) (answer : Option (List (Nat × Message))) : Prop :=
  ∀ found, answer = some found → ∃ keys, Reading ctx fields msgs text keys ∧
    ∀ entry, entry ∈ found ↔ entry ∈ withNumbers msgs ∧ (Criterion.all keys).means entry

/-- What is read from a text is clear. -/
def Clear (text : Token) : Prop :=
  ∀ keys, Reading ctx fields msgs text keys →
    (Criterion.all keys).clear (Criterion.all keys).terms

/-- A mailbox has fewer than 2^32 messages, with UIDs of their own. -/
structure Numbered : Prop where
  few : msgs.length < 2 ^ 32
  uids : ∀ m ∈ msgs, m.uid < 2 ^ 32
  distinct : (msgs.map Message.uid).Nodup

end Grammar

/-! ### The parser reads what IMAP reads -/

variable {name : String}

section Agreement

variable {ctx : Context} {fields : Message → Token → List Token} {msgs : List Message}
  {terms : List Token}

/-- The node of the parser for a key looks up the same texts and, if these are among those looked
up, holds of the messages the key asks for. -/
structure Agrees (ctx : Context) (msgs : List Message) (terms : List Token) (key : Criterion)
    (node : Node) : Prop where
  texts : collectTextTerms node = key.terms
  holds : (∀ q ∈ key.terms, q ∈ terms) → ∀ entry ∈ withNumbers msgs,
    (node.holds ctx (ftsHits ctx msgs terms) entry.2 entry.1 (msgs.length % 2 ^ 32) = true ↔
      key.means entry)

/-- The capital of a character is a letter of a key word only for ASCII. -/
theorem names_upper {t : Token} (lib : Library)
    (ascii : name.toList.all (fun c => decide (c.toNat < 128)) = true) (names : Names t name) :
    lib.toUpper t = name.toList := by
  rw [← names]
  refine lib.upper t fun c inside => ?_
  have small : c.toUpper.toNat < 128 := by
    have letter : c.toUpper ∈ name.toList := names ▸ List.mem_map_of_mem inside
    exact of_decide_eq_true (List.all_eq_true.mp ascii _ letter)
  unfold Char.toUpper at small
  split at small
  · rename_i letter
    have high : c.toNat ≤ 122 := letter.2
    omega
  · exact small

theorem keyword_names {t : Token} {name : String} {found : Keyword} (names : Names t name)
    (ascii : name.toList.all (fun c => decide (c.toNat < 128)) = true)
    (listed : (keywords ctx.lib).lookup name.toList = some found) : keyword ctx.lib t = found := by
  rw [keyword, names_upper ctx.lib ascii names, listed]
  rfl

theorem all_agrees : Agrees ctx msgs terms { means := fun _ => True } .all :=
  ⟨rfl, fun _ _ _ => by simp [Node.holds]⟩

theorem recent_agrees (clear : (recentKey msgs).clear terms) :
    Agrees ctx msgs terms (recentKey msgs) .all := by
  refine ⟨rfl, fun _ entry among => ?_⟩
  have inside := mem_of_mem_withNumbers among
  rw [show msgs = [] from clear] at inside
  exact absurd inside List.not_mem_nil

theorem flag_agrees {flag : SearchFlag} {get : Flags → Bool} {want : Bool}
    (same : ∀ flags, flag.get flags = get flags) :
    Agrees ctx msgs terms (hasFlag get want) (.flag flag want) :=
  ⟨rfl, fun _ _ _ => by simp [Node.holds, hasFlag, same]⟩

theorem plain_read : ∀ known ∈ plainKeys msgs, known.2.clear terms → ∀ t, Names t known.1 →
    ∃ node, keyword ctx.lib t = .leaf node ∧ Agrees ctx msgs terms known.2 node := by
  simp only [plainKeys, List.forall_mem_cons]
  refine ⟨?_, ?_, ?_, ?_, ?_, ?_, ?_, ?_, ?_, ?_, ?_, ?_, ?_, ?_,
    fun _ none_ => absurd none_ List.not_mem_nil⟩
  · exact fun _ t names => ⟨_, keyword_names names (by decide) rfl, all_agrees⟩
  · exact fun _ t names => ⟨_, keyword_names names (by decide) rfl, all_agrees⟩
  · exact fun clear t names => ⟨_, keyword_names names (by decide) rfl, recent_agrees clear⟩
  · exact fun clear t names => ⟨_, keyword_names names (by decide) rfl, recent_agrees clear⟩
  all_goals
    exact fun _ t names => ⟨_, keyword_names names (by decide) rfl, flag_agrees fun _ => rfl⟩

theorem header_agrees {name sub : Token}
    (clear : (headerKey ctx fields msgs name sub).clear terms) :
    Agrees ctx msgs terms (headerKey ctx fields msgs name sub) (.header name sub) := by
  refine ⟨rfl, fun _ entry among => ?_⟩
  rw [Node.holds, containsFold, decide_eq_true_eq]
  exact clear entry.2 (mem_of_mem_withNumbers among)

/-- The rule of a key and the reader of the parser agree on the arguments. -/
def ReadsAs (ctx : Context) (msgs : List Message) (terms : List Token)
    (rule : Word → Criterion → Prop) (read : Token → Except String Node) : Prop :=
  ∀ arg key, rule arg key → key.clear terms →
    ∃ node, read arg.text = .ok node ∧ Agrees ctx msgs terms key node

theorem field_reads :
    ReadsAs ctx msgs terms (fieldKey ctx fields msgs name)
      (fun arg => .ok (.header name.toList arg)) := by
  rintro arg key ⟨_, rfl⟩ clear
  exact ⟨_, rfl, header_agrees clear⟩

theorem text_reads (numbered : Numbered msgs) {part : Token → Token} {headers : Bool} :
    ReadsAs ctx msgs terms (textKey ctx msgs part) (fun arg => .ok (.text arg headers)) := by
  rintro arg key ⟨_, rfl⟩ clear
  refine ⟨_, rfl, rfl, fun among entry numberedEntry => ?_⟩
  have inside := mem_of_mem_withNumbers numberedEntry
  obtain ⟨q, last⟩ : ∃ q, (terms.filter (fun t => ctx.lib.toLower t ==
      ctx.lib.toLower arg.text)).getLast? = some q := by
    refine Option.isSome_iff_exists.mp (List.getLast?_isSome.mpr ?_)
    exact List.ne_nil_of_mem (List.mem_filter.mpr ⟨among arg.text List.mem_cons_self, by simp⟩)
  have hits : ftsHits ctx msgs terms (ctx.lib.toLower arg.text) =
      some ((msgs.filter (ctx.fts q)).map Message.uid) := by
    rw [ftsHits, ← List.head?_filter, List.filter_reverse, List.head?_reverse, last]
    rfl
  rw [Node.holds, hits]
  dsimp only
  rw [List.contains_iff_mem, ← clear q last entry.2 inside]
  constructor
  · intro found
    obtain ⟨m, hit, same⟩ := List.mem_map.mp found
    obtain ⟨member, hit⟩ := List.mem_filter.mp hit
    rwa [List.inj_on_of_nodup_map numbered.distinct member inside same] at hit
  · exact fun hit => List.mem_map_of_mem (List.mem_filter.mpr ⟨inside, hit⟩)

theorem date_reads {saved : Bool} {kind : DateKind} {time : Message → Nat}
    {compare : Int → Int → Prop}
    (times : ∀ m : Message, (if saved then m.saveDate else m.received) = time m)
    (compares : ∀ day date, kind.compare day date = true ↔ compare day date) :
    ReadsAs ctx msgs terms (dateKey ctx time compare)
      (fun arg => do return .date saved kind (← ctx.lib.parseSearchDate arg)) := by
  rintro arg key ⟨_, date, read, rfl⟩ _
  refine ⟨.date saved kind date, by simp only [read]; rfl, rfl, fun _ entry _ => ?_⟩
  rw [Node.holds, compares, times]

theorem size_reads {larger : Bool} {compare : Message → Int → Prop}
    (compares : ∀ (m : Message) (n : Int),
      (if larger then n < m.size else (m.size : Int) < n) ↔ compare m n) :
    ReadsAs ctx msgs terms (numberKey ctx 1 compare)
      (fun arg => .ok (.size larger ((ctx.lib.sscanInt64 arg).getD 0))) := by
  rintro arg key ⟨digits, rfl, _, _, rfl⟩ ⟨_, read⟩
  refine ⟨_, rfl, rfl, fun _ entry _ => ?_⟩
  dsimp only [Word.text]
  rw [read, Option.getD_some, Node.holds, Int.mul_one, ← compares]
  cases larger <;> simp

theorem age_reads {key : String} {older : Bool} {compare : Message → Int → Prop}
    (compares : ∀ (m : Message) (n : Int),
      (if older then n ≤ ctx.since m else ctx.since m ≤ n) ↔ compare m n) :
    ∃ read, readWithin ctx.lib key older = .argument "seconds" read ∧
      ReadsAs ctx msgs terms (numberKey ctx 1000000000 compare) read := by
  refine ⟨_, rfl, ?_⟩
  rintro arg key ⟨digits, rfl, _, _, rfl⟩ ⟨within, read⟩
  have natural : 0 ≤ decimal digits := Int.natCast_nonneg _
  refine ⟨.within older (decimal digits), ?_, rfl, fun _ entry _ => ?_⟩
  · simp only [Word.text, read]
    exact if_neg (by omega)
  · have nanoseconds : Int.bmod (decimal digits * 1000000000) (2 ^ 64) =
        decimal digits * 1000000000 := by
      rw [Int.bmod_eq_of_le] <;> omega
    rw [Node.holds, nanoseconds]
    dsimp only
    rw [← compares]
    cases older <;> simp

theorem uid_reads (numbered : Numbered msgs) :
    ReadsAs ctx msgs terms (uidKey msgs) (fun arg => .ok (.uidSet arg)) := by
  rintro arg key ⟨set, rfl, rfl⟩ clear
  refine ⟨_, rfl, rfl, fun _ entry among => ?_⟩
  have inside := mem_of_mem_withNumbers among
  rw [Node.holds, Word.text, matchSet, matchSetStar_render ctx.lib.decimal,
    Nat.mod_eq_of_lt (numbered.uids _ inside)]
  cases starred : set.stars with
  | false => exact denotes_plain starred
  | true =>
    have whole := clear.resolve_left (by simp [starred])
    exact iff_of_true (denotes_star starred) (whole _ inside)

/-- Every key with an argument is one of the parser, which agrees on the arguments. -/
theorem argument_read (numbered : Numbered msgs) : ∀ known ∈ argumentKeys ctx fields msgs,
    ∀ t, Names t known.1 → ∃ needs read, keyword ctx.lib t = .argument needs read ∧
      ReadsAs ctx msgs terms known.2 read := by
  simp only [argumentKeys, List.forall_mem_cons]
  refine ⟨?_, ?_, ?_, ?_, ?_, ?_, ?_, ?_, ?_, ?_, ?_, ?_, ?_, ?_, ?_, ?_, ?_, ?_,
    fun _ none_ => absurd none_ List.not_mem_nil⟩
  iterate 5 exact fun t names => ⟨_, _, keyword_names names (by decide) rfl, field_reads⟩
  iterate 2 exact fun t names => ⟨_, _, keyword_names names (by decide) rfl,
    text_reads numbered⟩
  iterate 6 exact fun t names => ⟨_, _, keyword_names names (by decide) rfl,
    date_reads (fun _ => rfl) (by simp [DateKind.compare])⟩
  iterate 2 exact fun t names => ⟨_, _, keyword_names names (by decide) rfl,
    size_reads (fun _ _ => Iff.rfl)⟩
  iterate 2 exact fun t names => (age_reads (fun _ _ => Iff.rfl)).elim fun read found =>
    ⟨_, read, (keyword_names names (by decide) rfl).trans found.1, found.2⟩
  exact fun t names => ⟨_, _, keyword_names names (by decide) rfl, uid_reads numbered⟩

theorem not_agrees {key : Criterion} {node : Node} (agrees : Agrees ctx msgs terms key node) :
    Agrees ctx msgs terms key.not (.not node) := by
  refine ⟨agrees.texts, fun among entry numbered => ?_⟩
  have same := agrees.holds among entry numbered
  rw [Node.holds, Bool.not_eq_true', ← Bool.not_eq_true]
  exact not_congr same

theorem or_agrees {a b : Criterion} {first second : Node} (left : Agrees ctx msgs terms a first)
    (right : Agrees ctx msgs terms b second) :
    Agrees ctx msgs terms (a.or b) (.or first second) := by
  refine ⟨congrArg₂ _ left.texts right.texts, fun among entry numbered => ?_⟩
  obtain ⟨amongFirst, amongSecond⟩ := List.forall_mem_append.mp among
  rw [Node.holds, Bool.or_eq_true]
  exact or_congr (left.holds amongFirst entry numbered) (right.holds amongSecond entry numbered)

variable {nodes : List Node}

theorem collectAll_agrees {keys : List Criterion}
    (agree : List.Forall₂ (Agrees ctx msgs terms) keys nodes) :
    collectAll nodes = keys.flatMap Criterion.terms := by
  induction agree with
  | nil => rfl
  | cons agrees _ ih => rw [collectAll, agrees.texts, ih, List.flatMap_cons]

theorem collect_conjunction (nodes : List Node) :
    collectTextTerms (conjunction nodes) = collectAll nodes := by
  match nodes with
  | [] => rfl
  | [n] => simp [conjunction, collectAll]
  | _ :: _ :: _ => rfl

theorem all_holds {keys : List Criterion} (agree : List.Forall₂ (Agrees ctx msgs terms) keys nodes)
    (among : ∀ q ∈ keys.flatMap Criterion.terms, q ∈ terms) {entry : Nat × Message}
    (numbered : entry ∈ withNumbers msgs) :
    nodes.all (fun n => n.holds ctx (ftsHits ctx msgs terms) entry.2 entry.1
        (msgs.length % 2 ^ 32)) = true ↔ ∀ key ∈ keys, key.means entry := by
  induction agree with
  | nil => simp
  | cons agrees _ ih =>
    rw [List.flatMap_cons] at among
    obtain ⟨here, later⟩ := List.forall_mem_append.mp among
    rw [List.all_cons, Bool.and_eq_true, ih later, List.forall_mem_cons,
      agrees.holds here entry numbered]

theorem conjunction_agrees {keys : List Criterion}
    (agree : List.Forall₂ (Agrees ctx msgs terms) keys nodes) :
    Agrees ctx msgs terms (.all keys) (conjunction nodes) :=
  ⟨(collect_conjunction nodes).trans (collectAll_agrees agree), fun among entry numbered => by
    rw [holds_conjunction]
    exact all_holds agree among numbered⟩

theorem keyword_dollar : keyword ctx.lib ['$'] = .other := by
  rw [keyword, ctx.lib.upper ['$'] (by simp)]
  rfl

/-- What IMAP reads as clear keys, the parser reads as nodes that agree with them. -/
theorem keys_read (numbered : Numbered msgs) {ws rest : List Word} {keys : List Criterion}
    (read : Keys ctx fields msgs ws keys rest) (clear : ∀ key ∈ keys, key.clear terms) :
    ∃ nodes, Reads ctx.lib (ws.map Word.text) nodes (rest.map Word.text) ∧
      List.Forall₂ (Agrees ctx msgs terms) keys nodes := by
  induction read with
  | nil => exact ⟨[], .nil _, .nil⟩
  | plain known names _ ih =>
    obtain ⟨here, later⟩ := List.forall_mem_cons.mp clear
    obtain ⟨node, key, agrees⟩ := plain_read _ known here _ names
    obtain ⟨nodes, reads, agree⟩ := ih later
    exact ⟨node :: nodes, .leaf key reads, .cons agrees agree⟩
  | argument known names read _ ih =>
    obtain ⟨here, later⟩ := List.forall_mem_cons.mp clear
    obtain ⟨needs, reader, key, readsAs⟩ := argument_read numbered _ known _ names
    obtain ⟨node, value, agrees⟩ := readsAs _ _ read here
    obtain ⟨nodes, reads, agree⟩ := ih later
    exact ⟨node :: nodes, .argument key value reads, .cons agrees agree⟩
  | header names _ _ _ ih =>
    obtain ⟨here, later⟩ := List.forall_mem_cons.mp clear
    obtain ⟨nodes, reads, agree⟩ := ih later
    exact ⟨_, .header (keyword_names names (by decide) rfl) reads, .cons (header_agrees here) agree⟩
  | not names _ ih =>
    obtain ⟨here, later⟩ := List.forall_mem_cons.mp clear
    obtain ⟨_, reads, agree⟩ := ih (List.forall_mem_cons.mpr ⟨here, later⟩)
    cases agree with
    | cons agrees agree =>
      exact ⟨_, .not (keyword_names names (by decide) rfl) reads, .cons (not_agrees agrees) agree⟩
  | or names _ ih =>
    obtain ⟨⟨first, second⟩, later⟩ := List.forall_mem_cons.mp clear
    obtain ⟨_, reads, agree⟩ :=
      ih (List.forall_mem_cons.mpr ⟨first, List.forall_mem_cons.mpr ⟨second, later⟩⟩)
    cases agree with
    | cons left agree => cases agree with
      | cons right agree =>
        exact ⟨_, .or (keyword_names names (by decide) rfl) reads,
          .cons (or_agrees left right) agree⟩
  | group _ _ _ inner behind =>
    obtain ⟨here, later⟩ := List.forall_mem_cons.mp clear
    obtain ⟨_, inside, agreeInside⟩ := inner here
    obtain ⟨_, reads, agree⟩ := behind later
    have key : keyword ctx.lib ['('] = .open := @keyword_names ctx _ "(" _ rfl (by decide) rfl
    exact ⟨_, .group key inside reads, .cons (conjunction_agrees agreeInside) agree⟩
  | saved _ ih =>
    obtain ⟨_, reads, agree⟩ := ih (List.forall_mem_cons.mp clear).2
    refine ⟨_, .saved keyword_dollar reads, .cons ⟨rfl, fun _ entry _ => ?_⟩ agree⟩
    rw [Node.holds, List.contains_iff_mem]
  | numbers set _ ih =>
    obtain ⟨_, reads, agree⟩ := ih (List.forall_mem_cons.mp clear).2
    refine ⟨_, .seqSet (keyword_set ctx.lib set) (set_ne set (by decide)) (isSeqSet_set set) reads,
      .cons ⟨rfl, fun _ entry _ => ?_⟩ agree⟩
    rw [Node.holds, Word.text, matchSetStar_render ctx.lib.decimal, Nat.mod_eq_of_lt numbered.few]

/-- A text with a reading is answered with the messages that its keys ask for. -/
theorem evaluate_reading (numbered : Numbered msgs) {text : Token} {keys : List Criterion}
    (reading : Reading ctx fields msgs text keys)
    (clear : (Criterion.all keys).clear (Criterion.all keys).terms) :
    ∃ found, evaluate ctx msgs (tokenizeSearch text) = some found ∧
      ∀ entry, entry ∈ found ↔ entry ∈ withNumbers msgs ∧ (Criterion.all keys).means entry := by
  obtain ⟨_, ws, words, read⟩ := reading
  obtain ⟨nodes, reads, agree⟩ := keys_read numbered read clear
  have agrees := conjunction_agrees agree
  refine ⟨matching ctx msgs (conjunction nodes), ?_, fun entry => ?_⟩
  · rw [words_tokens words]
    exact evaluate_reads reads (.inl rfl)
  · rw [matching, List.mem_filter, agrees.texts]
    exact and_congr_right fun among => agrees.holds (fun _ inside => inside) entry among

theorem evaluate_asWritten (numbered : Numbered msgs) {text : Token}
    (clear : Clear ctx fields msgs text) : let answer := evaluate ctx msgs (tokenizeSearch text)
    ((∃ keys, Reading ctx fields msgs text keys) → answer ≠ none) ∧
      (AsWritten ctx fields msgs text answer ↔
        answer = none ∨ ∃ keys, Reading ctx fields msgs text keys) := by
  intro answer
  refine ⟨fun ⟨keys, reading⟩ => ?_, fun written => ?_, ?_⟩
  · obtain ⟨found, answered, _⟩ := evaluate_reading numbered reading (clear keys reading)
    exact Option.ne_none_iff_exists'.mpr ⟨found, answered⟩
  · cases same : answer with
    | none => exact .inl rfl
    | some found =>
      obtain ⟨keys, reading, _⟩ := written found same
      exact .inr ⟨keys, reading⟩
  · rintro (refused | ⟨keys, reading⟩) found same
    · cases refused.symm.trans same
    · obtain ⟨_, answered, members⟩ := evaluate_reading numbered reading (clear keys reading)
      cases answered.symm.trans same
      exact ⟨keys, reading, members⟩

end Agreement

/-- A message that is seen and not flagged, of one octet. -/
def seenMessage : Message :=
  { id := 1, accountId := 7, mailboxId := 1, uid := 1, size := 1, flags := { seen := true } }

theorem right_first {rest : Token} {ws : List Word} (words : Words (')' :: rest) ws) :
    ∃ behind, ws = .right :: behind := by
  generalize start : ')' :: rest = text at words
  cases words with
  | nil | left | quoted => cases start
  | blank blank =>
    cases start
    exact absurd blank (by decide)
  | right => exact ⟨_, rfl⟩
  | @atom s ws t some_ plain =>
    obtain ⟨c, more, rfl⟩ := List.exists_cons_of_ne_nil some_
    obtain rfl := (List.cons.inj start).1
    exact absurd (plain ')' List.mem_cons_self) (by decide)

theorem names_eq {t : Token} (names : Names t name) :
    name = String.ofList (t.map Char.toUpper) := by
  rw [names, String.ofList_toList]

/-- The key LARGER is followed by a number. -/
theorem larger_number {ctx : Context} {fields : Message → Token → List Token} {msgs : List Message}
    {first second : Word} {keys : List Criterion} (named : first.text = "LARGER".toList)
    (read : Keys ctx fields msgs [first, second] keys []) :
    second.text.all Char.isDigit = true := by
  cases read with
  | plain known names =>
    subst named
    obtain rfl := names_eq names
    simp [plainKeys] at known
  | argument known names read =>
    subst named
    obtain rfl := names_eq names
    simp [argumentKeys] at known
    subst known
    obtain ⟨digits, rfl, _, all, _⟩ := read
    exact all
  | not names | or names =>
    subst named
    exact absurd (names_eq names) (by decide)
  | group | saved => cases named
  | numbers set =>
    have code := @set_plain set 'L' (by rw [show set.render = "LARGER".toList from named]; simp)
    exact absurd code (by decide)

end OctoMail.Imap.Search
