import Mathlib.Data.List.Infix
import OctoMail.Imap.Sets

/-!
# Search criteria

The criteria of SEARCH, SORT, THREAD and ESEARCH (`protocol/imapd/search.go`, with the front
ends in `fetch.go` and `sort.go`): the tokens of the argument, the tree the recursive descent
builds from them, and the messages of a mailbox that the tree holds of. Which lines the answer
is printed on is left out.

`Reads` is the grammar that the parser follows, over tokens: any token is an argument, be it a
number, a set or a parenthesis, and parentheses may be empty.
-/

namespace OctoMail.Imap.Search

open Store Sets

abbrev Token := List Char

/-- What the criteria take from Go's libraries. `fmt.Sscan` into a variable that holds zero
leaves zero there when it fails; a decimal number within the range it reads as such. -/
structure Library where
  upperRune : Char → Char
  lowerRune : Char → Char
  quote : Token → String
  sscanUint32 : Token → Nat
  sscanInt64 : Token → Option Int
  parseSearchDate : Token → Except String Int
  /-- The day of a time in UTC. -/
  day : Nat → Int
  ascii : ∀ c, c.toNat < 128 → upperRune c = c.toUpper
  blank : ∀ c, upperRune c = ' ' → c = ' '
  decimal : ∀ n, n < 2 ^ 32 → sscanUint32 (Nat.toDigits 10 n) = n

/-- `strings.ToUpper`, which goes by characters. -/
def Library.toUpper (lib : Library) (text : Token) : Token := text.map lib.upperRune

def Library.toLower (lib : Library) (text : Token) : Token := text.map lib.lowerRune

theorem Library.upper (lib : Library) (text : Token) (ascii : ∀ c ∈ text, c.toNat < 128) :
    lib.toUpper text = text.map Char.toUpper :=
  List.map_congr_left fun c inside => lib.ascii c (ascii c inside)

/-! ### Tokens -/

/-- The text up to the closing quote, with what follows it. -/
def quotedText : List Char → Token × List Char
  | [] => ([], [])
  | '"' :: rest => ([], rest)
  | '\\' :: c :: rest => let (text, after) := quotedText rest; (c :: text, after)
  | c :: rest => let (text, after) := quotedText rest; (c :: text, after)

def isBlank (c : Char) : Bool := c == ' ' || c == '\t'
def isParen (c : Char) : Bool := c == '(' || c == ')'

theorem quotedText_le (s : List Char) : (quotedText s).2.length ≤ s.length := by
  fun_induction quotedText s <;> simp_all <;> omega

def tokenizeSearch (s : List Char) : List Token :=
  match s with
  | [] => []
  | c :: rest =>
      if isBlank c then tokenizeSearch rest
      else if isParen c then [c] :: tokenizeSearch rest
      else if c = '"' then (quotedText rest).1 :: tokenizeSearch (quotedText rest).2
      else
        (c :: rest.takeWhile (fun c => !isBlank c && !isParen c)) ::
          tokenizeSearch (rest.dropWhile (fun c => !isBlank c && !isParen c))
termination_by s.length
decreasing_by
  · simp
  · simp
  · have := quotedText_le rest
    simp
    omega
  · have := (List.dropWhile_suffix (l := rest) fun c => !isBlank c && !isParen c).length_le
    simp
    omega

/-! ### Criteria -/

inductive SearchFlag where
  | seen
  | answered
  | flagged
  | deleted
  | draft
deriving DecidableEq, Repr

inductive DateKind where
  | since
  | before
  | on
deriving DecidableEq, Repr

/-- The nodes of a criteria tree. A date is that of the arrival or the one saved. -/
inductive Node where
  | all
  | and (nodes : List Node)
  | or (a b : Node)
  | not (n : Node)
  | flag (flag : SearchFlag) (want : Bool)
  | size (larger : Bool) (n : Int)
  | date (saved : Bool) (kind : DateKind) (date : Int)
  | within (older : Bool) (secs : Int)
  | header (name sub : Token)
  | text (sub : Token) (headers : Bool)
  | uidSet (set : Token)
  | seqSet (set : Token)
  | saved

/-- What a key is followed by. -/
inductive Keyword where
  | leaf (node : Node)
  | argument (needs : String) (read : Token → Except String Node)
  | header
  | open
  | not
  | or
  | other

section Parser

variable (lib : Library)

def readText (make : Token → Node) : Keyword := .argument "arg" fun arg => .ok (make arg)

def readDate (saved : Bool) (kind : DateKind) : Keyword :=
  .argument "date" fun arg => do return .date saved kind (← lib.parseSearchDate arg)

/-- The number read is not checked, and is zero where there is none. -/
def readSize (larger : Bool) : Keyword :=
  .argument "size" fun arg => .ok (.size larger ((lib.sscanInt64 arg).getD 0))

def readWithin (key : String) (older : Bool) : Keyword :=
  .argument "seconds" fun arg =>
    match lib.sscanInt64 arg with
    | some secs =>
        if secs < 0 then .error (key ++ " needs a non-negative integer")
        else .ok (.within older secs)
    | none => .error (key ++ " needs a non-negative integer")

def readSet : Keyword := .argument "set" fun arg => .ok (.uidSet arg)

def keywords : List (Token × Keyword) := [
  ("(".toList, .open),
  ("ALL".toList, .leaf .all),
  ("SEEN".toList, .leaf (.flag .seen true)),
  ("UNSEEN".toList, .leaf (.flag .seen false)),
  ("ANSWERED".toList, .leaf (.flag .answered true)),
  ("UNANSWERED".toList, .leaf (.flag .answered false)),
  ("FLAGGED".toList, .leaf (.flag .flagged true)),
  ("UNFLAGGED".toList, .leaf (.flag .flagged false)),
  ("DELETED".toList, .leaf (.flag .deleted true)),
  ("UNDELETED".toList, .leaf (.flag .deleted false)),
  ("DRAFT".toList, .leaf (.flag .draft true)),
  ("UNDRAFT".toList, .leaf (.flag .draft false)),
  ("NEW".toList, .leaf .all),
  ("RECENT".toList, .leaf .all),
  ("NOT".toList, .not),
  ("OR".toList, .or),
  ("FROM".toList, readText (.header "From".toList)),
  ("TO".toList, readText (.header "To".toList)),
  ("CC".toList, readText (.header "Cc".toList)),
  ("BCC".toList, readText (.header "Bcc".toList)),
  ("SUBJECT".toList, readText (.header "Subject".toList)),
  ("HEADER".toList, .header),
  ("BODY".toList, readText (.text · false)),
  ("TEXT".toList, readText (.text · true)),
  ("SINCE".toList, readDate lib false .since),
  ("BEFORE".toList, readDate lib false .before),
  ("ON".toList, readDate lib false .on),
  ("SAVEDSINCE".toList, readDate lib true .since),
  ("SAVEDBEFORE".toList, readDate lib true .before),
  ("SAVEDON".toList, readDate lib true .on),
  ("SAVEDATESUPPORTED".toList, .leaf .all),
  ("LARGER".toList, readSize lib true),
  ("SMALLER".toList, readSize lib false),
  ("OLDER".toList, readWithin lib "OLDER" true),
  ("YOUNGER".toList, readWithin lib "YOUNGER" false),
  ("UID".toList, readSet)]

def keyword (t : Token) : Keyword := ((keywords lib).lookup (lib.toUpper t)).getD .other

def isSeqSet (s : Token) : Bool :=
  s.all (fun c => c.isDigit || c == ':' || c == ',' || c == '*') && !s.isEmpty

/-- The node of a sequence of criteria. -/
def conjunction : List Node → Node
  | [] => .all
  | [node] => node
  | nodes => .and nodes

def closing : Token := [')']

mutual

/-- Criteria up to the end or a closing parenthesis. Every token takes one of the fuel, a call
of `parseSearchOne` another. -/
def parseSearchSeq : Nat → List Token → Except String (List Node × List Token)
  | 0, _ => .error ""
  | _ + 1, [] => .ok ([], [])
  | fuel + 1, t :: toks =>
      if t = closing then .ok ([], t :: toks)
      else do
        let (node, rest) ← parseSearchOne fuel (t :: toks)
        let (nodes, rest) ← parseSearchSeq fuel rest
        return (node :: nodes, rest)

def parseSearchOne : Nat → List Token → Except String (Node × List Token)
  | 0, _ => .error ""
  | _ + 1, [] => .error "unexpected end"
  | fuel + 1, t :: toks =>
      match keyword lib t with
      | .open => do
          let (nodes, rest) ← parseSearchSeq fuel toks
          if rest.head? = some closing then return (conjunction nodes, rest.tail)
          else .error "missing )"
      | .leaf node => .ok (node, toks)
      | .not => do
          let (n, rest) ← parseSearchOne fuel toks
          return (.not n, rest)
      | .or => do
          let (a, rest) ← parseSearchOne fuel toks
          let (b, rest) ← parseSearchOne fuel rest
          return (.or a b, rest)
      | .argument needs read =>
          match toks with
          | [] => .error (String.ofList (lib.toUpper t) ++ " needs " ++ needs)
          | arg :: rest => do return (← read arg, rest)
      | .header =>
          match toks with
          | name :: sub :: rest => .ok (.header name sub, rest)
          | _ => .error "HEADER needs field+arg"
      | .other =>
          if t = ['$'] then .ok (.saved, toks)
          else if isSeqSet t then .ok (.seqSet t, toks)
          else .error ("unknown key " ++ lib.quote t)

end

end Parser

/-! ### Evaluation -/

/-- What a search reads besides the rows: the values of header fields, the full-text index,
the time since a message arrived, and the result saved by an earlier search. -/
structure Context where
  lib : Library
  headerValue : Message → Token → Token
  messageBytes : Message → Token
  bodyOf : Token → Token
  fts : Token → Message → Bool
  /-- In nanoseconds. -/
  since : Message → Int
  savedSearch : List Nat

mutual

/-- The terms of BODY and TEXT in a tree. -/
def collectTextTerms : Node → List Token
  | .text sub _ => [sub]
  | .not n => collectTextTerms n
  | .or a b => collectTextTerms a ++ collectTextTerms b
  | .and nodes => collectAll nodes
  | _ => []

def collectAll : List Node → List Token
  | [] => []
  | n :: rest => collectTextTerms n ++ collectAll rest

end

section Evaluation

variable (ctx : Context)

/-- The UIDs that the index gives for a term. Of terms that differ in case only, the last
one counts. -/
def ftsHits (msgs : List Message) (terms : List Token) (key : Token) : Option (List Nat) :=
  (terms.reverse.find? (fun q => ctx.lib.toLower q == key)).map (fun q =>
    (msgs.filter (ctx.fts q)).map Message.uid)

def containsFold (text sub : Token) : Bool :=
  decide (ctx.lib.toLower sub <:+: ctx.lib.toLower text)

def SearchFlag.get (flags : Flags) : SearchFlag → Bool
  | seen => flags.seen
  | answered => flags.answered
  | flagged => flags.flagged
  | deleted => flags.deleted
  | draft => flags.draft

def DateKind.compare (day date : Int) : DateKind → Bool
  | since => date ≤ day
  | before => day < date
  | on => day == date

mutual

/-- `match`: whether a tree holds of a message, given its number, the number of messages and
the hits of the text terms. -/
def Node.holds (hits : Token → Option (List Nat)) (m : Message) (seq total : Nat) : Node → Bool
  | .all => true
  | .and nodes => holdsAll hits m seq total nodes
  | .or a b => a.holds hits m seq total || b.holds hits m seq total
  | .not n => !n.holds hits m seq total
  | .flag flag want => flag.get m.flags == want
  | .size larger n => if larger then n < m.size else (m.size : Int) < n
  | .date saved kind date =>
      kind.compare (ctx.lib.day (if saved then m.saveDate else m.received)) date
  | .within older secs =>
      let within := Int.bmod (secs * 1000000000) (2 ^ 64)
      if older then within ≤ ctx.since m else ctx.since m ≤ within
  | .header name sub => containsFold ctx (ctx.headerValue m name) sub
  | .text sub headers =>
      match hits (ctx.lib.toLower sub) with
      | some uids => uids.contains m.uid
      | none =>
          containsFold ctx
            (if headers then ctx.messageBytes m else ctx.bodyOf (ctx.messageBytes m)) sub
  | .uidSet set => matchSet ctx.lib.sscanUint32 set (m.uid % 2 ^ 32)
  | .seqSet set => matchSetStar ctx.lib.sscanUint32 set seq total
  | .saved => ctx.savedSearch.contains m.uid

def holdsAll (hits : Token → Option (List Nat)) (m : Message) (seq total : Nat) :
    List Node → Bool
  | [] => true
  | n :: rest => n.holds hits m seq total && holdsAll hits m seq total rest

end

/-- The messages that a tree holds of, under their numbers. -/
def matching (msgs : List Message) (node : Node) : List (Nat × Message) :=
  (withNumbers msgs).filter (fun entry =>
    node.holds ctx (ftsHits ctx msgs (collectTextTerms node)) entry.2 entry.1
      (msgs.length % 2 ^ 32))

/-- Where the parser stopped is not looked at. -/
def evaluate (msgs : List Message) (toks : List Token) : Option (List (Nat × Message)) :=
  match parseSearchSeq ctx.lib (2 * toks.length + 2) toks with
  | .error _ => none
  | .ok (nodes, _) => some (matching ctx msgs (conjunction nodes))

/-- Whether the text begins with a word, in capitals, and a blank. -/
def startsWith (text : Token) (word : String) : Bool :=
  word.toList.isPrefixOf (ctx.lib.toUpper text)

/-- What follows the charset, where one is named. -/
def withoutCharset (crit : Token) : Token :=
  if startsWith ctx crit "CHARSET " then
    trimSpace (((trimSpace (crit.drop 8)).dropWhile (· != ' ')).tail)
  else crit

/-- What follows the RETURN clause of SEARCH, if any. -/
def withoutReturn (args : Token) : Option Token :=
  let crit := trimSpace args
  if startsWith ctx crit "RETURN " then
    let rest := trimSpace (crit.drop 7)
    if rest.head? ≠ some '(' then none
    else
      match rest.dropWhile (· != ')') with
      | [] => none
      | _ :: after => some (trimSpace after)
  else some crit

/-- The tokens of the criteria of SEARCH. -/
def searchTokens (args : Token) : Option (List Token) :=
  (withoutReturn ctx args).map (fun crit => tokenizeSearch (withoutCharset ctx crit))

/-- SEARCH and UID SEARCH: the messages found, none where the answer is NO. -/
def cmdSearch (args : Token) (msgs : List Message) : Option (List (Nat × Message)) :=
  (searchTokens ctx args).bind (evaluate ctx msgs)

/-- The tokens of the criteria of SORT, THREAD and ESEARCH. -/
def criteriaTokens (crit : Token) : List Token :=
  let crit := withoutCharset ctx crit
  tokenizeSearch (if crit = [] then "ALL".toList else crit)

def searchMatchesIn (crit : Token) (msgs : List Message) : Option (List (Nat × Message)) :=
  evaluate ctx msgs (criteriaTokens ctx crit)

end Evaluation

theorem holdsAll_eq (ctx : Context) (hits : Token → Option (List Nat)) (m : Message)
    (seq total : Nat) (nodes : List Node) :
    holdsAll ctx hits m seq total nodes = nodes.all (fun n => n.holds ctx hits m seq total) := by
  induction nodes with
  | nil => rfl
  | cons n rest ih => rw [holdsAll, ih, List.all_cons]

theorem holds_conjunction (ctx : Context) (hits : Token → Option (List Nat)) (m : Message)
    (seq total : Nat) (nodes : List Node) :
    (conjunction nodes).holds ctx hits m seq total =
      nodes.all (fun n => n.holds ctx hits m seq total) := by
  match nodes with
  | [] => rfl
  | [n] => rw [conjunction, List.all_cons, List.all_nil, Bool.and_true]
  | first :: second :: rest => exact holdsAll_eq ctx hits m seq total (first :: second :: rest)

/-! ### The grammar -/

/-- Tokens read as keys, up to what is left. NOT is about the next key, OR about the next
two. -/
inductive Reads (lib : Library) : List Token → List Node → List Token → Prop where
  | nil (toks : List Token) : Reads lib toks [] toks
  | leaf {t : Token} {node : Node} (key : keyword lib t = .leaf node)
      (behind : Reads lib toks keys rest) : Reads lib (t :: toks) (node :: keys) rest
  | argument {t arg : Token} {needs : String} {read : Token → Except String Node} {node : Node}
      (key : keyword lib t = .argument needs read) (value : read arg = .ok node)
      (behind : Reads lib toks keys rest) : Reads lib (t :: arg :: toks) (node :: keys) rest
  | header {t name sub : Token} (key : keyword lib t = .header)
      (behind : Reads lib toks keys rest) :
      Reads lib (t :: name :: sub :: toks) (.header name sub :: keys) rest
  | not {t : Token} {n : Node} (key : keyword lib t = .not)
      (behind : Reads lib toks (n :: keys) rest) : Reads lib (t :: toks) (.not n :: keys) rest
  | or {t : Token} {a b : Node} (key : keyword lib t = .or)
      (behind : Reads lib toks (a :: b :: keys) rest) :
      Reads lib (t :: toks) (.or a b :: keys) rest
  | group {t : Token} {inner : List Node} (key : keyword lib t = .open)
      (inside : Reads lib toks inner (closing :: after)) (behind : Reads lib after keys rest) :
      Reads lib (t :: toks) (conjunction inner :: keys) rest
  | saved (key : keyword lib ['$'] = .other) (behind : Reads lib toks keys rest) :
      Reads lib (['$'] :: toks) (.saved :: keys) rest
  | seqSet {t : Token} (key : keyword lib t = .other) (other : t ≠ ['$'])
      (shape : isSeqSet t = true) (behind : Reads lib toks keys rest) :
      Reads lib (t :: toks) (.seqSet t :: keys) rest

section Parsing

variable {lib : Library}

theorem keyword_closing : keyword lib closing = .other := by
  rw [keyword, lib.upper closing (by simp [closing])]
  rfl

/-- Criteria end before a closing parenthesis or at the end. -/
def Ends (rest : List Token) : Prop := rest = [] ∨ rest.head? = some closing

theorem bind_eq_ok {α β : Type} {first : Except String α} {next : α → Except String β} {b : β} :
    first >>= next = .ok b ↔ ∃ a, first = .ok a ∧ next a = .ok b := by
  cases first with
  | error e | ok a => simp [bind, Except.bind]

theorem reads_le (reads : Reads lib toks keys rest) : rest.length ≤ toks.length := by
  induction reads with
  | nil => exact Nat.le_refl _
  | group | _ => simp only [List.length_cons] at *; omega

theorem closing_unread {n : Node} : ¬Reads lib (closing :: toks) (n :: keys) rest := by
  intro reads
  generalize start : closing :: toks = whole at reads
  generalize some_ : n :: keys = all at reads
  cases reads with
  | nil => cases some_
  | saved => exact absurd (List.cons.inj start).1 (by decide)
  | seqSet _ _ shape =>
    obtain ⟨rfl, _⟩ := List.cons.inj start
    exact absurd shape (by decide)
  | leaf key | argument key | header key | not key | or key | group key =>
    obtain ⟨rfl, _⟩ := List.cons.inj start
    rw [keyword_closing] at key
    cases key

/-- The first of the keys read is the one the parser returns, with fuel for the tokens. -/
def Parses (lib : Library) (toks : List Token) : Prop :=
  ∀ n keys rest, Reads lib toks (n :: keys) rest → ∃ mid, Reads lib mid keys rest ∧
    mid.length < toks.length ∧ ∀ fuel, 2 * toks.length ≤ fuel →
      parseSearchOne lib fuel toks = .ok (n, mid)

/-- Keys read up to an end are the ones the parser returns. -/
theorem seq_parses {bound : Nat} (one : ∀ toks : List Token, toks.length ≤ bound → Parses lib toks)
    (short : toks.length ≤ bound) (reads : Reads lib toks keys rest) (ends : Ends rest) {fuel : Nat}
    (enough : 2 * toks.length + 1 ≤ fuel) : parseSearchSeq lib fuel toks = .ok (keys, rest) := by
  induction keys generalizing toks fuel with
  | nil =>
    obtain ⟨fuel, rfl⟩ := Nat.exists_eq_add_one.mpr (show 0 < fuel by omega)
    cases reads
    rcases ends with rfl | ends
    · rw [parseSearchSeq]
    · obtain ⟨after, rfl⟩ := List.head?_eq_some_iff.mp ends
      rw [parseSearchSeq, if_pos rfl]
  | cons n keys ih =>
    obtain ⟨fuel, rfl⟩ := Nat.exists_eq_add_one.mpr (show 0 < fuel by omega)
    obtain ⟨mid, behind, shorter, first⟩ := one toks short n keys rest reads
    obtain ⟨t, more, rfl⟩ := List.exists_cons_of_length_pos (Nat.zero_lt_of_lt shorter)
    have other : t ≠ closing := by
      rintro rfl
      exact closing_unread reads
    rw [parseSearchSeq, if_neg other, first fuel (by omega)]
    exact bind_eq_ok.mpr ⟨_, rfl, bind_eq_ok.mpr ⟨_, ih (by omega) behind
      (by omega), rfl⟩⟩

theorem one_parses (bound : Nat) (toks : List Token) (short : toks.length ≤ bound) :
    Parses lib toks := by
  induction bound generalizing toks with
  | zero =>
    obtain rfl := List.length_eq_zero_iff.mp (Nat.le_zero.mp short)
    intro n keys rest reads
    cases reads
  | succ bound ih =>
    intro n keys rest reads
    -- Every case gives the rest and leaves what the parser does with one more fuel.
    have enough_ {t : Token} {more mid : List Token} {node : Node}
      (shorter : mid.length ≤ more.length) (behind : Reads lib mid keys rest)
        (step : ∀ fuel, 2 * more.length + 1 ≤ fuel →
          parseSearchOne lib (fuel + 1) (t :: more) = .ok (node, mid)) :
        ∃ mid, Reads lib mid keys rest ∧ mid.length < (t :: more).length ∧
          ∀ fuel, 2 * (t :: more).length ≤ fuel →
            parseSearchOne lib fuel (t :: more) = .ok (node, mid) := by
      refine ⟨mid, behind, Nat.lt_succ_of_le shorter, fun fuel enough => ?_⟩
      rw [List.length_cons] at enough
      obtain ⟨fuel, rfl⟩ := Nat.exists_eq_add_one.mpr (show 0 < fuel by omega)
      exact step fuel (by omega)
    generalize some_ : n :: keys = all at reads
    cases reads with
    | nil => cases some_
    | leaf key behind =>
      cases some_
      refine enough_ (Nat.le_refl _) behind fun fuel _ => ?_
      simp only [parseSearchOne.eq_def, key]
    | argument key value behind =>
      cases some_
      refine enough_ (Nat.le_succ _) behind fun fuel _ => ?_
      simp only [parseSearchOne.eq_def, key]
      exact bind_eq_ok.mpr ⟨_, value, rfl⟩
    | header key behind =>
      cases some_
      refine enough_ (by simp only [List.length_cons]; omega) behind fun fuel _ => ?_
      simp only [parseSearchOne.eq_def, key]
    | not key behind =>
      cases some_
      obtain ⟨mid, behind, shorter, parsed⟩ := ih _ (Nat.le_of_succ_le_succ short)
        _ _ _ behind
      refine enough_ shorter.le behind fun fuel enough => ?_
      rw [parseSearchOne.eq_def]
      simp only [key]
      exact bind_eq_ok.mpr ⟨_, parsed fuel (by omega), rfl⟩
    | or key behind =>
      cases some_
      have short := Nat.le_of_succ_le_succ short
      obtain ⟨mid, behind, shorter, first⟩ := ih _ short _ _ _ behind
      obtain ⟨last, behind, shorter', second⟩ := ih mid (by omega) _ _ _ behind
      refine enough_ (by omega) behind fun fuel enough => ?_
      rw [parseSearchOne.eq_def]
      simp only [key]
      exact bind_eq_ok.mpr ⟨_, first fuel (by omega),
        bind_eq_ok.mpr ⟨_, second fuel (by omega), rfl⟩⟩
    | group key inside behind =>
      cases some_
      have short := Nat.le_of_succ_le_succ short
      refine enough_ ?_ behind fun fuel enough => ?_
      · have shorter := reads_le inside
        rw [List.length_cons] at shorter
        omega
      · rw [parseSearchOne.eq_def]
        simp only [key]
        exact bind_eq_ok.mpr ⟨_, seq_parses ih short inside (.inr rfl) enough,
          if_pos rfl⟩
    | saved key behind =>
      cases some_
      refine enough_ (Nat.le_refl _) behind fun fuel _ => ?_
      simp only [parseSearchOne.eq_def, key, if_true]
    | seqSet key other shape behind =>
      cases some_
      refine enough_ (Nat.le_refl _) behind fun fuel _ => ?_
      simp only [parseSearchOne.eq_def, key, if_neg other, shape, if_true]

/-- Keys read up to an end are evaluated. -/
theorem evaluate_reads {ctx : Context} {msgs : List Message} {toks : List Token} {keys : List Node}
    {rest : List Token} (reads : Reads ctx.lib toks keys rest) (ends : Ends rest) :
    evaluate ctx msgs toks = some (matching ctx msgs (conjunction keys)) := by
  rw [evaluate, seq_parses (one_parses toks.length) (Nat.le_refl _) reads ends (by omega)]

end Parsing

theorem toUpper_blank (c : Char) (same : c.toUpper = ' ') : c = ' ' := by
  unfold Char.toUpper at same
  split at same
  · rename_i letter
    have value := congrArg (fun d : Char => d.val.toNat) same
    have low := UInt32.le_iff_toNat_le.mp letter.1
    have high := UInt32.le_iff_toNat_le.mp letter.2
    simp only [UInt32.toNat_add] at value
    simp at value low high
    omega
  · exact same

/-- A library for letters and decimal numbers alone. -/
def asciiLibrary : Library where
  upperRune := Char.toUpper
  lowerRune := Char.toLower
  quote := String.ofList
  sscanUint32 := parseUint32
  sscanInt64 text := if text.all Char.isDigit then some (Nat.ofDigitChars 10 text 0) else none
  parseSearchDate text := .error ("parsing time " ++ String.ofList text)
  day time := time
  ascii _ _ := rfl
  blank := toUpper_blank
  decimal _ := parseUint32_digits

/-- Messages without a body, just arrived. -/
def asciiContext : Context where
  lib := asciiLibrary
  headerValue _ _ := []
  messageBytes _ := []
  bodyOf text := text
  fts _ _ := false
  since _ := 0
  savedSearch := []

/-! ### The sets of SEARCH and those of the message commands -/

theorem tokenizeSearch_word {word rest : Token} (some_ : word ≠ [])
    (plain : ∀ c ∈ word, isBlank c = false ∧ isParen c = false ∧ c ≠ '"')
    (ends : ∀ c ∈ rest.head?, isBlank c = true ∨ isParen c = true) :
    tokenizeSearch (word ++ rest) = word :: tokenizeSearch rest := by
  obtain ⟨c, more, rfl⟩ := List.exists_cons_of_ne_nil some_
  obtain ⟨⟨noBlank, noParen, noQuote⟩, others⟩ := List.forall_mem_cons.mp plain
  have taken : ∀ c ∈ more, (!isBlank c && !isParen c) = true := by
    intro c inside
    simp [others c inside]
  rw [List.cons_append, tokenizeSearch, if_neg (by simp [noBlank]), if_neg (by simp [noParen]),
    if_neg noQuote, List.takeWhile_append_of_pos taken, List.dropWhile_append_of_pos taken]
  cases rest with
  | nil => simp
  | cons first _ =>
    rcases ends first rfl with blank | paren
    · simp [blank]
    · simp [paren]

/-- A character of a set. -/
theorem set_plain {set : SeqSet} {c : Char} (inside : c ∈ set.render) :
    42 ≤ c.toNat ∧ c.toNat ≤ 58 := by
  rcases set_chars inside with digit | rfl | rfl | rfl
  · have code := Char.isDigit_iff_toNat.mp digit
    simp only [Char.reduceToNat] at code
    omega
  · decide
  · decide
  · decide

variable {c : Char}

theorem set_unquoted {set : SeqSet} (inside : c ∈ set.render) :
    isBlank c = false ∧ isParen c = false ∧ c ≠ '"' := by
  have other : ∀ d : Char, d.toNat < 42 → c ≠ d := by
    rintro d small rfl
    have code := set_plain inside
    omega
  simp [isBlank, isParen, other]

theorem set_toUpper (lib : Library) (set : SeqSet) : lib.toUpper set.render = set.render := by
  rw [lib.upper _ fun c inside => by have code := set_plain inside; omega]
  refine (List.map_congr_left fun c inside => ?_).trans (List.map_id _)
  have code := set_plain inside
  refine dif_neg fun letter => ?_
  have low : 97 ≤ c.toNat := letter.1
  omega

theorem tokenizeSearch_set (set : SeqSet) : tokenizeSearch set.render = [set.render] := by
  have word := @tokenizeSearch_word set.render [] (set_ne_nil set) (fun _ => set_unquoted) (by simp)
  rwa [List.append_nil, tokenizeSearch] at word

/-- Every key word begins with a letter or a parenthesis. -/
theorem keywords_head (lib : Library) :
    ∀ entry ∈ keywords lib, entry.1.head?.any (fun c => c == '(' || decide (58 < c.toNat)) := by
  simp [keywords]

theorem keyword_set (lib : Library) (set : SeqSet) : keyword lib set.render = .other := by
  have missing : (keywords lib).lookup set.render = none := by
    rw [List.lookup_eq_none_iff]
    intro entry among
    refine bne_iff_ne.mpr fun same => ?_
    have head := keywords_head lib entry among
    obtain ⟨c, more, shape⟩ := List.exists_cons_of_ne_nil (set_ne_nil set)
    have code := @set_plain set c (by simp [shape])
    rw [← same, shape] at head
    rcases Bool.or_eq_true_iff.mp head with paren | letter
    · obtain rfl := beq_iff_eq.mp paren
      exact absurd code (by decide)
    · have low := decide_eq_true_eq.mp letter
      omega
  rw [keyword, set_toUpper, missing]
  rfl

theorem set_unspaced {set : SeqSet} (inside : c ∈ set.render) : isSpace c = false := by
  have code := set_plain inside
  simp [Utf8.isSpace]
  omega

/-- A set that ends a text is followed by no blank. -/
theorem trimSpace_set {text : Token} (set : SeqSet)
    (first : ∀ c ∈ (text ++ set.render).head?, isSpace c = false) :
    trimSpace (text ++ set.render) = text ++ set.render := by
  refine trimSpace_eq first fun c last => ?_
  rw [List.getLast?_append_of_ne_nil _ (set_ne_nil set)] at last
  exact set_unspaced (List.mem_of_mem_getLast? last)

/-- Neither clause stands in front of the criteria. -/
theorem criteria_alone {ctx : Context} {crit : Token} {first : Char} (noReturn : first ≠ 'R')
    (noCharset : first ≠ 'C') (trimmed : trimSpace crit = crit)
    (head : (ctx.lib.toUpper crit).head? = some first) (msgs : List Message) :
    cmdSearch ctx crit msgs = evaluate ctx msgs (tokenizeSearch crit) := by
  obtain ⟨rest, shape⟩ := List.head?_eq_some_iff.mp head
  have clauses : startsWith ctx crit "RETURN " = false ∧ startsWith ctx crit "CHARSET " = false := by
    simp [startsWith, shape, List.isPrefixOf, noReturn.symm, noCharset.symm]
  simp [cmdSearch, searchTokens, withoutReturn, trimmed, clauses, withoutCharset]

theorem isSeqSet_set (set : SeqSet) : isSeqSet set.render = true := by
  have some_ := set_ne_nil set
  simp only [isSeqSet, Bool.and_eq_true, List.all_eq_true, Bool.not_eq_true',
    List.isEmpty_eq_false_iff]
  refine ⟨fun c inside => ?_, some_⟩
  rcases set_chars inside with digit | rfl | rfl | rfl
  · simp [digit]
  · decide
  · decide
  · decide

/-- A set is none of the other tokens. -/
theorem set_ne (set : SeqSet) (small : c.toNat < 42) : set.render ≠ [c] := by
  intro same
  have code := @set_plain set c (by simp [same])
  omega

theorem cmdSearch_seqSet (ctx : Context) (set : SeqSet) (msgs : List Message) :
    cmdSearch ctx set.render msgs = some (matching ctx msgs (.seqSet set.render)) := by
  obtain ⟨c, more, shape⟩ := List.exists_cons_of_ne_nil (set_ne_nil set)
  have code := @set_plain set c (by simp [shape])
  have alone := @criteria_alone ctx set.render c (by rintro rfl; exact absurd code (by decide))
    (by rintro rfl; exact absurd code (by decide))
    (@trimSpace_set [] set fun d head => set_unspaced (List.mem_of_mem_head? head))
    (by rw [set_toUpper, shape]; rfl) msgs
  rw [alone, tokenizeSearch_set]
  exact evaluate_reads (.seqSet (keyword_set ctx.lib set) (set_ne set (by decide))
    (isSeqSet_set set) (.nil [])) (.inl rfl)

theorem keyword_uid (lib : Library) : keyword lib "UID".toList = readSet := by
  rw [keyword, lib.upper _ (by simp)]
  rfl

theorem cmdSearch_uidSet (ctx : Context) (set : SeqSet) (msgs : List Message) :
    cmdSearch ctx ("UID ".toList ++ set.render) msgs =
      some (matching ctx msgs (.uidSet set.render)) := by
  have ascii : ∀ c ∈ "UID ".toList ++ set.render, c.toNat < 128 := by
    intro c inside
    rcases List.mem_append.mp inside with word | inside
    · have letters : ∀ c ∈ "UID ".toList, c.toNat < 128 := by simp
      exact letters c word
    · have code := set_plain inside
      omega
  have alone := @criteria_alone ctx ("UID ".toList ++ set.render) 'U' (by decide) (by decide)
    (trimSpace_set set (by simp [Utf8.isSpace])) (by rw [ctx.lib.upper _ ascii]; rfl) msgs
  have tokens : tokenizeSearch ("UID ".toList ++ set.render) = ["UID".toList, set.render] := by
    have word := @tokenizeSearch_word "UID".toList (' ' :: set.render) (by decide)
      (by simp [isBlank, isParen]) (by simp [isBlank])
    rw [tokenizeSearch, if_pos (by decide), tokenizeSearch_set] at word
    exact word
  rw [alone, tokens]
  exact evaluate_reads (.argument (keyword_uid ctx.lib) rfl (.nil [])) (.inl rfl)

theorem map_withNumbers (msgs : List Message) : (withNumbers msgs).map Prod.snd = msgs := by
  simp [withNumbers, Function.comp_def]

/-- SEARCH finds the messages that FETCH and STORE act on, for every set of numbers. UID SEARCH
does for a set without '*', and for one with '*' exactly where the set has all of the mailbox:
it takes the '*' for the UID it looks at, and finds every message. -/
theorem search_selects (ctx : Context) (set : SeqSet) (db : Database) (accountId mailboxId : Nat) :
    let msgs := listing db accountId mailboxId
    let text := String.ofList set.render
    (∀ byUID, chosen text byUID msgs = (cmdFetch db accountId mailboxId text byUID
      (-1)).map Prod.snd) ∧
    cmdSearch ctx set.render msgs = some (cmdFetch db accountId mailboxId text false (-1)) ∧
    (cmdSearch ctx ("UID ".toList ++ set.render) msgs =
        some (cmdFetch db accountId mailboxId text true (-1)) ↔
      set.stars = false ∨ ∀ m ∈ msgs,
        set.Denotes ((msgs.getLast?.elim 0 Message.uid) % 2 ^ 32) (m.uid % 2 ^ 32)) := by
  intro msgs text
  simp only [cmdFetch, fetchRows_all]
  refine ⟨fun byUID => chosen_eq text byUID msgs, ?_, ?_⟩
  · rw [cmdSearch_seqSet, matching, selecting]
    refine congrArg some (List.filter_congr fun entry among => ?_)
    rw [Bool.eq_iff_iff, if_neg Bool.false_ne_true, parseUIDSet_render, Node.holds,
      matchSetStar_render ctx.lib.decimal]
  · rw [cmdSearch_uidSet, matching, selecting, Option.some.injEq]
    have search : ∀ entry : Nat × Message, Node.holds ctx
        (ftsHits ctx msgs (collectTextTerms (.uidSet set.render))) entry.2 entry.1
        (msgs.length % 2 ^ 32) (.uidSet set.render) = true ↔
          set.Denotes (entry.2.uid % 2 ^ 32) (entry.2.uid % 2 ^ 32) := by
      intro entry
      rw [Node.holds, matchSet, matchSetStar_render ctx.lib.decimal]
    cases starred : set.stars with
    | false =>
      simp only [true_or, iff_true]
      refine List.filter_congr fun entry among => ?_
      rw [Bool.eq_iff_iff, if_pos trivial, parseUIDSet_render, search]
      exact denotes_plain starred
    | true =>
      simp only [Bool.true_eq_false, false_or]
      rw [List.filter_eq_self.mpr fun entry _ => (search entry).mpr (denotes_star starred),
        eq_comm, List.filter_eq_self]
      simp only [if_true]
      constructor
      · intro whole m member
        obtain ⟨entry, among, rfl⟩ := List.mem_map.mp (by rwa [← map_withNumbers msgs] at member)
        exact (parseUIDSet_render set _ _).mp (whole entry among)
      · intro whole entry among
        exact (parseUIDSet_render set _ _).mpr (whole entry.2 (mem_of_mem_withNumbers among))

/-- UID FETCH of '*' is about the last message, UID SEARCH of it finds both. -/
theorem star_found_everywhere :
    (cmdFetch laterSecond 7 1 "*" true (-1)).map (fun entry => entry.2.uid) = [2] ∧
      (cmdSearch asciiContext "UID *".toList (listing laterSecond 7 1)).map
        (·.map (fun entry => entry.2.uid)) = some [1, 2] := by
  decide +kernel

/-- The set "2". -/
theorem search_selects_two : let set : SeqSet := ⟨.single (.number 2 (by decide) (by decide)), []⟩
    cmdSearch asciiContext ("UID ".toList ++ set.render) (listing laterSecond 7 1) =
      some (cmdFetch laterSecond 7 1 (String.ofList set.render) true (-1)) :=
  (search_selects asciiContext ⟨.single (.number 2 (by decide) (by decide)),
    []⟩ laterSecond 7 1).2.2.mpr (.inl rfl)

end OctoMail.Imap.Search
