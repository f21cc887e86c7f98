import OctoMail.Arrange
import OctoMail.Imap.Search

/-!
# SORT and THREAD

The commands of `protocol/imapd/sort.go` and `thread.go`, on top of the search criteria. SORT
orders the messages found by a list of keys, THREAD divides them into groups. Times are
counted from Go's zero time, and what the message parser makes of a body is a parameter.
-/

namespace OctoMail.Imap.Search

open Store Sets Arrange

structure Address where
  user : Token
  host : Token

structure Envelope where
  date : Int
  subject : Token
  from_ : List Address
  to_ : List Address
  cc : List Address

inductive SortField where
  | arrival
  | date
  | size
  | subject
  | from_
  | to_
  | cc
  | other
deriving DecidableEq, Repr

structure SortKey where
  field : SortField
  reverse : Bool
deriving DecidableEq, Repr

section Keys

variable (lib : Library)

def sortField (t : Token) : SortField :=
  if t = "ARRIVAL".toList then .arrival
  else if t = "DATE".toList then .date
  else if t = "SIZE".toList then .size
  else if t = "SUBJECT".toList then .subject
  else if t = "FROM".toList then .from_
  else if t = "TO".toList then .to_
  else if t = "CC".toList then .cc
  else .other

def fields (text : Token) : List Token := (text.splitOnP isSpace).filter (fun word => !word.isEmpty)

/-- REVERSE is about the next key. -/
def parseSortKeys (s : Token) : List SortKey :=
  ((fields (lib.toUpper s)).foldl (fun (keys, reverse) t =>
    if t = "REVERSE".toList then (keys, true)
    else (keys ++ [⟨sortField t, reverse⟩], false)) ([], false)).1

/-- The subject without what marks an answer. Every round takes three characters or more. -/
def baseSubject (s : Token) : Token :=
  loop (s.length + 1) (trimSpace s)
where
  loop : Nat → Token → Token
    | 0, s => lib.toLower s
    | fuel + 1, s =>
        let low := lib.toLower s
        if "re:".toList.isPrefixOf low then loop fuel (trimSpace (s.drop 3))
        else if "fwd:".toList.isPrefixOf low then loop fuel (trimSpace (s.drop 4))
        else if "fw:".toList.isPrefixOf low then loop fuel (trimSpace (s.drop 3))
        else low

def firstAddr : List Address → Token
  | [] => []
  | a :: _ => lib.toLower (a.user ++ '@' :: a.host)

/-- A message found, with its number and what its body was parsed into. -/
structure Row where
  seq : Nat
  m : Message
  env : Option Envelope

def Row.date (row : Row) : Int := row.env.elim 0 Envelope.date
def Row.subject (row : Row) : Token := baseSubject lib (row.env.elim [] Envelope.subject)
def Row.address (which : Envelope → List Address) (row : Row) : Token :=
  firstAddr lib (row.env.elim [] which)

def compareSortField (field : SortField) (a b : Row) : Ordering :=
  match field with
  | .arrival => compare a.m.received b.m.received
  | .date => compare a.date b.date
  | .size => compare a.m.size b.m.size
  | .subject => compare (a.subject lib) (b.subject lib)
  | .from_ => compare (a.address lib Envelope.from_) (b.address lib Envelope.from_)
  | .to_ => compare (a.address lib Envelope.to_) (b.address lib Envelope.to_)
  | .cc => compare (a.address lib Envelope.cc) (b.address lib Envelope.cc)
  | .other => .eq

/-- The comparison of one key, reversed where asked. -/
def compareSortKey (key : SortKey) (a b : Row) : Ordering :=
  let cmp := compareSortField lib key.field a b
  if key.reverse then cmp.swap else cmp

def lessBySortKeys (keys : List SortKey) (a b : Row) : Bool :=
  match keys with
  | [] => a.m.uid < b.m.uid
  | key :: rest =>
      let cmp := compareSortKey lib key a b
      if cmp ≠ .eq then cmp == .lt else lessBySortKeys rest a b

end Keys

/-! ### The commands -/

section Commands

variable (ctx : Context) (envelopeOf : Message → Option Envelope)

/-- The text behind a charset, which is skipped. -/
def behindCharset (text : Token) : Token := trimSpace (((trimSpace text).dropWhile (· != ' ')).tail)

/-- The keys and the criteria of a SORT. -/
def sortArguments (args : Token) : Option (List SortKey × Token) :=
  let rest := trimSpace args
  if rest.head? ≠ some '(' then none
  else
    match rest.dropWhile (· != ')') with
    | [] => none
    | _ :: after =>
        some (parseSortKeys ctx.lib (rest.tail.takeWhile (· != ')')), behindCharset after)

/-- SORT and UID SORT: the messages in the order of the answer, none where it is NO. -/
def cmdSort (args : Token) (msgs : List Message) : Option (List Row) := do
  let (keys, crit) ← sortArguments ctx args
  let found ← searchMatchesIn ctx crit msgs
  let rows := found.map (fun mm => (⟨mm.1, mm.2, envelopeOf mm.2⟩ : Row))
  return sliceStable (lessBySortKeys ctx.lib keys) rows

/-- The algorithm of a THREAD, whether it is ORDEREDSUBJECT, and its criteria. -/
def threadArguments (args : Token) : Bool × Token :=
  let args := trimSpace args
  (ctx.lib.toUpper (trimSpace (args.takeWhile (· != ' '))) == "ORDEREDSUBJECT".toList,
    behindCharset ((args.dropWhile (· != ' ')).tail))

def threadKey (orderedSubject : Bool) (m : Message) : Token :=
  if orderedSubject then
    "s:".toList ++ baseSubject ctx.lib ((envelopeOf m).elim [] Envelope.subject)
  else if m.threadId ≠ 0 then "t:".toList ++ Nat.toDigits 10 m.threadId
  else "m:".toList ++ Nat.toDigits 10 m.id

/-- The groups of a THREAD before they are ordered. -/
def threads (orderedSubject : Bool) (found : List (Nat × Message)) : List (List (Nat × Message)) :=
  (grouped (fun mm => threadKey ctx envelopeOf orderedSubject mm.2) found).map Prod.snd

def firstUid (group : List (Nat × Message)) : Nat := group.head?.elim 0 fun mm => mm.2.uid

/-- THREAD and UID THREAD: the groups of the answer. -/
def cmdThread (args : Token) (msgs : List Message) : Option (List (List (Nat × Message))) := do
  let (orderedSubject, crit) := threadArguments ctx args
  let found ← searchMatchesIn ctx crit msgs
  let order := sliceStable (fun g h => decide (firstUid g < firstUid h))
    (threads ctx envelopeOf orderedSubject found)
  return order.map (sliceStable (fun a b => decide (a.2.uid < b.2.uid)))

end Commands

/-! ### The order of SORT -/

section Order

variable (lib : Library)

/-- The keys of SORT. -/
def sortFields : List (String × SortField) := [
  ("ARRIVAL", .arrival), ("DATE", .date), ("SIZE", .size), ("SUBJECT", .subject), ("FROM", .from_),
  ("TO", .to_), ("CC", .cc)]

/-- Words, in capitals, that name keys. REVERSE is about the next one. -/
inductive Named : List Token → List SortKey → Prop where
  | nil : Named [] []
  | key {name : String} (known : (name, field) ∈ sortFields) (behind : Named words keys) :
      Named (name.toList :: words) (⟨field, false⟩ :: keys)
  | reverse {name : String} (known : (name, field) ∈ sortFields) (behind : Named words keys) :
      Named ("REVERSE".toList :: name.toList :: words) (⟨field, true⟩ :: keys)

/-- What marks an answer or a message passed on, in front of a subject. -/
def marks : List Token := ["re:".toList, "fwd:".toList, "fw:".toList]

/-- The base of a subject: what is behind all marks, without blanks around it and in lower case. -/
inductive Base : Token → Token → Prop where
  | plain (unmarked : ∀ mark ∈ marks, ¬ mark <+: lib.toLower (trimSpace s)) :
      Base s (lib.toLower (trimSpace s))
  | marked {mark : Token} (known : mark ∈ marks) (begins : mark <+: lib.toLower (trimSpace s))
      (behind : Base ((trimSpace s).drop mark.length) base) : Base s base

/-- A message that was not parsed counts as one with an empty header. -/
def envelope (env : Option Envelope) : Envelope := env.getD ⟨0, [], [], [], []⟩

/-- The first of some addresses, in lower case. -/
def foremost (addresses : List Address) : Token :=
  addresses.head?.elim [] fun a => lib.toLower (a.user ++ '@' :: a.host)

/-- One message comes before the other by a field: arrived or sent earlier, smaller, or with a base
subject or a first address that is before the other's. -/
def Less (a b : Row) : SortField → Prop
  | .arrival => a.m.received < b.m.received
  | .date => (envelope a.env).date < (envelope b.env).date
  | .size => a.m.size < b.m.size
  | .subject => ∃ first second, Base lib (envelope a.env).subject first ∧
      Base lib (envelope b.env).subject second ∧ first < second
  | .from_ => foremost lib (envelope a.env).from_ < foremost lib (envelope b.env).from_
  | .to_ => foremost lib (envelope a.env).to_ < foremost lib (envelope b.env).to_
  | .cc => foremost lib (envelope a.env).cc < foremost lib (envelope b.env).cc
  | .other => False

/-- By the keys one is before the other: by the first that tells them apart, each reversed
where asked, or by the UID where none does. -/
inductive Precedes : List SortKey → Row → Row → Prop where
  | uid {a b : Row} (at_most : a.m.uid ≤ b.m.uid) : Precedes [] a b
  | before {key : SortKey} {rest : List SortKey} {a b : Row} (plain : key.reverse = false)
      (less : Less lib a b key.field) : Precedes (key :: rest) a b
  | behind {key : SortKey} {rest : List SortKey} {a b : Row} (reversed : key.reverse = true)
      (less : Less lib b a key.field) : Precedes (key :: rest) a b
  | tie {key : SortKey} {rest : List SortKey} {a b : Row} (neither : ¬Less lib a b key.field)
      (nor : ¬Less lib b a key.field) (later : Precedes rest a b) : Precedes (key :: rest) a b

theorem sortField_known : ∀ known ∈ sortFields,
    sortField known.1.toList = known.2 ∧ known.1.toList ≠ "REVERSE".toList := by
  decide

/-- The words of a list are its keys. -/
theorem parseSortKeys_named {text : Token} {keys : List SortKey}
    (named : Named (fields (lib.toUpper text)) keys) : parseSortKeys lib text = keys := by
  rw [parseSortKeys]
  generalize fields (lib.toUpper text) = words at named
  suffices whole : ∀ front, words.foldl (fun (keys, reverse) t =>
      if t = "REVERSE".toList then (keys, true)
      else (keys ++ [⟨sortField t, reverse⟩], false)) (front, false) = (front ++ keys, false) by
    rw [whole]
    rfl
  -- A key is taken with the direction asked for.
  have taken : ∀ (front : List SortKey) (reverse : Bool), ∀ known ∈ sortFields,
      (if known.1.toList = "REVERSE".toList then (front, true)
        else (front ++ [⟨sortField known.1.toList, reverse⟩], false)) =
          (front ++ [⟨known.2, reverse⟩], false) := by
    intro front reverse known among
    obtain ⟨field, other⟩ := sortField_known known among
    rw [if_neg other, field]
  induction named with
  | nil => exact fun front => by rw [List.foldl_nil, List.append_nil]
  | key known _ ih =>
    intro front
    refine (congrArg (List.foldl _ · _) (taken front false _ known)).trans ((ih _).trans ?_)
    rw [List.append_assoc]
    rfl
  | reverse known _ ih =>
    intro front
    refine (congrArg (List.foldl _ · _) (taken front true _ known)).trans ((ih _).trans ?_)
    rw [List.append_assoc]
    rfl

theorem marks_apart : ∀ mark ∈ marks, ∀ other ∈ marks, mark <+: other → mark = other := by decide

variable {s : Token}

theorem base_unique {first second : Token} (one : Base lib s first) (two : Base lib s second) :
    first = second := by
  induction one with
  | plain unmarked => cases two with
    | plain => rfl
    | marked known begins => exact absurd begins (unmarked _ known)
  | marked known begins _ ih => cases two with
    | plain unmarked => exact absurd begins (unmarked _ known)
    | marked known' begins' behind =>
      rcases List.prefix_or_prefix_of_prefix begins begins' with longer | longer
      · obtain rfl := marks_apart _ known _ known' longer
        exact ih behind
      · obtain rfl := marks_apart _ known' _ known longer
        exact ih behind

theorem trimSpace_le (s : Token) : (trimSpace s).length ≤ s.length := by
  have back := (List.dropWhile_suffix (l := (s.dropWhile isSpace).reverse) isSpace).length_le
  have front := (List.dropWhile_suffix (l := s) isSpace).length_le
  rw [List.length_reverse] at back
  rw [trimSpace, List.length_reverse]
  omega

theorem base_loop {fuel : Nat} (enough : s.length < fuel) :
    Base lib s (baseSubject.loop lib fuel (trimSpace s)) := by
  induction fuel generalizing s with
  | zero => omega
  | succ fuel ih =>
    have shorter : (trimSpace s).length ≤ s.length := trimSpace_le s
    -- A mark is not empty, so what is behind it is shorter.
    have next : ∀ mark ∈ marks, mark.isPrefixOf (lib.toLower (trimSpace s)) = true →
        Base lib s (baseSubject.loop lib fuel (trimSpace ((trimSpace s).drop mark.length))) := by
      intro mark known begins
      have begins := List.isPrefixOf_iff_prefix.mp begins
      have positive : ∀ mark ∈ marks, 0 < mark.length := by decide
      have fits := begins.length_le
      rw [Library.toLower, List.length_map] at fits
      refine .marked known begins (ih ?_)
      have some_ := positive mark known
      rw [List.length_drop]
      omega
    rw [baseSubject.loop]
    split
    · rename_i begins
      exact next "re:".toList (by decide) begins
    split
    · rename_i begins
      exact next "fwd:".toList (by decide) begins
    split
    · rename_i begins
      exact next "fw:".toList (by decide) begins
    rename_i first second third
    have unmarked : ∀ mark ∈ marks, ¬ mark.isPrefixOf (lib.toLower (trimSpace s)) = true :=
      List.forall_mem_cons.mpr ⟨first, List.forall_mem_cons.mpr ⟨second,
        List.forall_mem_singleton.mpr third⟩⟩
    exact .plain fun mark known begins =>
      unmarked mark known (List.isPrefixOf_iff_prefix.mpr begins)

theorem base_iff {base : Token} : Base lib s base ↔ baseSubject lib s = base := by
  have own : Base lib s (baseSubject lib s) := base_loop lib (Nat.lt_succ_self _)
  exact ⟨base_unique lib own, fun same => same ▸ own⟩

/-- Go compares texts as lists are compared. -/
theorem compare_token {t : Token} : compare s t = .lt ↔ s < t := by
  induction s generalizing t with
  | nil => cases t <;> simp [compare, List.compareLex]
  | cons c s ih =>
    cases t with
    | nil => simp [compare, List.compareLex]
    | cons d t =>
      have first : compare c d = .lt ↔ c < d := compareOfLessAndEq_eq_lt
      rw [List.cons_lt_cons_iff, ← ih, List.compare_cons_cons, Ordering.then_eq_lt, first,
        Std.compare_eq_iff_eq]

theorem foremost_eq {which : Envelope → List Address} (none_ : which ⟨0, [], [], [], []⟩ = [])
    (row : Row) : row.address lib which = foremost lib (which (envelope row.env)) := by
  have first : ∀ addresses, firstAddr lib addresses = foremost lib addresses := by
    rintro (_ | ⟨a, rest⟩) <;> rfl
  rw [Row.address, first, envelope]
  cases row.env with
  | none => rw [Option.getD_none, none_]; rfl
  | some env => rfl

theorem subject_eq (env : Option Envelope) :
    env.elim [] Envelope.subject = (envelope env).subject := by
  cases env <;> rfl

theorem compareSortField_lt {field : SortField} {a b : Row} :
    compareSortField lib field a b = .lt ↔ Less lib a b field := by
  cases field with
  | arrival | size => exact Nat.compare_eq_lt
  | date =>
    have same : ∀ row : Row, row.date = (envelope row.env).date := by
      intro row
      rw [Row.date]
      cases row.env <;> rfl
    rw [compareSortField, Int.compare_eq_lt, same, same]
    rfl
  | subject =>
    simp only [compareSortField, compare_token, Less, base_iff, Row.subject, subject_eq]
    simp
  | from_ | to_ | cc =>
    rw [compareSortField, compare_token, foremost_eq _ rfl, foremost_eq _ rfl]
    rfl
  | other => simp [compareSortField, Less]

theorem transCmp_field (field : SortField) : Std.TransCmp (compareSortField lib field) := by
  cases field with
  | arrival => exact inferInstanceAs (Std.TransCmp (compareOn fun row : Row => row.m.received))
  | date => exact inferInstanceAs (Std.TransCmp (compareOn Row.date))
  | size => exact inferInstanceAs (Std.TransCmp (compareOn fun row : Row => row.m.size))
  | subject => exact inferInstanceAs (Std.TransCmp (compareOn (Row.subject lib)))
  | from_ => exact inferInstanceAs (Std.TransCmp (compareOn (Row.address lib Envelope.from_)))
  | to_ => exact inferInstanceAs (Std.TransCmp (compareOn (Row.address lib Envelope.to_)))
  | cc => exact inferInstanceAs (Std.TransCmp (compareOn (Row.address lib Envelope.cc)))
  | other => exact inferInstanceAs (Std.TransCmp (compareOn fun _ : Row => (0 : Nat)))

theorem transCmp_key (key : SortKey) : Std.TransCmp (compareSortKey lib key) := by
  have linear := transCmp_field lib key.field
  cases reversed : key.reverse with
  | false =>
    have same : compareSortKey lib key = compareSortField lib key.field := by
      funext a b
      simp [compareSortKey, reversed]
    rwa [same]
  | true =>
    have same : compareSortKey lib key = fun a b => compareSortField lib key.field b a := by
      funext a b
      simp only [compareSortKey, reversed, if_true]
      exact Std.OrientedCmp.eq_swap.symm
    rw [same]
    exact Std.TransCmp.opposite

/-- The comparison of the whole list of keys. -/
def compareRows (keys : List SortKey) : Row → Row → Ordering :=
  inTurn (keys.map (compareSortKey lib)) (compareOn fun row => row.m.uid)

theorem transCmp_rows (keys : List SortKey) : Std.TransCmp (compareRows lib keys) := by
  refine transCmp_inTurn ?_ inferInstance
  intro compare among
  obtain ⟨key, _, rfl⟩ := List.mem_map.mp among
  exact transCmp_key lib key

theorem less_iff (keys : List SortKey) (a b : Row) :
    lessBySortKeys lib keys a b = true ↔ compareRows lib keys a b = .lt := by
  induction keys with
  | nil => simp [lessBySortKeys, compareRows, inTurn, compareOn, Nat.compare_eq_lt]
  | cons key rest ih =>
    have split_ : compareRows lib (key :: rest) a b =
        (compareSortKey lib key a b).then (compareRows lib rest a b) := rfl
    rw [split_, lessBySortKeys]
    cases cmp : compareSortKey lib key a b with
    | eq => simpa [cmp] using ih
    | lt | gt => simp

theorem precedes_of_isLE {keys : List SortKey} {a b : Row}
    (le : (compareRows lib keys a b).isLE = true) : Precedes lib keys a b := by
  induction keys with
  | nil => exact .uid (Nat.isLE_compare.mp le)
  | cons key rest ih =>
    have split_ : compareRows lib (key :: rest) a b =
        (compareSortKey lib key a b).then (compareRows lib rest a b) := rfl
    have swapped := @Std.OrientedCmp.eq_swap _ _ (transCmp_field lib key.field).toOrientedCmp b a
    rw [split_, compareSortKey] at le
    cases cmp : compareSortField lib key.field a b with
    | eq =>
      refine .tie ?_ ?_ (ih (by simpa [cmp] using le))
      · simp [← compareSortField_lt, cmp]
      · simp [← compareSortField_lt, swapped, cmp]
    | lt =>
      cases reversed : key.reverse with
      | false => exact .before reversed ((compareSortField_lt lib).mp cmp)
      | true => simp [cmp, reversed] at le
    | gt =>
      cases reversed : key.reverse with
      | false => simp [cmp, reversed] at le
      | true => exact .behind reversed ((compareSortField_lt lib).mp (by rw [swapped, cmp]; rfl))

end Order

/-! ### The criteria of SORT are those of SEARCH -/

variable {crit : Token} {found : List (Nat × Message)}

section Front

variable {ctx : Context}

theorem head_trimSpace (text : Token) :
    (∀ c ∈ (trimSpace text).head?, isSpace c = false) ∧
      ∀ c ∈ (trimSpace text).getLast?, isSpace c = false := by
  have stops : ∀ l : Token, ∀ c ∈ (l.dropWhile isSpace).head?, isSpace c = false := by
    intro l c head
    have notSpace := List.head?_dropWhile_not isSpace l
    rw [Option.mem_def.mp head] at notSpace
    exact notSpace
  constructor
  · intro c head
    obtain ⟨dropped, whole⟩ := List.dropWhile_suffix (l := (text.dropWhile isSpace).reverse) isSpace
    refine stops text c ?_
    have parts := congrArg List.reverse whole
    rw [List.reverse_append, List.reverse_reverse] at parts
    rw [← parts]
    exact List.mem_head?_append_of_mem_head? head
  · intro c last
    rw [trimSpace, List.getLast?_reverse] at last
    exact stops _ c last

theorem trimSpace_trimSpace (text : Token) : trimSpace (trimSpace text) = trimSpace text :=
  trimSpace_eq (head_trimSpace text).1 (head_trimSpace text).2

/-- Criteria do not begin with a RETURN clause. -/
theorem return_refused (clause : startsWith ctx crit "RETURN " = true)
    (msgs : List Message) : searchMatchesIn ctx crit msgs = none := by
  obtain ⟨after, whole⟩ := List.isPrefixOf_iff_prefix.mp clause
  obtain ⟨word, rest, rfl, letters, behind⟩ : ∃ word rest, crit = word ++ ' ' :: rest ∧
      ctx.lib.toUpper word = "RETURN".toList ∧ ctx.lib.toUpper rest = after := by
    obtain ⟨word, more, rfl, letters, behind⟩ := List.map_eq_append_iff.mp
      (whole.symm.trans (List.append_assoc "RETURN".toList [' '] after))
    obtain ⟨c, rest, rfl, blank, behind⟩ := List.map_eq_cons_iff.mp behind
    rw [ctx.lib.blank c blank]
    exact ⟨word, rest, rfl, letters, behind⟩
  have some_ : word ≠ [] := by
    rintro rfl
    cases letters
  -- A character whose capital is none of these letters is not in the word.
  have unmixed : ∀ c ∈ word, ∀ d : Char, d.toNat < 65 → c ≠ d := by
    rintro c inside d small rfl
    have large : ∀ d ∈ "RETURN".toList, 65 ≤ d.toNat := by simp
    have capital := large (ctx.lib.upperRune c) (letters ▸ List.mem_map_of_mem inside)
    rw [ctx.lib.ascii c (by omega)] at capital
    unfold Char.toUpper at capital
    rw [dif_neg] at capital
    · omega
    · intro letter
      have low : 97 ≤ c.toNat := letter.1
      omega
  have noCharset : startsWith ctx (word ++ ' ' :: rest) "CHARSET " = false := by
    rw [startsWith, ← whole]
    rfl
  have tokens : criteriaTokens ctx (word ++ ' ' :: rest) =
      word :: tokenizeSearch (' ' :: rest) := by
    have plain : withoutCharset ctx (word ++ ' ' :: rest) = word ++ ' ' :: rest :=
      if_neg (Bool.eq_false_iff.mp noCharset)
    rw [criteriaTokens, plain, if_neg (by simp)]
    refine tokenizeSearch_word ?_ ?_ (by simp [isBlank])
    · exact some_
    · intro c inside
      have other := unmixed c inside
      simp [isBlank, isParen, other]
  have other : keyword ctx.lib word = .other := by
    rw [keyword, letters]
    rfl
  obtain ⟨c, more, rfl⟩ := List.exists_cons_of_ne_nil some_
  have first := unmixed c List.mem_cons_self
  have noSet : isSeqSet (c :: more) = false := by
    have noDigit : c.isDigit = false := by
      refine Bool.eq_false_iff.mpr fun digit => first c ?_ rfl
      have code := (Char.isDigit_iff_toNat.mp digit).2
      simp only [Char.reduceToNat] at code
      omega
    simp [isSeqSet, noDigit, first]
  have single : ∀ d : Char, d.toNat < 65 → c :: more ≠ [d] := by
    rintro d small same
    exact first d small (List.cons.inj same).1
  have refused : ∀ fuel toks, parseSearchSeq ctx.lib (fuel + 2) ((c :: more) :: toks) =
      .error ("unknown key " ++ ctx.lib.quote (c :: more)) := by
    intro fuel toks
    have notClosing : c :: more ≠ closing := single ')' (by decide)
    rw [parseSearchSeq, if_neg notClosing, parseSearchOne.eq_def]
    simp only [other, if_neg (single '$' (by decide)), noSet]
    rfl
  rw [searchMatchesIn, tokens, evaluate, refused]

theorem cmdSearch_eq {msgs : List Message}
    (trimmed : trimSpace crit = crit) (accepted : searchMatchesIn ctx crit msgs = some found) :
    cmdSearch ctx crit msgs = some found := by
  have noClause : startsWith ctx crit "RETURN " = false := by
    cases clause : startsWith ctx crit "RETURN " with
    | false => rfl
    | true => rw [return_refused clause] at accepted; cases accepted
  have tokens : searchTokens ctx crit = some (tokenizeSearch (withoutCharset ctx crit)) := by
    simp [searchTokens, withoutReturn, trimmed, noClause]
  rw [cmdSearch, tokens]
  rw [searchMatchesIn, criteriaTokens] at accepted
  by_cases empty : withoutCharset ctx crit = []
  · have all : tokenizeSearch "ALL".toList = ["ALL".toList] := by decide +kernel
    have key : keyword ctx.lib "ALL".toList = .leaf .all := by
      rw [keyword, ctx.lib.upper _ (by simp)]
      rfl
    have evaluated : evaluate ctx msgs ["ALL".toList] = some (matching ctx msgs .all) :=
      evaluate_reads (.leaf key (.nil [])) (.inl rfl)
    rw [if_pos empty, all, evaluated] at accepted
    rw [empty, tokenizeSearch, ← accepted]
    exact evaluate_reads (.nil []) (.inl rfl)
  · rwa [if_neg empty] at accepted

end Front

/-! ### The answers -/

section Answers

variable (ctx : Context) (envelopeOf : Message → Option Envelope)

/-- Two messages are of one thread. An unthreaded message is on its own. -/
def Threaded (orderedSubject : Bool) (a b : Message) : Prop :=
  if orderedSubject then
    ∃ base, Base ctx.lib (envelope (envelopeOf a)).subject base ∧
      Base ctx.lib (envelope (envelopeOf b)).subject base
  else (a.threadId ≠ 0 ∧ a.threadId = b.threadId) ∨
    (a.threadId = 0 ∧ b.threadId = 0 ∧ a.id = b.id)

theorem toDigits_inj {m n : Nat} : Nat.toDigits 10 m = Nat.toDigits 10 n ↔ m = n := by
  constructor
  · intro same
    have value := congrArg (fun text => Nat.ofDigitChars 10 text 0) same
    simpa [Nat.ofDigitChars_toDigits] using value
  · exact congrArg _

theorem threadKey_iff (orderedSubject : Bool) (a b : Message) :
    threadKey ctx envelopeOf orderedSubject a = threadKey ctx envelopeOf orderedSubject b ↔
      Threaded ctx envelopeOf orderedSubject a b := by
  cases orderedSubject with
  | true => simp [threadKey, Threaded, base_iff, subject_eq, eq_comm]
  | false =>
    by_cases first : a.threadId = 0 <;> by_cases second : b.threadId = 0 <;>
      simp [threadKey, Threaded, first, second, toDigits_inj]

/-- What is found is in the order of the UIDs. -/
theorem found_sorted {db : Database} {accountId mailboxId : Nat}
    (accepted : searchMatchesIn ctx crit (listing db accountId mailboxId) = some found) :
    found.Pairwise (fun a b => a.2.uid ≤ b.2.uid) := by
  rw [searchMatchesIn, evaluate] at accepted
  split at accepted
  · cases accepted
  cases accepted
  refine List.Pairwise.filter _ ?_
  have rows : ((withNumbers (listing db accountId mailboxId)).map Prod.snd).Pairwise
      (fun a b => a.uid ≤ b.uid) := by
    rw [map_withNumbers]
    exact List.pairwise_insertionSort _ _
  exact (List.pairwise_map (R := fun a b : Message => a.uid ≤ b.uid) (f := Prod.snd)).mp rows

/-- A group begins with its smallest UID. -/
theorem threads_first {orderedSubject : Bool}
    (sorted : found.Pairwise (fun a b => a.2.uid ≤ b.2.uid)) {group : List (Nat × Message)}
    (among : group ∈ threads ctx envelopeOf orderedSubject found) :
    ∃ a ∈ group, a.2.uid = firstUid group ∧ ∀ b ∈ group, firstUid group ≤ b.2.uid := by
  obtain ⟨keyed, member, rfl⟩ := List.mem_map.mp among
  obtain ⟨keys, divided⟩ := grouped_groups
    (fun mm : Nat × Message => threadKey ctx envelopeOf orderedSubject mm.2) found
  rw [divided.members] at member
  obtain ⟨k, here, rfl⟩ := List.mem_map.mp member
  obtain ⟨a, inside, same⟩ := (divided.complete k).mp here
  have ordered : (ofKey (fun mm : Nat × Message => threadKey ctx envelopeOf orderedSubject mm.2)
      found k).2.Pairwise (fun a b => a.2.uid ≤ b.2.uid) := sorted.filter _
  have some_ : a ∈ (ofKey (fun mm : Nat × Message => threadKey ctx envelopeOf orderedSubject mm.2)
      found k).2 := List.mem_filter.mpr ⟨inside, decide_eq_true same⟩
  revert ordered some_
  generalize (ofKey _ found k).2 = group
  intro ordered some_
  cases group with
  | nil => cases some_
  | cons first others =>
    refine ⟨first, List.mem_cons_self, rfl, fun b member => ?_⟩
    rcases List.mem_cons.mp member with rfl | later
    · exact Nat.le_refl _
    · exact (List.pairwise_cons.mp ordered).1 b later

/-- A list in order of some number. -/
theorem sorted_by {α : Type} (value : α → Nat) (l : List α) :
    (sliceStable (fun a b => decide (value a < value b)) l).Pairwise
      (fun a b => value a ≤ value b) := by
  refine (@sliceStable_sorted α (compareOn value) inferInstance _ (fun a b => ?_) l).imp ?_
  · simp [compareOn, Nat.compare_eq_lt]
  · exact Nat.isLE_compare.mp

variable {args after : Token}

theorem sortArguments_trimmed {keys : List SortKey}
    (arguments : sortArguments ctx args = some (keys, crit)) : ∃ text, trimSpace text = crit := by
  simp only [sortArguments] at arguments
  split at arguments
  · cases arguments
  split at arguments
  · cases arguments
  · exact ⟨_, (Prod.mk.inj (Option.some.inj arguments)).2⟩

/-- The groups of an answer: all of the messages, divided into threads, in order. -/
theorem thread_answer {orderedSubject : Bool}
    (sorted : found.Pairwise (fun a b => a.2.uid ≤ b.2.uid)) :
    let groups := (sliceStable (fun g h => decide (firstUid g < firstUid h))
      (threads ctx envelopeOf orderedSubject found)).map
        (sliceStable (fun a b => decide (a.2.uid < b.2.uid)))
    groups.flatten.Perm found ∧
      (∀ a ∈ found, ∀ b ∈ found, (∃ group ∈ groups, a ∈ group ∧ b ∈ group) ↔
        Threaded ctx envelopeOf orderedSubject a.2 b.2) ∧
      groups.Pairwise (fun g h => ∃ a ∈ g, ∀ b ∈ g ++ h, a.2.uid ≤ b.2.uid) ∧
      ∀ group ∈ groups, group.Pairwise (fun a b => a.2.uid ≤ b.2.uid) := by
  intro groups
  have order := sliceStable_perm (fun g h => decide (firstUid g < firstUid h))
    (threads ctx envelopeOf orderedSubject found)
  have members : ∀ group : List (Nat × Message), ∀ a,
      a ∈ sliceStable (fun a b => decide (a.2.uid < b.2.uid)) group ↔ a ∈ group :=
    fun group a => (sliceStable_perm _ group).mem_iff
  obtain ⟨keys, divided⟩ := grouped_groups
    (fun mm : Nat × Message => threadKey ctx envelopeOf orderedSubject mm.2) found
  refine ⟨?_, ?_, ?_, ?_⟩
  · refine ((flatten_sliceStable_perm).trans order.flatten).trans ?_
    rw [threads, ← List.flatMap_def]
    exact divided.whole
  · intro a here b there
    have keyed := @together_iff _ _ _
      (fun mm : Nat × Message => threadKey ctx envelopeOf orderedSubject mm.2) found a b here there
    rw [← threadKey_iff, ← keyed]
    constructor
    · rintro ⟨_, among, first, second⟩
      obtain ⟨g, ordered, rfl⟩ := List.mem_map.mp among
      obtain ⟨group, member, rfl⟩ := List.mem_map.mp (order.mem_iff.mp ordered)
      exact ⟨group, member, (members _ a).mp first, (members _ b).mp second⟩
    · rintro ⟨group, member, first, second⟩
      exact ⟨_, List.mem_map_of_mem (order.mem_iff.mpr (List.mem_map_of_mem member)),
        (members _ a).mpr first, (members _ b).mpr second⟩
  · refine List.pairwise_map.mpr ((sorted_by firstUid _).imp_of_mem ?_)
    intro g h first second below
    obtain ⟨a, inside, smallest, least⟩ :=
      threads_first ctx envelopeOf sorted (order.mem_iff.mp first)
    obtain ⟨_, _, _, others⟩ := threads_first ctx envelopeOf sorted (order.mem_iff.mp second)
    refine ⟨a, (members g a).mpr inside, fun b member => ?_⟩
    rcases List.mem_append.mp member with same | other
    · exact smallest ▸ least b ((members g b).mp same)
    · exact smallest ▸ Nat.le_trans below (others b ((members h b).mp other))
  · intro group among
    obtain ⟨g, _, rfl⟩ := List.mem_map.mp among
    exact sorted_by (fun mm : Nat × Message => mm.2.uid) g

theorem until_stop {front : Token} {stop : Char} (none_ : stop ∉ front) (after : Token) :
    (front ++ stop :: after).takeWhile (· != stop) = front ∧
      (front ++ stop :: after).dropWhile (· != stop) = stop :: after := by
  have others : ∀ c ∈ front, (c != stop) = true := by
    rintro c inside
    exact bne_iff_ne.mpr fun same => none_ (same ▸ inside)
  rw [List.takeWhile_append_of_pos others, List.dropWhile_append_of_pos others]
  simp

theorem behindCharset_eq {charset : Token} (shape : trimSpace after = charset ++ ' ' :: crit)
    (word : ' ' ∉ charset) : behindCharset after = trimSpace crit := by
  rw [behindCharset, shape, (until_stop word crit).2, List.tail_cons]

theorem sortArguments_named {text : Token} {named : List SortKey}
    (shape : trimSpace args = '(' :: (text ++ ')' :: after)) (inside : ')' ∉ text)
    (names : Named (fields (ctx.lib.toUpper text)) named) :
    sortArguments ctx args = some (named, behindCharset after) := by
  have whole := until_stop (show ')' ∉ '(' :: text by simpa using inside) after
  rw [List.cons_append] at whole
  simp only [sortArguments, shape, List.head?_cons, ne_eq, not_true_eq_false, if_false, whole.2,
    List.tail_cons, (until_stop inside after).1, parseSortKeys_named ctx.lib names]

theorem threadArguments_named {algorithm : Token}
    (shape : trimSpace args = algorithm ++ ' ' :: after)
    (word : ∀ c ∈ algorithm, isSpace c = false) :
    threadArguments ctx args =
      (decide (ctx.lib.toUpper algorithm = "ORDEREDSUBJECT".toList), behindCharset after) := by
  have unblank : ' ' ∉ algorithm := fun inside => absurd (word ' ' inside) (by decide)
  have trimmed : trimSpace algorithm = algorithm :=
    trimSpace_eq (fun c head => word c (List.mem_of_mem_head? head))
      (fun c last => word c (List.mem_of_mem_getLast? last))
  simp only [threadArguments, shape, (until_stop unblank after).1, trimmed,
    (until_stop unblank after).2, List.tail_cons, beq_eq_decide]

/-- SORT answers with the messages of SEARCH in the order of the keys it names, and THREAD with the
same messages divided into threads, from the smallest UID up. -/
theorem sort_thread_rearrange (db : Database) (accountId mailboxId : Nat) :
    (∀ args text after charset crit named, trimSpace args = '(' :: (text ++ ')' :: after) →
      ')' ∉ text → Named (fields (ctx.lib.toUpper text)) named →
      trimSpace after = charset ++ ' ' :: crit → ' ' ∉ charset →
      sortArguments ctx args = some (named, trimSpace crit)) ∧
    (∀ args algorithm after charset crit, trimSpace args = algorithm ++ ' ' :: after →
      (∀ c ∈ algorithm, isSpace c = false) → trimSpace after = charset ++ ' ' :: crit →
      ' ' ∉ charset → threadArguments ctx args =
        (decide (ctx.lib.toUpper algorithm = "ORDEREDSUBJECT".toList), trimSpace crit)) ∧
    (∀ args keys crit found, sortArguments ctx args = some (keys, crit) →
      searchMatchesIn ctx crit (listing db accountId mailboxId) = some found →
      cmdSearch ctx crit (listing db accountId mailboxId) = some found ∧
      ∃ rows, cmdSort ctx envelopeOf args (listing db accountId mailboxId) = some rows ∧
        (rows.map (fun row => row.m.uid)).Perm (found.map (fun mm => mm.2.uid)) ∧
        rows.Pairwise (Precedes ctx.lib keys)) ∧
    (∀ args found,
      searchMatchesIn ctx (threadArguments ctx args).2 (listing db accountId mailboxId) =
        some found →
      cmdSearch ctx (threadArguments ctx args).2 (listing db accountId mailboxId) = some found ∧
      ∃ groups, cmdThread ctx envelopeOf args (listing db accountId mailboxId) = some groups ∧
        groups.flatten.Perm found ∧
        (∀ a ∈ found, ∀ b ∈ found, (∃ group ∈ groups, a ∈ group ∧ b ∈ group) ↔
          Threaded ctx envelopeOf (threadArguments ctx args).1 a.2 b.2) ∧
        groups.Pairwise (fun g h => ∃ a ∈ g, ∀ b ∈ g ++ h, a.2.uid ≤ b.2.uid) ∧
        ∀ group ∈ groups, group.Pairwise (fun a b => a.2.uid ≤ b.2.uid)) := by
  refine ⟨?_, ?_, ?_, ?_⟩
  · intro args text after charset crit named shape inside names behind word
    rw [sortArguments_named ctx shape inside names, behindCharset_eq behind word]
  · intro args algorithm after charset crit shape alone behind word
    rw [threadArguments_named ctx shape alone, behindCharset_eq behind word]
  · intro args keys crit found arguments accepted
    obtain ⟨text, rfl⟩ := sortArguments_trimmed ctx arguments
    have ran : cmdSort ctx envelopeOf args (listing db accountId mailboxId) =
        some (sliceStable (lessBySortKeys ctx.lib keys)
          (found.map (fun mm => (⟨mm.1, mm.2, envelopeOf mm.2⟩ : Row)))) := by
      simp [cmdSort, arguments, accepted]
    refine ⟨cmdSearch_eq (trimSpace_trimSpace text) accepted, _, ran, ?_, ?_⟩
    · refine ((sliceStable_perm _ _).map _).trans ?_
      rw [List.map_map]
      exact .refl _
    · refine (sliceStable_sorted (transCmp_rows ctx.lib keys) (less_iff ctx.lib keys) _).imp ?_
      exact precedes_of_isLE ctx.lib
  · intro args found accepted
    have ran : cmdThread ctx envelopeOf args (listing db accountId mailboxId) =
        some ((sliceStable (fun g h => decide (firstUid g < firstUid h))
          (threads ctx envelopeOf (threadArguments ctx args).1 found)).map
            (sliceStable (fun a b => decide (a.2.uid < b.2.uid)))) := by
      simp [cmdThread, accepted]
    exact ⟨cmdSearch_eq (trimSpace_trimSpace _) accepted, _, ran,
      thread_answer ctx envelopeOf (found_sorted ctx accepted)⟩

/-- The two messages of a mailbox in reverse order of their arrival and as one thread. -/
theorem sort_thread_rearrange_two :
    (∃ rows, cmdSort asciiContext (fun _ => none) "(REVERSE ARRIVAL) UTF-8 ALL".toList
      (listing laterSecond 7 1) = some rows ∧ rows.Pairwise (Precedes asciiLibrary
        [⟨.arrival, true⟩])) ∧
    ∃ groups, cmdThread asciiContext (fun _ => none) "ORDEREDSUBJECT UTF-8 ALL".toList
      (listing laterSecond 7 1) = some groups ∧ groups.flatten.length = 2 := by
  have whole := sort_thread_rearrange asciiContext (fun _ => none) laterSecond 7 1
  have arguments : sortArguments asciiContext "(REVERSE ARRIVAL) UTF-8 ALL".toList =
      some ([⟨.arrival, true⟩], "ALL".toList) := by
    have names : fields (asciiLibrary.toUpper "REVERSE ARRIVAL".toList) =
        ["REVERSE".toList, "ARRIVAL".toList] := by decide +kernel
    have known : ("ARRIVAL", SortField.arrival) ∈ sortFields := by decide
    exact whole.1 _ "REVERSE ARRIVAL".toList " UTF-8 ALL".toList "UTF-8".toList "ALL".toList _
      (by decide +kernel) (by decide) (names ▸ .reverse known .nil) (by decide +kernel) (by decide)
  have found : (searchMatchesIn asciiContext "ALL".toList (listing laterSecond 7 1)).map
      List.length = some 2 := by decide +kernel
  obtain ⟨found, accepted, two⟩ := Option.map_eq_some_iff.mp found
  have thread : (threadArguments asciiContext "ORDEREDSUBJECT UTF-8 ALL".toList).2 =
      "ALL".toList := by decide +kernel
  obtain ⟨_, rows, sorted, _, ordered⟩ := whole.2.2.1 _ _ _ found arguments accepted
  obtain ⟨_, groups, divided, perm, _⟩ := whole.2.2.2 "ORDEREDSUBJECT UTF-8 ALL".toList found
    (by rw [thread]; exact accepted)
  exact ⟨⟨rows, sorted, ordered⟩, groups, divided, perm.length_eq.trans two⟩

end Answers

end OctoMail.Imap.Search
