import Mathlib.Data.List.TakeWhile
import Mathlib.Tactic.Common

/-!
# Export and import of a mailbox

`ops/mailboxops/mbox.go`. Both directions read lines with a `bufio.Scanner`: a line is
what precedes a newline, less one carriage return, and a line that does not fit the
buffer ends the scan with an error. Export writes a separator before each message and an
empty line after it, and quotes the lines that could be taken for a separator. Import
unquotes and collects lines up to the next separator, the empty line included: a message
comes back with one more line than it had.

A mailbox is the list of its messages in the order of their UIDs. Import is generic in
`deliver`, which may fail.
-/

namespace OctoMail.Ops

open List

abbrev Bytes := List UInt8

def crlf : Bytes := [13, 10]

/-! ### The scanner -/

/-- The pieces of a text between newlines. What follows the last newline counts if it is
not empty. -/
def rawLines : Bytes → List Bytes
  | [] => []
  | c :: rest =>
      if c = 10 then [] :: rawLines rest
      else
        match rawLines rest with
        | [] => [[c]]
        | line :: lines => (c :: line) :: lines

/-- `dropCR` of the package `bufio`. -/
def dropCR (line : Bytes) : Bytes := if line.getLast? = some 13 then line.dropLast else line

/-- The size given to `Scanner.Buffer`. -/
def maxTokenSize : Nat := 16 * 1024 * 1024

/-- A line and its newline, or one more byte, fit the buffer. -/
def fits (line : Bytes) : Bool := decide (line.length < maxTokenSize)

/-- The lines that `Scan` yields before it ends, and whether it ends without an error. -/
def scan (text : Bytes) : List Bytes × Bool :=
  (((rawLines text).takeWhile fits).map dropCR, (rawLines text).all fits)

/-! ### The two directions -/

/-- `"From "`. -/
def mboxFrom : Bytes := [70, 114, 111, 109, 32]

/-- `"From octo-mail@localhost"`. -/
def separator : Bytes := mboxFrom ++
  [111, 99, 116, 111, 45, 109, 97, 105, 108, 64, 108, 111, 99, 97, 108, 104, 111, 115, 116]

/-- `strings.TrimLeft(line, ">")`. -/
def trimLeft (line : Bytes) : Bytes := line.dropWhile (fun c => c = 62)

def escape (line : Bytes) : Bytes :=
  if mboxFrom.isPrefixOf (trimLeft line) then 62 :: line else line

def unescape (line : Bytes) : Bytes :=
  if line.head? = some 62 ∧ mboxFrom.isPrefixOf (trimLeft line) then line.drop 1 else line

/-- The lines with their ends. -/
def unlines (lines : List Bytes) : Bytes := lines.flatMap (fun line => line ++ crlf)

def writeMboxrdBody (body : Bytes) : Option Bytes :=
  let (lines, whole) := scan body
  if whole then some (unlines (lines.map escape)) else none

/-- Write the messages after what is already written, or fail with the number of messages
written before. -/
def exportFrom (n : Nat) (out : Bytes) : List Bytes → Except Nat (Nat × Bytes)
  | [] => .ok (n, out)
  | data :: rest =>
      match writeMboxrdBody data with
      | none => .error n
      | some body => exportFrom (n + 1) (out ++ (separator ++ crlf ++ body ++ crlf)) rest

def exportMbox (messages : List Bytes) : Except Nat (Nat × Bytes) := exportFrom 0 [] messages

/-- The text is made of characters for which `unicode.IsSpace` holds, so that `TrimSpace`
leaves nothing. -/
def blank : Bytes → Bool
  | [] => true
  | 0xC2 :: 0x85 :: rest | 0xC2 :: 0xA0 :: rest => blank rest
  | 0xE1 :: 0x9A :: 0x80 :: rest => blank rest
  | 0xE2 :: 0x81 :: 0x9F :: rest => blank rest
  | 0xE2 :: 0x80 :: c :: rest =>
      (decide (0x80 ≤ c ∧ c ≤ 0x8A) || c == 0xA8 || c == 0xA9 || c == 0xAF) && blank rest
  | 0xE3 :: 0x80 :: 0x80 :: rest => blank rest
  | c :: rest => (decide (9 ≤ c ∧ c ≤ 13) || c == 32) && blank rest

section Import

variable {σ ε : Type} (deliver : σ → Bytes → Except ε σ)

inductive ImportError (ε : Type) where
  | tooLong
  | delivery (error : ε)
deriving DecidableEq, Repr

/-- The variables of `ImportMbox`, and the account. -/
structure Import (σ : Type) where
  cur : List Bytes := []
  started : Bool := false
  n : Nat := 0
  account : σ
deriving Repr

/-- `strings.Join(cur, "\r\n")`. -/
def joinLines (lines : List Bytes) : Bytes := crlf.intercalate lines

def flush (s : Import σ) : Except ε (Import σ) :=
  if s.cur.isEmpty then .ok s
  else if blank (joinLines s.cur) then .ok { s with cur := [] }
  else
    (deliver s.account (joinLines s.cur ++ crlf)).map (fun account =>
      { s with cur := [], n := s.n + 1, account := account })

/-- The loop over the lines. A failed delivery ends it; what was delivered stays. -/
def importLines (s : Import σ) : List Bytes → Import σ × Option ε
  | [] => (s, none)
  | line :: rest =>
      if mboxFrom.isPrefixOf line then
        if s.started then
          match flush deliver s with
          | .error error => (s, some error)
          | .ok flushed => importLines { flushed with started := true } rest
        else importLines { s with started := true } rest
      else importLines { s with cur := s.cur ++ [unescape line] } rest

/-- The number of messages delivered, the account, and the error if there is one. -/
def importMbox (account : σ) (text : Bytes) : Nat × σ × Option (ImportError ε) :=
  let (lines, whole) := scan text
  match importLines deliver { account := account } lines with
  | (s, some error) => (s.n, s.account, some (.delivery error))
  | (s, none) =>
      if whole then
        match flush deliver s with
        | .error error => (s.n, s.account, some (.delivery error))
        | .ok flushed => (flushed.n, flushed.account, none)
      else (s.n, s.account, some .tooLong)

end Import

/-- A mailbox: UIDs and messages. The next UID is above those given. -/
structure Mailbox where
  messages : List (Nat × Bytes)
  uidNext : Nat
  ordered : messages.Pairwise (fun first second => first.1 < second.1)
  below : ∀ message ∈ messages, message.1 < uidNext

def Mailbox.bodies (mailbox : Mailbox) : List Bytes := mailbox.messages.map (fun m => m.2)

/-- A delivery gives the message the next UID. -/
def Mailbox.deliver (mailbox : Mailbox) (raw : Bytes) : Mailbox where
  messages := mailbox.messages ++ [(mailbox.uidNext, raw)]
  uidNext := mailbox.uidNext + 1
  ordered := by
    refine pairwise_append.mpr ⟨mailbox.ordered, pairwise_singleton _ _, ?_⟩
    intro first member second last
    rw [mem_singleton.mp last]
    exact mailbox.below first member
  below := by
    intro message member
    rcases mem_append.mp member with old | new
    · exact Nat.lt_succ_of_lt (mailbox.below message old)
    · rw [mem_singleton.mp new]
      exact Nat.lt_succ_self _

theorem Mailbox.bodies_deliver (mailbox : Mailbox) (raw : Bytes) :
    (mailbox.deliver raw).bodies = mailbox.bodies ++ [raw] := by
  simp [Mailbox.bodies, Mailbox.deliver]

/-- A mailbox that takes everything. -/
def accepts (target : Mailbox) (raw : Bytes) : Except Empty Mailbox := .ok (target.deliver raw)

def restore (target : Mailbox) (text : Bytes) : Nat × Mailbox × Option (ImportError Empty) :=
  importMbox accepts target text

/-! ### Lines -/

theorem rawLines_line {line : Bytes} (plain : 10 ∉ line) (rest : Bytes) :
    rawLines (line ++ 10 :: rest) = line :: rawLines rest := by
  induction line with
  | nil => rfl
  | cons c line ih =>
    have other : c ≠ 10 := fun same => plain (same ▸ mem_cons_self)
    have later := ih fun member => plain (mem_cons_of_mem c member)
    simp only [cons_append, rawLines, if_neg other, later]

theorem unlines_append (first second : List Bytes) :
    unlines (first ++ second) = unlines first ++ unlines second :=
  flatMap_append

variable {lines : List Bytes}

theorem rawLines_unlines (plain : ∀ line ∈ lines, 10 ∉ line) :
    rawLines (unlines lines) = lines.map (fun line => line ++ [13]) := by
  induction lines with
  | nil => rfl
  | cons line rest ih =>
    have first : 10 ∉ line ++ [13] := by
      simpa using plain line mem_cons_self
    have later := ih fun other member => plain other (mem_cons_of_mem _ member)
    have shape : unlines (line :: rest) = (line ++ [13]) ++ 10 :: unlines rest := by
      simp [unlines, crlf]
    rw [shape, rawLines_line first, later, map_cons]

theorem dropCR_concat (line : Bytes) : dropCR (line ++ [13]) = line := by
  simp [dropCR]

/-- Text that is made of lines is scanned into these, if they fit. -/
theorem scan_unlines (plain : ∀ line ∈ lines, 10 ∉ line)
    (short : ∀ line ∈ lines, fits (line ++ [13]) = true) :
    scan (unlines lines) = (lines, true) := by
  have raw := rawLines_unlines plain
  have whole : ∀ line ∈ lines.map (fun line => line ++ [13]), fits line = true := by
    intro line member
    obtain ⟨old, there, rfl⟩ := mem_map.mp member
    exact short old there
  have same : (lines.map (fun line => line ++ [13])).map dropCR = lines := by
    rw [map_map]
    exact (map_congr_left fun line _ => dropCR_concat line).trans (map_id lines)
  rw [scan, raw, takeWhile_eq_self_iff.mpr whole, all_eq_true.mpr whole, same]

/-- A line that does not fit ends the scan with an error. -/
theorem scan_long (plain : ∀ line ∈ lines, 10 ∉ line)
    (long : ∃ line ∈ lines, fits (line ++ [13]) = false) : (scan (unlines lines)).2 = false := by
  obtain ⟨line, member, exceeds⟩ := long
  rw [scan, rawLines_unlines plain]
  exact all_eq_false.mpr ⟨_, mem_map_of_mem member, by simp [exceeds]⟩

/-! ### Quoting -/

/-- A quoted line is not taken for a separator. -/
theorem escape_not_from (line : Bytes) : mboxFrom.isPrefixOf (escape line) = false := by
  unfold escape
  split
  · rfl
  rename_i unquoted
  cases from_ : mboxFrom.isPrefixOf line with
  | false => rfl
  | true =>
    -- A line that starts with `From` is what is left of it without leading `>`.
    have whole : trimLeft line = line := by
      cases line with
      | nil => rfl
      | cons c rest =>
        have first : c = 70 := by
          simp only [mboxFrom, isPrefixOf_cons_cons, Bool.and_eq_true, beq_iff_eq] at from_
          exact from_.1.symm
        subst first
        rfl
    rw [whole] at unquoted
    exact absurd from_ unquoted

theorem unescape_escape (line : Bytes) : unescape (escape line) = line := by
  unfold escape
  split
  · rename_i quoted
    have again : mboxFrom.isPrefixOf (trimLeft (62 :: line)) = true := quoted
    rw [unescape, if_pos ⟨rfl, again⟩]
    rfl
  · rename_i unquoted
    rw [unescape, if_neg fun found => unquoted found.2]

theorem escape_plain {line : Bytes} (plain : 10 ∉ line) : 10 ∉ escape line := by
  unfold escape
  split
  · simpa using plain
  · exact plain

/-! ### The stream -/

/-- The lines that are exported for a message. -/
def exported (lines : List Bytes) : List Bytes := separator :: lines.map escape ++ [[]]

theorem separator_from : mboxFrom.isPrefixOf separator = true := by decide

theorem separator_plain : 10 ∉ separator := by decide

theorem exported_plain (plain : ∀ line ∈ lines, 10 ∉ line) :
    ∀ line ∈ exported lines, 10 ∉ line := by
  intro line member
  rcases mem_append.mp member with body | last
  · rcases mem_cons.mp body with rfl | quoted
    · exact separator_plain
    · obtain ⟨old, there, rfl⟩ := mem_map.mp quoted
      exact escape_plain (plain old there)
  · rw [mem_singleton.mp last]
    exact not_mem_nil

/-- A message of whole lines that the scanner can read. -/
structure Lined (lines : List Bytes) : Prop where
  plain : ∀ line ∈ lines, 10 ∉ line
  short : ∀ line ∈ lines, fits (line ++ [13]) = true

theorem writeMboxrdBody_unlines (lined : Lined lines) :
    writeMboxrdBody (unlines lines) = some (unlines (lines.map escape)) := by
  simp only [writeMboxrdBody, scan_unlines lined.plain lined.short, if_true]

/-- Export writes the lines of all messages, one message after another. -/
theorem exportFrom_unlines (bodies : List (List Bytes)) (lined : ∀ lines ∈ bodies, Lined lines)
    (n : Nat) (out : Bytes) : exportFrom n out (bodies.map unlines) =
      .ok (n + bodies.length, out ++ unlines (bodies.flatMap exported)) := by
  induction bodies generalizing n out with
  | nil => simp [exportFrom, unlines]
  | cons lines rest ih =>
    have first := writeMboxrdBody_unlines (lined lines mem_cons_self)
    have later := ih fun other member => lined other (mem_cons_of_mem _ member)
    have shape : unlines (exported lines) =
        separator ++ crlf ++ unlines (lines.map escape) ++ crlf := by
      simp [exported, unlines]
    rw [map_cons, exportFrom, first]
    dsimp only
    rw [later, flatMap_cons, unlines_append, shape, length_cons, append_assoc]
    congr 2
    omega

/-! ### What import makes of it -/

/-- A line that follows the others in the text adds its end to them. -/
theorem joinLines_concat (lines : List Bytes) : joinLines (lines ++ [[]]) = unlines lines := by
  induction lines with
  | nil => rfl
  | cons line rest ih =>
    have shape : joinLines (line :: (rest ++ [[]])) = line ++ crlf ++ joinLines (rest ++ [[]]) := by
      cases rest <;> simp [joinLines, List.intercalate]
    rw [cons_append, shape, ih]
    simp [unlines]

/-- The messages that are delivered for the exported ones: blank ones are dropped, and the
others end with one more line. -/
def received (messages : List Bytes) : List Bytes :=
  (messages.filter (fun message => !blank message)).map (fun message => message ++ crlf)

def Mailbox.deliverAll (mailbox : Mailbox) (messages : List Bytes) : Mailbox :=
  messages.foldl Mailbox.deliver mailbox

theorem Mailbox.bodies_deliverAll (mailbox : Mailbox) (messages : List Bytes) :
    (mailbox.deliverAll messages).bodies = mailbox.bodies ++ messages := by
  induction messages generalizing mailbox with
  | nil => simp [Mailbox.deliverAll]
  | cons message rest ih =>
    have later := ih (mailbox.deliver message)
    rw [Mailbox.bodies_deliver, append_assoc] at later
    exact later

/-- The state after a message is flushed. -/
def flushed (s : Import Mailbox) (message : Bytes) : Import Mailbox :=
  { s with
    cur := []
    n := s.n + (received [message]).length
    account := s.account.deliverAll (received [message]) }

theorem flush_message (s : Import Mailbox) (pending : s.cur = lines ++ [[]]) :
    flush accepts s = .ok (flushed s (unlines lines)) := by
  have some_ : s.cur.isEmpty = false := by
    rw [pending]
    cases lines <;> rfl
  have joined : joinLines s.cur = unlines lines := by rw [pending, joinLines_concat]
  rw [flush, some_, joined]
  cases whole : blank (unlines lines) with
  | true =>
    have nothing : received [unlines lines] = [] := by simp [received, whole]
    rw [flushed, nothing]
    rfl
  | false =>
    have one : received [unlines lines] = [unlines lines ++ crlf] := by simp [received, whole]
    rw [flushed, one]
    rfl

/-- The lines of a message are unquoted and collected. -/
theorem importLines_body (s : Import Mailbox) (lines rest : List Bytes) :
    importLines accepts s (lines.map escape ++ rest) =
      importLines accepts { s with cur := s.cur ++ lines } rest := by
  induction lines generalizing s with
  | nil => rw [append_nil]; rfl
  | cons line lines ih =>
    have collected := ih { s with cur := s.cur ++ [line] }
    rw [append_assoc] at collected
    simp only [map_cons, cons_append, importLines, escape_not_from, Bool.false_eq_true,
      if_false, unescape_escape]
    exact collected

/-- A whole message is collected, after what came before it is flushed. -/
theorem importLines_exported (s : Import Mailbox) (lines : List Bytes) {rest : List Bytes} :
    importLines accepts { s with cur := [], started := true }
        (lines.map escape ++ [[]] ++ rest) =
      importLines accepts { s with cur := lines ++ [[]], started := true } rest := by
  rw [append_assoc, importLines_body]
  rfl

/-- The remaining messages are delivered after the one that is collected. -/
theorem importLines_rest (bodies : List (List Bytes)) (s : Import Mailbox) (lines : List Bytes)
    (pending : s.cur = lines ++ [[]]) (started : s.started = true) :
    ∃ final, importLines accepts s (bodies.flatMap exported) = (final, none) ∧
      ∃ done, flush accepts final = .ok done ∧
        done.n = s.n + (received ((lines :: bodies).map unlines)).length ∧
        done.account = s.account.deliverAll (received ((lines :: bodies).map unlines)) := by
  induction bodies generalizing s lines with
  | nil => exact ⟨s, rfl, _, flush_message s pending, rfl, rfl⟩
  | cons body rest ih =>
    obtain ⟨final, read, done, ended, count, account⟩ := ih
      { flushed s (unlines lines) with cur := body ++ [[]], started := true } body rfl rfl
    have split_ : received ((lines :: body :: rest).map unlines) =
        received [unlines lines] ++ received ((body :: rest).map unlines) := by
      simp [received, filter_cons]
      split <;> rfl
    refine ⟨final, ?_, done, ended, ?_, ?_⟩
    · rw [flatMap_cons, exported, cons_append, cons_append, importLines,
        if_pos separator_from, if_pos started, flush_message s pending]
      dsimp only
      rw [← read]
      exact importLines_exported (flushed s (unlines lines)) body
    · rw [count, split_, length_append, ← Nat.add_assoc]
      rfl
    · rw [account, split_, Mailbox.deliverAll, Mailbox.deliverAll, foldl_append]
      rfl

/-- Import of an exported stream whose lines can be read. -/
theorem restore_exported (target : Mailbox) (bodies : List (List Bytes))
    (plain : ∀ lines ∈ bodies, ∀ line ∈ lines, 10 ∉ line)
    (short : ∀ line ∈ bodies.flatMap exported, fits (line ++ [13]) = true) :
    restore target (unlines (bodies.flatMap exported)) =
      ((received (bodies.map unlines)).length,
        target.deliverAll (received (bodies.map unlines)), none) := by
  have whole : ∀ line ∈ bodies.flatMap exported, 10 ∉ line := by
    intro line member
    obtain ⟨lines, there, inside⟩ := mem_flatMap.mp member
    exact exported_plain (plain lines there) line inside
  rw [restore, importMbox, scan_unlines whole short]
  dsimp only
  cases bodies with
  | nil => rfl
  | cons lines rest =>
    obtain ⟨final, read, done, ended, count, account⟩ := importLines_rest rest
      { account := target, cur := lines ++ [[]], started := true } lines rfl rfl
    have first : importLines accepts { account := target } ((lines :: rest).flatMap exported) =
        (final, none) := by
      rw [flatMap_cons, exported, cons_append, cons_append, importLines,
        if_pos separator_from, if_neg Bool.false_ne_true, ← read]
      exact importLines_exported { account := target } lines
    rw [first]
    dsimp only
    rw [if_pos rfl, ended]
    dsimp only
    rw [count, account, Nat.zero_add]

/-- Import fails on a stream with a line that cannot be read. -/
theorem restore_long (target : Mailbox) {bodies : List (List Bytes)}
    (plain : ∀ lines ∈ bodies, ∀ line ∈ lines, 10 ∉ line)
    (long : ∃ line ∈ bodies.flatMap exported, fits (line ++ [13]) = false) :
    (restore target (unlines (bodies.flatMap exported))).2.2 ≠ none := by
  have whole : ∀ line ∈ bodies.flatMap exported, 10 ∉ line := by
    intro line member
    obtain ⟨lines, there, inside⟩ := mem_flatMap.mp member
    exact exported_plain (plain lines there) line inside
  have stopped := scan_long whole long
  rw [restore, importMbox]
  split
  rename_i lines complete scanned
  have incomplete : complete = false := by
    rw [scanned] at stopped
    exact stopped
  split
  · nofun
  · rw [if_neg (by rw [incomplete]; nofun)]
    nofun

/-! ### Losses -/

/-- What a backup is for: the exported messages are in the other mailbox, each as it was and
in the order of the UIDs. -/
def Lossless (source target : Mailbox) : Prop :=
  ∃ n text, exportMbox source.bodies = .ok (n, text) ∧
    ∃ restored, restore target text = (n, restored, none) ∧
      restored.bodies = target.bodies ++ source.bodies

theorem received_ne {messages : List Bytes} (some_ : messages ≠ []) :
    received messages ≠ messages := by
  intro same
  have length : (messages.filter (fun message => !blank message)).length = messages.length := by
    rw [← length_map (f := fun message => message ++ crlf)]
    exact congrArg List.length same
  have kept := length_filter_eq_length_iff.mp length
  rw [received, filter_eq_self.mpr kept] at same
  cases messages with
  | nil => exact some_ rfl
  | cons message rest =>
    have first : message ++ crlf = message := (List.cons.inj same).1
    have grown := congrArg List.length first
    simp [crlf] at grown

/-- Backup and restore is lossless for the empty mailbox only. -/
theorem lossless_iff_empty (source target : Mailbox)
    (wellFormed : ∀ body ∈ source.bodies, ∃ lines, lines ≠ [] ∧ Lined lines ∧
      body = unlines lines) :
    Lossless source target ↔ source.messages = [] := by
  obtain ⟨bodies, lined, same⟩ : ∃ bodies : List (List Bytes),
      (∀ lines ∈ bodies, Lined lines) ∧ source.bodies = bodies.map unlines := by
    generalize source.bodies = messages at wellFormed
    induction messages with
    | nil => exact ⟨[], nofun, rfl⟩
    | cons message rest ih =>
      obtain ⟨lines, _, lined, rfl⟩ := wellFormed message mem_cons_self
      obtain ⟨bodies, others, rfl⟩ :=
        ih fun body member => wellFormed body (mem_cons_of_mem _ member)
      exact ⟨lines :: bodies, forall_mem_cons.mpr ⟨lined, others⟩, rfl⟩
  have plain : ∀ lines ∈ bodies, ∀ line ∈ lines, 10 ∉ line := fun lines member =>
    (lined lines member).plain
  have written := exportFrom_unlines bodies lined 0 []
  rw [← same, Nat.zero_add, nil_append] at written
  constructor
  · rintro ⟨n, text, exported_, restored, read, bodies_⟩
    rw [exportMbox, written] at exported_
    obtain ⟨rfl, rfl⟩ := Prod.mk.inj (Except.ok.inj exported_)
    by_contra some_
    by_cases short : ∀ line ∈ bodies.flatMap exported, fits (line ++ [13]) = true
    · rw [restore_exported target bodies plain short] at read
      obtain ⟨_, rest⟩ := Prod.mk.inj read
      obtain ⟨delivered, _⟩ := Prod.mk.inj rest
      rw [← delivered, Mailbox.bodies_deliverAll] at bodies_
      have equal := append_cancel_left bodies_
      rw [same] at equal
      refine received_ne (fun none_ => some_ ?_) equal
      rw [← same] at none_
      exact map_eq_nil_iff.mp none_
    · push Not at short
      obtain ⟨line, member, exceeds⟩ := short
      refine restore_long target plain ⟨line, member, by simpa using exceeds⟩ ?_
      rw [read]
  · intro none_
    have empty : source.bodies = [] := by rw [Mailbox.bodies, none_]; rfl
    rw [Lossless, empty]
    exact ⟨0, [], rfl, target, rfl, by rw [append_nil]⟩

def emptyMailbox : Mailbox := ⟨[], 1, List.Pairwise.nil, nofun⟩

/-- A mailbox with one message of one line, `From a`. -/
def oneLine : Mailbox := emptyMailbox.deliver [70, 114, 111, 109, 32, 97, 13, 10]

theorem oneLine_lined :
    ∀ body ∈ oneLine.bodies, ∃ lines, lines ≠ [] ∧ Lined lines ∧ body = unlines lines := by
  intro body member
  refine ⟨[[70, 114, 111, 109, 32, 97]], by decide, ⟨by decide, by decide⟩, ?_⟩
  rw [mem_singleton.mp member]
  rfl

theorem oneLine_lossy : Lossless oneLine emptyMailbox ↔ oneLine.messages = [] :=
  lossless_iff_empty oneLine emptyMailbox oneLine_lined

/-- The message comes back with an empty line after it. -/
theorem oneLine_grows :
    ∃ text, exportMbox oneLine.bodies = .ok (1, text) ∧
      ∃ restored, restore emptyMailbox text = (1, restored, none) ∧
        oneLine.bodies = [[70, 114, 111, 109, 32, 97, 13, 10]] ∧
        restored.bodies = [[70, 114, 111, 109, 32, 97, 13, 10, 13, 10]] :=
  ⟨_, rfl, _, rfl, rfl, rfl⟩

end OctoMail.Ops
