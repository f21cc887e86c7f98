import OctoMail.Store.Messages
import OctoMail.Utf8

/-!
# The transactions of the IMAP commands

What each IMAP command that writes does inside its transaction
(`protocol/imapd/mailbox.go`, `store.go`, `status.go`). The command line has been
read: mailbox names are normalised, literals are bodies, and the selected mailbox is
the one the session holds, which may have been deleted since. What a command writes
to the client afterwards is left out, as is the retraining of the junk filter.
-/

namespace OctoMail.Imap

open Store Store.Tx Program

/-! ### Sequence sets and flag lists -/

/-- White space in the sense of `unicode.IsSpace`. -/
abbrev isSpace (c : Char) : Bool := Utf8.isSpace c

def trimSpace (text : List Char) : List Char :=
  ((text.dropWhile isSpace).reverse.dropWhile isSpace).reverse

/-- `strconv.ParseUint(x, 10, 32)` with its error dropped: zero where the text is no
number, the largest value where the number is too large. -/
def parseUint32 (text : List Char) : Nat :=
  digits text 0
where
  digits : List Char → Nat → Nat
    | [], n => n
    | c :: rest, n =>
        if c.isDigit then
          let next := n * 10 + (c.toNat - '0'.toNat)
          if 2 ^ 32 ≤ next then 2 ^ 32 - 1 else digits rest next
        else 0

/-- The ranges of a set, each with its lower end first; `*` is the largest value. -/
def parseRanges (set : String) (max : Nat) : List (Nat × Nat) :=
  let number := fun text : List Char => if text = ['*'] then max else parseUint32 text
  (set.toList.splitOn ',').map (fun part =>
    let part := trimSpace part
    let low := number (part.takeWhile (· != ':'))
    let high := match part.dropWhile (· != ':') with
      | [] => low
      | _ :: rest => number rest
    if high < low then (high, low) else (low, high))

def parseUIDSet (set : String) (max uid : Nat) : Bool :=
  (parseRanges set max).any (fun range => range.1 ≤ uid && uid ≤ range.2)

/-- The messages of a mailbox a set selects, by UID or by position. -/
def chosen (set : String) (byUID : Bool) (msgs : List Message) : List Message :=
  let maxUID := (msgs.getLast?.elim 0 Message.uid) % 2 ^ 32
  let count := msgs.length % 2 ^ 32
  (msgs.zipIdx.filter (fun entry =>
    if byUID then parseUIDSet set maxUID (entry.1.uid % 2 ^ 32)
    else parseUIDSet set count ((entry.2 + 1) % 2 ^ 32))).map Prod.fst

/-- The operation of a STORE: its word is `FLAGS`, `+FLAGS`, `-FLAGS` or another one,
which changes nothing. -/
inductive StoreOp where
  | replace
  | add
  | remove
  | other
deriving DecidableEq, Repr

section Flags

variable (equalFold : String → String → Bool)

def contains (keywords : Option (List String)) (name : String) : Bool :=
  (keywords.getD []).any (fun keyword => equalFold keyword name)

/-- The keywords without a name. The slice built is nil when nothing is left. -/
def remove (keywords : Option (List String)) (name : String) : Option (List String) :=
  let out := (keywords.getD []).filter (fun keyword => !equalFold keyword name)
  if out.isEmpty then none else some out

/-- A system flag, or else a keyword. -/
def setFlag (m : Message) (name : String) (value : Bool) : Message :=
  match m.flags.setByName name value with
  | some flags => { m with flags := flags }
  | none =>
      if value then
        if contains equalFold m.keywords name then m
        else { m with keywords := some (m.keywords.getD [] ++ [name]) }
      else { m with keywords := remove equalFold m.keywords name }

def applyFlags (m : Message) (op : StoreOp) (flags : List String) : Message :=
  match op with
  | .replace =>
      flags.foldl (fun m name => setFlag equalFold m name true)
        { m with flags := {}, keywords := none }
  | .add => flags.foldl (fun m name => setFlag equalFold m name true) m
  | .remove => flags.foldl (fun m name => setFlag equalFold m name false) m
  | .other => m

end Flags

/-! ### Commands -/

def cmdCreate (name : String) (su : SpecialUse) : Txn Unit := do
  match ← mailboxCreate name su with
  | none => throw (.no "mailbox already exists")
  | some _ => pure ()

def cmdDelete (name : String) : Txn Unit := do
  let mb ← require (← mailboxFind name) (.no "no such mailbox")
  let hasChildren ← mailboxDelete mb
  refuse hasChildren (.no "mailbox has children")

def cmdRename (src dst : String) : Txn Unit := do
  let mb ← require (← mailboxFind src) (.no "no such mailbox")
  let renamed ← mailboxRename mb dst
  refuse (!renamed) (.no "source mailbox does not exist")

def cmdSubscribe (name : String) (subscribe : Bool) : Txn Unit := do
  let _ ← require (← mailboxFind name) (.no "no such mailbox")
  if subscribe then subscriptionEnsure name else subscriptionRemove name

/-- The mailbox a message goes to, created where it is missing. -/
def targetMailbox (name : String) : Txn Mailbox := do
  match ← mailboxFind name with
  | some mb => return mb
  | none => require (← mailboxCreate name {}) .noRows

/-- One message of an APPEND: its flag list, its date-time and its data. -/
structure Pending where
  flags : List String
  received : Nat
  data : Body
deriving DecidableEq, Repr

def cmdAppend (env : Env) (mailbox : String) (appends : List Pending) : Txn Unit := do
  let mb ← targetMailbox mailbox
  appends.forM (fun a => do
    let m : Message := applyFlags env.equalFold {} .replace a.flags
    let _ ← messageAdd env mb { m with received := a.received } a.data 0)

/-- The first message the set selects is replaced. -/
def cmdReplace (env : Env) (selected : Mailbox) (set : String) (byUID : Bool) (mailbox : String)
    (flags : List String) (data : Body) : Txn Unit := do
  let msgs ← mailboxMessages selected.id
  let src ← require (chosen set byUID msgs).head? .noSource
  let mb ← targetMailbox mailbox
  let _ ← messageAdd env mb (applyFlags env.equalFold {} .replace flags) data 0
  messageRemove selected [src]

/-- EXPUNGE, and UID EXPUNGE with a set. -/
def cmdExpunge (selected : Mailbox) (uidSet : Option String) : Txn Unit := do
  let msgs ← mailboxMessages selected.id
  let maxUID := (msgs.getLast?.elim 0 Message.uid) % 2 ^ 32
  let toRemove := msgs.filter (fun m => m.flags.deleted &&
    (uidSet.elim true (fun set => set == "" || parseUIDSet set maxUID (m.uid % 2 ^ 32))))
  if toRemove.isEmpty then pure () else messageRemove selected toRemove

def cmdCopyMove (env : Env) (selected : Mailbox) (set : String) (byUID move : Bool)
    (dst : String) : Txn Unit := do
  let src ← mailboxMessages selected.id
  let dmb ← targetMailbox dst
  let picked := chosen set byUID src
  picked.forM (fun m => do
    let _ ← messageAdd env dmb { flags := m.flags, keywords := m.keywords } (messageReader env m) 0)
  if move && !picked.isEmpty then messageRemove selected picked else pure ()

/-- The flags of the selected messages, those changed since a position apart. -/
def cmdStore (env : Env) (selected : Mailbox) (set : String) (byUID : Bool)
    (unchangedSince : Option Nat) (op : StoreOp) (flags : List String) : Txn Unit := do
  let msgs ← mailboxMessages selected.id
  (chosen set byUID msgs).forM (fun m =>
    if unchangedSince.elim false (fun n => n < m.modSeq) then pure ()
    else update (applyFlags env.equalFold m op flags))

/-- The expunge of a CLOSE. -/
def cmdClose (selected : Mailbox) : Txn Unit := do
  let msgs ← mailboxMessages selected.id
  let del := msgs.filter (fun m => m.flags.deleted)
  if del.isEmpty then pure () else messageRemove selected del

end OctoMail.Imap
