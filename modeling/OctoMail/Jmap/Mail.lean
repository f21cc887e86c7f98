import OctoMail.Assoc
import OctoMail.Store.Messages

/-!
# The transactions of the JMAP methods

Email/set, Email/changes and Mailbox/set (`protocol/jmapd/mail.go`) from their decoded
arguments on.
An object of the request is a Go map, visited in any order; a JSON value is decoded
as `encoding/json` does it, with the errors the source drops dropped.

An Email/set update that names an unknown mailbox ends with a value, not a failure:
the transaction goes on with the next Email and keeps what was done so far.
-/

namespace OctoMail.Jmap

open Store Store.Tx Program

/-- A JSON value, with numbers and arrays left abstract: no modelled method reads one. -/
inductive Json where
  | null
  | bool (value : Bool)
  | string (value : String)
  | object (entries : List (String × Json))
  | other
deriving Repr

/-- A value decoded into a `bool`; what is no boolean leaves it false. -/
def Json.toBool : Json → Bool
  | .bool value => value
  | _ => false

/-- A value decoded into a `map[string]bool`, and whether decoding reports no error. A
null value decodes to false, a value of another type too, with an error. -/
def Json.toBoolMap : Json → List (String × Bool) × Bool
  | .null => ([], true)
  | .object entries =>
      (Assoc.ofList (entries.map (fun entry => (entry.1, entry.2.toBool))),
        entries.all (fun entry => match entry.2 with
          | .bool _ | .null => true
          | _ => false))
  | _ => ([], false)

/-- A patch: a map from property paths to values. -/
abbrev Patch := List (String × Json)

/-- `strings.HasPrefix` and what follows the prefix. -/
def afterPrefix (start text : String) : Option String :=
  if start.toList.isPrefixOf text.toList then
    some (String.ofList (text.toList.drop start.toList.length))
  else none

/-- `strconv.ParseInt(text, 10, 64)`: an optional sign and digits, within range. -/
def parseInt64 (text : String) : Option Int :=
  let (negative, digits) := match text.toList with
    | '-' :: rest => (true, rest)
    | '+' :: rest => (false, rest)
    | digits => (false, digits)
  if digits.isEmpty || !digits.all Char.isDigit then none
  else
    let magnitude := digits.foldl (fun n c => n * 10 + (c.toNat - '0'.toNat)) 0
    if negative then
      if magnitude ≤ 2 ^ 63 then some (-(magnitude : Int)) else none
    else if magnitude < 2 ^ 63 then some magnitude else none

/-- An Email id: the letter E and a number. -/
def parseEmailGroupID (id : String) : Option Int :=
  match id.toList with
  | 'E' :: c :: rest => parseInt64 (String.ofList (c :: rest))
  | _ => none

/-- The live rows of the Email an id names, if there are any. -/
def emailGroup (id : String) : Txn (Option (List Message)) :=
  match parseEmailGroupID id with
  | none => pure none
  | some gid => do
      let msgs ← messagesByEmailId gid
      return if msgs.isEmpty then none else some msgs

/-! ### Keywords -/

def containsFold (env : Env) (keywords : Option (List String)) (name : String) : Bool :=
  (keywords.getD []).any (fun keyword => env.equalFold keyword name)

/-- The keywords without a name; nil when nothing is left. -/
def removeFold (env : Env) (keywords : Option (List String)) (name : String) :
    Option (List String) :=
  let out := (keywords.getD []).filter (fun keyword => !env.equalFold keyword name)
  if out.isEmpty then none else some out

/-- Set flags and append keywords from a map. -/
def applyJMAPKeywords (m : Message) (keywords : List (String × Bool)) : Message :=
  keywords.foldl (fun m entry =>
    match m.flags.setByName entry.1 entry.2 with
    | some flags => { m with flags := flags }
    | none =>
        if entry.2 then { m with keywords := some (m.keywords.getD [] ++ [entry.1]) } else m) m

/-- One `keywords/name` entry. Four flags are known here; any other name, also of a
system flag, is a keyword. -/
def applyKeyword (env : Env) (m : Message) (name : String) (value : Bool) : Message :=
  let lower := String.ofList (lowerAscii name.toList)
  if lower = "$seen" then { m with flags := { m.flags with seen := value } }
  else if lower = "$answered" then { m with flags := { m.flags with answered := value } }
  else if lower = "$flagged" then { m with flags := { m.flags with flagged := value } }
  else if lower = "$draft" then { m with flags := { m.flags with draft := value } }
  else if value then
    if containsFold env m.keywords name then m
    else { m with keywords := some (m.keywords.getD [] ++ [name]) }
  else { m with keywords := removeFold env m.keywords name }

def applyKeywordPatch (env : Env) (m : Message) (patch : Patch) : Message :=
  patch.foldl (fun m entry =>
    match afterPrefix "keywords/" entry.1 with
    | some name => applyKeyword env m name entry.2.toBool
    | none => m) m

/-- The patch changes keywords. -/
def hasKeywordChange (patch : Patch) : Bool :=
  patch.any (fun entry => entry.1 == "keywords" || (afterPrefix "keywords/" entry.1).isSome)

/-- A row with the keyword part of the patch applied: the full value first, then the
single entries. -/
def patched (env : Env) (patch : Patch) (m : Message) : Message :=
  let replaced := match Assoc.get patch "keywords" with
    | some raw => applyJMAPKeywords { m with flags := {}, keywords := none }
        (env.order.visit [m.id, 0] raw.toBoolMap.1)
    | none => m
  applyKeywordPatch env replaced (env.order.visit [m.id, 1] patch)

/-! ### Mailboxes -/

/-- The mailbox ids the Email shall be in, none where the patch does not say. -/
def desiredMailboxIDs (env : Env) (patch : Patch) (group : List Message) : Option (List Int) :=
  let start := (group.map (fun m => (m.mailboxId : Int))).dedup
  let full := Assoc.get patch "mailboxIds"
  let base := match full with
    | none => start
    | some raw =>
        if raw.toBoolMap.2 then
          ((raw.toBoolMap.1.filter Prod.snd).filterMap (fun entry => parseInt64 entry.1)).dedup
        else []
  let single := (env.order.visit [2] patch).filterMap (fun entry =>
    (afterPrefix "mailboxIds/" entry.1).map (fun id => (id, entry.2.toBool)))
  if full.isNone && single.isEmpty then none
  else some (single.foldl (fun want entry =>
    match parseInt64 entry.1 with
    | none => want
    | some n => if entry.2 then want.filter (· != n) ++ [n] else want.filter (· != n)) base)

/-- The row of the Email in each mailbox it is in, the last one where there are several. -/
def currentRows (group : List Message) : List (Int × Message) :=
  Assoc.ofList (group.map (fun m => ((m.mailboxId : Int), m)))

def findMailboxByID (id : Int) : Txn (Option Mailbox) :=
  if 0 ≤ id then findMailboxById id.toNat else pure none

/-- Add a row for each wanted mailbox the Email is not in; false at the first one that
does not exist. -/
def addWanted (env : Env) (rep : Message) (current : List (Int × Message)) :
    List Int → Txn Bool
  | [] => pure true
  | mailboxId :: rest =>
      if (Assoc.get current mailboxId).isSome then addWanted env rep current rest
      else do
        match ← findMailboxByID mailboxId with
        | none => return false
        | some mb => do
            let _ ← addSibling env rep mb
            addWanted env rep current rest

/-- Expunge the row of one mailbox the Email is no longer wanted in. -/
def removeUnwanted (want : List Int) (entry : Int × Message) : Txn Unit :=
  if want.contains entry.1 then pure ()
  else do
    match ← findMailboxByID entry.1 with
    | none => pure ()
    | some mb => messageRemove mb [entry.2]

/-- Store the patched keywords of every row, if the patch has any. -/
def updateKeywords (env : Env) (group : List Message) (patch : Patch) : Txn Unit :=
  if hasKeywordChange patch then group.forM (fun m => update (patched env patch m)) else pure ()

/-- Apply a patch to an Email. False is `errNotFoundJMAP`. The rows of the group are the
ones read before the keyword changes. -/
def emailUpdate (env : Env) (group : List Message) (patch : Patch) : Txn Bool := do
  updateKeywords env group patch
  match desiredMailboxIDs env patch group, group with
  | none, _ => return true
  | some _, [] => return true
  | some want, rep :: _ => do
      let current := currentRows group
      if ← addWanted env rep current (env.order.visit [3, rep.id] want) then
        do
          (env.order.visit [4, rep.id] current).forM (removeUnwanted want)
          return true
      else return false

/-- What became of one object of a set method. -/
inductive Outcome where
  | done
  | notFound
  | mailboxHasChild
deriving DecidableEq, Repr

/-- What became of one mailbox to create. -/
inductive Created where
  | id (mailboxId : Nat)
  | invalidProperties
  | alreadyExists
deriving DecidableEq, Repr

/-- One patch of an Email/set. -/
def emailSetOne (env : Env) (entry : String × Patch) : Txn (String × Outcome) := do
  match ← emailGroup entry.1 with
  | none => return (entry.1, .notFound)
  | some group => do
      let found ← emailUpdate env group entry.2
      return (entry.1, if found then .done else .notFound)

/-- The update part of Email/set: every patch in one transaction. -/
def emailSetUpdate (env : Env) (updates : List (String × Patch)) :
    Txn (List (String × Outcome)) :=
  each (emailSetOne env) (env.order.visit [5] updates)

/-- Expunge one row of an Email; a row whose mailbox is not found is passed over. -/
def destroyRow (m : Message) : Txn Unit := do
  match ← findMailboxByID m.mailboxId with
  | none => pure ()
  | some mb => messageRemove mb [m]

/-- One destroy of Email/set, a transaction of its own. -/
def emailDestroy (id : String) : Txn Outcome := do
  match ← emailGroup id with
  | none => return .notFound
  | some group => do
      group.forM destroyRow
      return .done

/-- What Email/set reports of its updates and destroys. A destroy whose transaction fails
is reported as `serverFail`, here none. -/
inductive EmailSetAnswer where
  | serverFail
  | done (updates : List (String × Outcome)) (destroys : List (String × Option Outcome))
deriving DecidableEq, Repr

/-- The destroys, each in a transaction of its own. -/
def emailSetDestroy (accountId : Nat) :
    List String → Database → List (String × Option Outcome) × Database
  | [], db => ([], db)
  | id :: rest, db =>
      match db.transact accountId (emailDestroy id) with
      | .error _ =>
          let (outcomes, final) := emailSetDestroy accountId rest db
          ((id, none) :: outcomes, final)
      | .ok (outcome, next) =>
          let (outcomes, final) := emailSetDestroy accountId rest next
          ((id, some outcome) :: outcomes, final)

/-- Email/set without its creates: the updates in one transaction, then the destroys. -/
def emailSet (env : Env) (db : Database) (accountId : Nat) (updates : List (String × Patch))
    (destroy : List String) : EmailSetAnswer × Database :=
  match db.transact accountId (emailSetUpdate env updates) with
  | .error _ => (.serverFail, db)
  | .ok (outcomes, next) =>
      let (destroys, final) := emailSetDestroy accountId destroy next
      (.done outcomes destroys, final)

/-- Create one mailbox of a Mailbox/set. -/
def mailboxSetCreate (entry : String × String) : Txn (String × Created) :=
  if entry.2 = "" then pure (entry.1, .invalidProperties)
  else do
    match ← mailboxCreate entry.2 {} with
    | none => return (entry.1, .alreadyExists)
    | some mb => return (entry.1, .id mb.id)

/-- Destroy one mailbox of a Mailbox/set. -/
def mailboxSetDestroy (id : String) : Txn (String × Outcome) :=
  match parseInt64 id with
  | none => pure (id, .notFound)
  | some n => do
      match ← findMailboxByID n with
      | none => return (id, .notFound)
      | some mb => do
          let hasChildren ← mailboxDelete mb
          return (id, if hasChildren then .mailboxHasChild else .done)

/-- Mailbox/set: the names to create by client id, and the ids to destroy. -/
def mailboxSet (env : Env) (create : List (String × String)) (destroy : List String) :
    Txn (List (String × Created) × List (String × Outcome)) := do
  let created ← each mailboxSetCreate (env.order.visit [6] create)
  let destroyed ← each mailboxSetDestroy destroy
  return (created, destroyed)

end OctoMail.Jmap
