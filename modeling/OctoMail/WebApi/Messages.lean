import OctoMail.Jmap.Mail

/-!
# The transactions of the Web API

What the message and draft endpoints do inside their transactions
(`protocol/webapi/messages.go`, `drafts.go`, `agent_drafts.go`, `outbound.go`,
`outbound_policy.go`). The request is decoded and the message composed beforehand.

The draft endpoints also consult and change the workflow tables of drafts (send
claims, policy drafts, Agent drafts): whether these let the request pass is a parameter
here, before the message is touched and after it.
-/

namespace OctoMail.WebApi

open Store Store.Tx Program

/-- The live rows of a message by its id. -/
def loadGroup (id : String) : Txn (List Message) := do
  let gid ← require (Jmap.parseEmailGroupID id) (.status 400 "invalid_id" "invalid message id")
  let msgs ← messagesByEmailId gid
  refuse msgs.isEmpty (.status 404 "not_found" "no such message")
  return msgs

def mailboxByID (id : Nat) : Txn Mailbox := do
  require (← findMailboxById id) (.status 404 "not_found" "mailbox not found")

/-- A system flag, or else a keyword. Unlike its IMAP and JMAP counterparts it filters the
slice in place, so removing the last keyword leaves an empty slice and not nil. -/
def setFlag (env : Env) (m : Message) (name : String) (value : Bool) : Message :=
  match m.flags.setByName name value with
  | some flags => { m with flags := flags }
  | none =>
      if value then
        if Jmap.containsFold env m.keywords name then m
        else { m with keywords := some (m.keywords.getD [] ++ [name]) }
      else { m with
        keywords := m.keywords.map (fun keywords =>
          keywords.filter (fun keyword => !env.equalFold keyword name)) }

def patchMessage (env : Env) (id : String) (addKeywords removeKeywords : List String) :
    Txn Unit := do
  let msgs ← loadGroup id
  msgs.forM (fun m =>
    let added := addKeywords.foldl (fun m name => setFlag env m name true) m
    update (removeKeywords.foldl (fun m name => setFlag env m name false) added))

/-- Expunge each row of a message from its mailbox. -/
def removeRows (msgs : List Message) : Txn Unit :=
  msgs.forM (fun m => do
    let mb ← mailboxByID m.mailboxId
    messageRemove mb [m])

def deleteMessage (id : String) : Txn Unit := do
  removeRows (← loadGroup id)

def removeSentCopy (messageId : Nat) : Txn Unit := do
  removeRows (← messagesByEmailId messageId)

/-- The first mailbox with a special use, or the one of the default name, which is
created or given the use. -/
def specialMailbox (has : SpecialUse → Bool) (mark : SpecialUse → SpecialUse) (name : String) :
    Txn Mailbox := do
  match (← listMailboxes).find? (fun mb => has mb.specialUse) with
  | some mb => return mb
  | none => do
      match ← mailboxFind name with
      | none => mailboxEnsure name true (mark {})
      | some mb =>
          if has mb.specialUse then return mb
          else do
            mailboxSetSpecialUse mb (mark mb.specialUse)
            return mb

def sentMailbox : Txn Mailbox :=
  specialMailbox SpecialUse.sent (fun su => { su with sent := true }) "Sent"

def ensureDraftMailbox : Txn Mailbox :=
  specialMailbox SpecialUse.draft (fun su => { su with draft := true }) "Drafts"

def saveSentCopy (env : Env) (raw : Body) : Txn Message := do
  let mb ← sentMailbox
  messageAdd env mb { flags := { seen := true } } raw 0

/-- Save a composed message as a draft, unless the idempotency key was used before. -/
def saveDraft (env : Env) (raw : Body) (known : Bool) : Txn (Option Message) :=
  if known then pure none
  else do
    let mb ← ensureDraftMailbox
    return some (← messageAdd env mb { flags := { draft := true } } raw 0)

def saveAgentOutboundDraft (env : Env) (raw : Body) (known : Bool) : Txn (Option Message) :=
  saveDraft env raw known

def saveOutboundPolicyDraft (env : Env) (raw : Body) (known : Bool) : Txn (Option Message) :=
  saveDraft env raw known

/-- The row of a message in a drafts mailbox, and that mailbox. -/
def loadDraftRow (env : Env) : List Message → Txn (Message × Mailbox)
  | [] => throw (.status 404 "not_found" "no such draft")
  | m :: rest => do
      let mb ← mailboxByID m.mailboxId
      if mb.specialUse.draft || env.equalFold mb.name "Drafts" then return (m, mb)
      else loadDraftRow env rest

def loadDraftMessage (env : Env) (id : String) : Txn (Message × Mailbox) := do
  loadDraftRow env (← loadGroup id)

/-- Fail with what the workflow tables answer. -/
def gate (answer : Option Failure) : Txn Unit :=
  match answer with
  | none => pure ()
  | some failure => throw failure

/-- The row that is replaced and the new one. -/
def updateDraft (env : Env) (id : String) (raw : Body) (earlier : Message → Option Failure)
    (later : Option Failure) : Txn (Message × Message) := do
  let (current, mb) ← loadDraftMessage env id
  gate (earlier current)
  let replacement ← messageAdd env mb { flags := { draft := true } } raw 0
  messageRemove mb [current]
  gate later
  return (current, replacement)

/-- The row that is removed. -/
def removeDraft (env : Env) (id : String) (check : Message → Option Failure) : Txn Message := do
  let (current, mb) ← loadDraftMessage env id
  gate (check current)
  messageRemove mb [current]
  return current

end OctoMail.WebApi
