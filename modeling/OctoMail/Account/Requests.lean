import OctoMail.Account.SetHandlers
import OctoMail.Transition

/-!
# Runs of account transactions

The system the storage properties are about: accounts share the tables, a request runs
its body in one transaction of its account, and a collector deletes rows that are marked
expunged. Every request of the protocols that writes mailboxes or messages is here; mail
delivery also stands for the handlers that call it (SMTP, Email/set create, Email/import,
drafts, bounces and the import of a mailbox file).

A transaction holds its account's lock to the end, and transactions of other accounts
touch other rows, so a run is a sequence of whole transactions. A transaction that fails
changes nothing.
-/

namespace OctoMail.Account

open Store Store.Tx Program

/-- What one transaction is asked to do. -/
inductive Request where
  | create (name : String) (su : SpecialUse)
  | delete (name : String)
  | rename (src dst : String)
  | subscribe (name : String) (subscribe : Bool)
  | append (mailbox : String) (appends : List Imap.Pending)
  | replace (selected : Mailbox) (set : String) (byUID : Bool) (mailbox : String)
      (flags : List String) (data : Body)
  | expunge (selected : Mailbox) (uidSet : Option String)
  | copyMove (selected : Mailbox) (set : String) (byUID move : Bool) (dst : String)
  | store (selected : Mailbox) (set : String) (byUID : Bool) (unchangedSince : Option Nat)
      (op : Imap.StoreOp) (flags : List String)
  | close (selected : Mailbox)
  | annotate (mailboxId : Nat) (key : String)
  | deliver (mailbox : String) (m : Message) (body : Body)
  | emailSetUpdate (updates : List (String × Jmap.Patch))
  | emailDestroy (id : String)
  | mailboxSet (create : List (String × String)) (destroy : List String)
  | patchMessage (id : String) (addKeywords removeKeywords : List String)
  | deleteMessage (id : String)
  | saveSentCopy (raw : Body)
  | removeSentCopy (messageId : Nat)
  | saveAgentOutboundDraft (raw : Body) (known : Bool)
  | saveOutboundPolicyDraft (raw : Body) (known : Bool)
  | updateDraft (id : String) (raw : Body) (earlier : Message → Option Failure)
      (later : Option Failure)
  | removeDraft (id : String) (check : Message → Option Failure)

namespace Request

/-- The body of the transaction, its answer left out. -/
def body (env : Env) : Request → Txn Unit
  | create name su => Imap.cmdCreate name su
  | delete name => Imap.cmdDelete name
  | rename src dst => Imap.cmdRename src dst
  | subscribe name value => Imap.cmdSubscribe name value
  | append mailbox appends => Imap.cmdAppend env mailbox appends
  | replace selected set byUID mailbox flags data =>
      Imap.cmdReplace env selected set byUID mailbox flags data
  | expunge selected uidSet => Imap.cmdExpunge selected uidSet
  | copyMove selected set byUID move dst => Imap.cmdCopyMove env selected set byUID move dst
  | store selected set byUID unchangedSince op flags =>
      Imap.cmdStore env selected set byUID unchangedSince op flags
  | close selected => Imap.cmdClose selected
  | annotate mailboxId key => annotationSet mailboxId key
  | deliver mailbox m body => discard (deliverMailbox env mailbox m body)
  | emailSetUpdate updates => discard (Jmap.emailSetUpdate env updates)
  | emailDestroy id => discard (Jmap.emailDestroy id)
  | mailboxSet names destroy => discard (Jmap.mailboxSet env names destroy)
  | patchMessage id addKeywords removeKeywords =>
      WebApi.patchMessage env id addKeywords removeKeywords
  | deleteMessage id => WebApi.deleteMessage id
  | saveSentCopy raw => discard (WebApi.saveSentCopy env raw)
  | removeSentCopy messageId => WebApi.removeSentCopy messageId
  | saveAgentOutboundDraft raw known => discard (WebApi.saveAgentOutboundDraft env raw known)
  | saveOutboundPolicyDraft raw known => discard (WebApi.saveOutboundPolicyDraft env raw known)
  | updateDraft id raw earlier later => discard (WebApi.updateDraft env id raw earlier later)
  | removeDraft id check => discard (WebApi.removeDraft env id check)

/-- The most mailboxes a request creates. -/
def creates : Request → Nat
  | create .. | append .. | replace .. | copyMove .. | deliver .. | saveSentCopy .. => 1
  | saveAgentOutboundDraft .. | saveOutboundPolicyDraft .. => 1
  | mailboxSet names _ => names.length
  | _ => 0

/-- An Email/set keeps the counts; no other request expunges with flags read before a change. -/
def keepsCounts (env : Env) (start : Tx) : Request → Bool
  | emailSetUpdate updates => updatesKeepCounts env (env.order.visit [5] updates) start
  | _ => true

/-- The mailboxes a request deletes hold no live message. -/
def empties (start : Tx) : Request → Bool
  | delete name => namedHoldsNone start name
  | mailboxSet _ destroy => destroy.all (fun id => (Jmap.parseInt64 id).all (holdsNone start))
  | _ => true

/-- Only Email/set adds rows to an Email. -/
def lone : Request → Bool
  | emailSetUpdate _ => false
  | _ => true

def rules (env : Env) (start : Tx) (request : Request) : Rules :=
  ⟨request.keepsCounts env start = true, request.empties start = true, request.lone = true⟩

end Request

/-- Discarding the result keeps what holds after it. -/
theorem discards {α : Type} {before after : Tx → Prop} {body : Txn α}
    (proved : Triple before body (fun _ => after)) :
    Triple before (discard body) (fun _ => after) :=
  Triple.bind proved fun _ => Triple.pure _ fun _ held => held

/-- Every request is a sequence of mutator calls. -/
theorem body_running (env : Env) {start : Tx} (wf : start.db.Wf) (request : Request) :
    Triple (fun pt => pt = start) (request.body env)
      (fun _ => Blank (request.rules env start) start request.creates) := by
  have fromStart : ∀ {body : Txn Unit} {created : Nat},
      Triple (Blank (request.rules env start) start 0) body
        (fun _ => Blank (request.rules env start) start created) →
      Triple (fun pt => pt = start) body
        (fun _ => Blank (request.rules env start) start created) :=
    fun proved => proved.consequence (fun _ same => same ▸ Running.atStart) (fun _ _ held => held)
  cases request with
  | create name su => exact fromStart (cmdCreate_running name su)
  | delete name => exact cmdDelete_running name id
  | rename src dst => exact fromStart (cmdRename_running src dst)
  | subscribe name value => exact fromStart (cmdSubscribe_running name value)
  | append mailbox appends => exact fromStart (cmdAppend_running wf env mailbox appends)
  | replace selected set byUID mailbox flags data =>
    exact fromStart (cmdReplace_running wf env selected set byUID mailbox flags data)
  | expunge selected uidSet => exact fromStart (cmdExpunge_running wf selected uidSet)
  | copyMove selected set byUID move dst =>
    exact fromStart (cmdCopyMove_running wf env selected set byUID move dst)
  | store selected set byUID unchangedSince op flags =>
    exact fromStart (cmdStore_running wf env selected set byUID unchangedSince op flags)
  | close selected => exact fromStart (cmdClose_running wf selected)
  | annotate mailboxId key => exact fromStart (annotationSet_running mailboxId key)
  | deliver mailbox m body =>
    exact fromStart (discards (deliverMailbox_running wf env mailbox m body))
  | emailSetUpdate updates => exact discards (emailSetUpdate_running wf env updates
      Bool.false_ne_true id)
  | emailDestroy id => exact fromStart (discards (emailDestroy_running wf id))
  | mailboxSet names destroy => exact discards (mailboxSet_running env names destroy id)
  | patchMessage id addKeywords removeKeywords =>
    exact fromStart (patchMessage_running wf env id addKeywords removeKeywords)
  | deleteMessage id => exact fromStart (deleteMessage_running wf id)
  | saveSentCopy raw => exact fromStart (discards (saveSentCopy_running wf env raw))
  | removeSentCopy messageId => exact fromStart (removeSentCopy_running wf messageId)
  | saveAgentOutboundDraft raw known | saveOutboundPolicyDraft raw known =>
    exact fromStart (discards (saveDraft_running wf env raw known))
  | updateDraft id raw earlier later =>
    exact fromStart (discards (updateDraft_running wf env id raw earlier later))
  | removeDraft id check => exact fromStart (discards (removeDraft_running wf env id check))

/-! ### Transactions -/

/-- The state a transaction of the account begins in. -/
def begin_ (db : Database) (account : AccountRow) : Tx :=
  ⟨db, account.id, account.tenantId, account.changelogSeq, []⟩

/-- The tables after the pending entries and the head are persisted. -/
def flushed (pt : Tx) : Database :=
  { pt.db with changelog := pt.db.changelog ++ pt.entries }.setAccounts pt.accountId
    (fun a => { a with changelogSeq := pt.seq })

theorem appendLog_ok (entries : List LogRow) (pt final : Tx) (done : Unit)
    (ran : entries.forM appendLog pt = .ok (done, final)) :
    pt.withDb { pt.db with changelog := pt.db.changelog ++ entries } = final := by
  induction entries generalizing pt with
  | nil =>
    obtain ⟨_, rfl⟩ := (pure_ok _ _ _ _).mp ran
    simp [withDb]
  | cons entry rest ih =>
    obtain ⟨_, middle, first, others⟩ := (bind_ok _ _ _ _ _).mp ran
    simp only [appendLog, bind_ok, get_ok, refuse_ok, modifyDb_ok] at first
    obtain ⟨_, _, ⟨rfl, rfl⟩, _, _, ⟨_, rfl⟩, rfl⟩ := first
    rw [← ih _ others]
    simp [withDb]

variable {after db : Database}

theorem transact_ok {α : Type} {accountId : Nat} {body : Txn α} {result : α}
    (ran : db.transact accountId body = .ok (result, after)) :
    ∃ account pt, db.account accountId = some account ∧
      body (begin_ db account) = .ok (result, pt) ∧ after = flushed pt := by
  unfold Database.transact at ran
  split at ran
  · cases ran
  rename_i account found
  split at ran
  · cases ran
  rename_i value final completed
  obtain ⟨rfl, rfl⟩ := Prod.mk.inj (Except.ok.inj ran)
  simp only [flush, bind_ok, get_ok, pure_ok, modifyDb_ok] at completed
  obtain ⟨_, pt, done, _, _, ⟨_, _, ⟨rfl, rfl⟩, _, _, appended, rfl⟩, rfl, rfl⟩ := completed
  obtain rfl := appendLog_ok _ _ _ _ appended
  exact ⟨account, pt, found, done, rfl⟩

/-! ### Runs -/

/-- The collector's `DELETE`: any of the rows marked expunged. -/
def collected (db : Database) (ids : List Nat) : Database :=
  { db with messages := db.messages.filter (fun m => !(m.expunged && ids.contains m.id)) }

inductive Label where
  | request (accountId : Nat) (env : Env) (request : Request)
  | collect (ids : List Nat)

def step (db : Database) : Label → Option Database
  | .request accountId env request =>
      match db.transact accountId (request.body env) with
      | .ok (_, after) => some after
      | .error _ => some db
  | .collect ids => some (collected db ids)

/-- Accounts and tenants with nothing in them yet. -/
structure Initial (db : Database) : Prop where
  mailboxes : db.mailboxes = []
  messages : db.messages = []
  changelog : db.changelog = []
  quotaCounters : db.quotaCounters = []
  accounts : ∀ a ∈ db.accounts, a.changelogSeq = 0 ∧ a.uidvalidityNext = 1

variable {accountId : Nat} {env : Env} {request : Request}

/-- Whether the answer to a request is OK. -/
def Request.succeeds (request : Request) (env : Env) (db : Database) (accountId : Nat) : Bool :=
  (db.transact accountId (request.body env)).isOk

/-- A request answered OK is a transaction that was committed. -/
theorem request_committed
    (moved : step db (.request accountId env request) = some after)
    (ok : request.succeeds env db accountId = true) :
    ∃ account pt, db.account accountId = some account ∧
      request.body env (begin_ db account) = .ok ((), pt) ∧ after = flushed pt := by
  simp only [step] at moved
  split at moved
  · rename_i ran
    cases moved
    exact transact_ok ran
  · rename_i failed
    rw [Request.succeeds, failed] at ok
    cases ok

theorem request_refused
    (moved : step db (.request accountId env request) = some after)
    (no : request.succeeds env db accountId = false) : after = db := by
  simp only [step] at moved
  split at moved
  · rename_i ran
    rw [Request.succeeds, ran] at no
    cases no
  · exact (Option.some.inj moved).symm

/-- A request changes nothing, or its effects lead to the tables that are persisted. -/
theorem step_request
    (wf : db.Wf) (moved : step db (.request accountId env request) = some after) :
    after = db ∨ ∃ account pt created, db.account accountId = some account ∧
      created ≤ request.creates ∧
      Steps (request.rules env (begin_ db account)) created (begin_ db account) pt ∧
      after = flushed pt := by
  cases ok : request.succeeds env db accountId with
  | false => exact .inl (request_refused moved ok)
  | true =>
    obtain ⟨account, pt, found, completed, rfl⟩ := request_committed moved ok
    obtain ⟨created, bounded, steps⟩ :=
      (body_running env wf request _ _ _ rfl completed).steps
    exact .inr ⟨account, pt, created, found, bounded, steps, rfl⟩

theorem Initial.wf (initial : Initial db) : db.Wf := by
  obtain ⟨mailboxes, messages, _, _, _⟩ := initial
  constructor <;> simp [mailboxes, messages]

theorem wf_flushed (pt : Tx) (wf : pt.db.Wf) : (flushed pt).Wf :=
  ⟨wf.mailboxIds, wf.mailboxBelow, wf.messageIds, wf.messageBelow, wf.owned⟩

theorem wf_collected (db : Database) (ids : List Nat) (wf : db.Wf) : (collected db ids).Wf :=
  ⟨wf.mailboxIds, wf.mailboxBelow, (List.filter_sublist.map Message.id).nodup wf.messageIds,
    fun m member => wf.messageBelow m (List.mem_filter.mp member).1,
    fun m member => wf.owned m (List.mem_filter.mp member).1⟩

theorem step_wf {label : Label} (wf : db.Wf) (moved : step db label = some after) : after.Wf := by
  cases label with
  | request =>
    rcases step_request wf moved with rfl | changed
    · exact wf
    · obtain ⟨account, pt, created, _, _, steps, rfl⟩ := changed
      exact wf_flushed pt (steps.wf wf)
  | collect ids =>
    cases moved
    exact wf_collected db ids wf

/-! ### A small system -/

/-- One account of one tenant, with nothing in it. -/
def oneAccount : Database := { accounts := [{ id := 7, tenantId := 1 }], tenants := [{ id := 1 }] }

theorem oneAccount_initial : Initial oneAccount :=
  ⟨rfl, rfl, rfl, rfl, by simp [oneAccount]⟩

/-- Maps are visited in the order of their entries, and a body is stored under one name. -/
def plainEnv : Env where
  now := 100
  equalFold := fun first second => first == second
  order := ⟨fun _ entries => entries, fun _ entries => List.Perm.refl entries⟩
  stored := fun m => some ("body", m.size)

end OctoMail.Account
