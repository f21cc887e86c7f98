import OctoMail.Account.Requests
import OctoMail.Store.Isolation

/-!
# Email/set stays within its account

An Email/set carries ids chosen by the client: of Emails, and of mailboxes inside its
patches. Each is used only to look rows up through the account, and the statements that
choose rows by id alone are given ids of rows found that way.
-/

namespace OctoMail.Account

open Store Store.Tx Program
open Transition (always run)

section Bodies

variable {before : Database} {accountId : Nat}

/-- The rows of an Email and their mailboxes are not foreign. -/
def OwnRows (before : Database) (accountId : Nat) (group : List Message) : Prop :=
  ∀ m ∈ group, before.OwnMessage accountId m.id ∧ before.OwnMailbox accountId m.mailboxId

theorem emailGroup_apart (id : String) :
    Triple (Apart before accountId) (Jmap.emailGroup id) (fun found pt =>
      Apart before accountId pt ∧ ∀ group, found = some group → OwnRows before accountId group) := by
  unfold Jmap.emailGroup
  split
  · exact Triple.pure _ fun _ apart => ⟨apart, fun _ none_ => by cases none_⟩
  refine Triple.bind (messagesByEmailId_apart) fun msgs => Triple.pure _ fun pt held => ?_
  refine ⟨held.1, fun group found => ?_⟩
  split at found
  · cases found
  · cases found
    exact held.2

theorem findMailboxByID_apart (id : Int) :
    Triple (Apart before accountId) (Jmap.findMailboxByID id) (fun found pt =>
      Apart before accountId pt ∧ ∀ mb, found = some mb → before.OwnMailbox accountId mb.id) := by
  unfold Jmap.findMailboxByID
  split
  · exact findMailboxById_apart
  · exact Triple.pure _ fun _ apart => ⟨apart, fun _ none_ => by cases none_⟩

variable {group : List Message}

theorem updateKeywords_apart (env : Env) (patch : Jmap.Patch)
    (own : OwnRows before accountId group) :
    Triple (Apart before accountId) (Jmap.updateKeywords env group patch)
      (fun _ => Apart before accountId) := by
  unfold Jmap.updateKeywords
  refine Triple.ite (fun _ => ?_) (fun _ => Triple.pure _ fun _ apart => apart)
  refine Triple.forM_of_forall group fun m member => ?_
  have row := patched_sameRow env patch m
  obtain ⟨mine, there⟩ := own m member
  exact update_apart (row.id ▸ mine) (row.mailboxId ▸ there)

theorem addWanted_apart (env : Env) (rep : Message) {current : List (Int × Message)}
    {want : List Int} :
    Triple (Apart before accountId) (Jmap.addWanted env rep current want)
      (fun _ => Apart before accountId) := by
  induction want with
  | nil => exact Triple.pure _ fun _ apart => apart
  | cons mailboxId rest ih =>
    unfold Jmap.addWanted
    refine Triple.ite (fun _ => ih) (fun _ => ?_)
    refine Triple.bind (findMailboxByID_apart mailboxId) fun found => ?_
    cases found with
    | none => exact Triple.pure _ fun _ held => held.1
    | some mb =>
      refine (Triple.given fun own => ?_).consequence
        (fun _ held => ⟨held.1, held.2 mb rfl⟩) (fun _ _ apart => apart)
      exact Triple.bind (addSibling_apart env rep mb own) fun _ => ih

/-- Expunging a row of the account from the mailbox found by an id. -/
theorem removeFrom_apart (mailboxId : Int) {m : Message} (own : before.OwnMessage accountId m.id) :
    Triple (Apart before accountId)
      (do match ← Jmap.findMailboxByID mailboxId with
          | none => pure ()
          | some mb => messageRemove mb [m] : Txn Unit)
      (fun _ => Apart before accountId) := by
  refine Triple.bind (findMailboxByID_apart mailboxId) fun found => ?_
  cases found with
  | none => exact Triple.pure _ fun _ held => held.1
  | some mb =>
    refine (Triple.given fun there => ?_).consequence
      (fun _ held => ⟨held.1, held.2 mb rfl⟩) (fun _ _ apart => apart)
    refine messageRemove_apart mb [m] (fun other member => ?_) there
    rw [List.mem_singleton.mp member]
    exact own

theorem removeUnwanted_apart (want : List Int) {entry : Int × Message}
    (own : before.OwnMessage accountId entry.2.id) :
    Triple (Apart before accountId) (Jmap.removeUnwanted want entry)
      (fun _ => Apart before accountId) := by
  unfold Jmap.removeUnwanted
  exact Triple.ite (fun _ => Triple.pure _ fun _ apart => apart)
    (fun _ => removeFrom_apart entry.1 own)

/-- The rows to reconcile are rows of the Email. -/
theorem currentRows_mem {entry : Int × Message}
    (member : entry ∈ Jmap.currentRows group) : entry.2 ∈ group := by
  obtain ⟨_, origin⟩ := Assoc.ofList_spec (group.map (fun m => ((m.mailboxId : Int), m)))
  obtain ⟨m, there, rfl⟩ := List.mem_map.mp (origin entry member)
  exact there

theorem emailUpdate_apart (env : Env) (patch : Jmap.Patch) (own : OwnRows before accountId group) :
    Triple (Apart before accountId) (Jmap.emailUpdate env group patch)
      (fun _ => Apart before accountId) := by
  refine Triple.bind (updateKeywords_apart env patch own) fun _ => ?_
  split
  · exact Triple.pure _ fun _ apart => apart
  · exact Triple.pure _ fun _ apart => apart
  · rename_i want rep others _
    refine Triple.bind (addWanted_apart env rep) fun added => ?_
    refine Triple.ite (fun _ => ?_) (fun _ => Triple.pure _ fun _ apart => apart)
    refine Triple.bind (Triple.forM_of_forall _ fun entry member => ?_) fun _ =>
      Triple.pure _ fun _ apart => apart
    have inside := currentRows_mem ((env.order.perm _ _).mem_iff.mp member)
    exact removeUnwanted_apart want (own entry.2 inside).1

theorem emailSetOne_apart (env : Env) (entry : String × Jmap.Patch) :
    Triple (Apart before accountId) (Jmap.emailSetOne env entry)
      (fun _ => Apart before accountId) := by
  refine Triple.bind (emailGroup_apart entry.1) fun found => ?_
  cases found with
  | none => exact Triple.pure _ fun _ held => held.1
  | some group =>
    refine (Triple.given fun own => ?_).consequence
      (fun _ held => ⟨held.1, held.2 group rfl⟩) (fun _ _ apart => apart)
    exact Triple.bind (emailUpdate_apart env entry.2 own) fun _ =>
      Triple.pure _ fun _ apart => apart

theorem emailSetUpdate_apart (env : Env) (updates : List (String × Jmap.Patch)) :
    Triple (Apart before accountId) (Jmap.emailSetUpdate env updates)
      (fun _ => Apart before accountId) :=
  Triple.each (fun _ => Apart before accountId) (fun entry _ => emailSetOne_apart env entry) _

theorem emailDestroy_apart (id : String) :
    Triple (Apart before accountId) (Jmap.emailDestroy id) (fun _ => Apart before accountId) := by
  refine Triple.bind (emailGroup_apart id) fun found => ?_
  cases found with
  | none => exact Triple.pure _ fun _ held => held.1
  | some group =>
    refine (Triple.given fun own => ?_).consequence
      (fun _ held => ⟨held.1, held.2 group rfl⟩) (fun _ _ apart => apart)
    refine Triple.bind (Triple.forM_of_forall group fun m member => ?_) fun _ =>
      Triple.pure _ fun _ apart => apart
    exact removeFrom_apart m.mailboxId (own m member).1

end Bodies

section Transactions

variable {before : Database} {accountId : Nat}

/-- A transaction whose body stays apart, from its first statement to the log entries. -/
theorem transact_kept {α : Type} {db after : Database} {body : Txn α} {result : α}
    (kept : before.Kept accountId db)
    (apart : Triple (Apart before accountId) body (fun _ => Apart before accountId))
    (ran : db.transact accountId body = .ok (result, after)) : before.Kept accountId after := by
  obtain ⟨account, pt, found, done, rfl⟩ := transact_ok ran
  have mine : account.id = accountId := by simpa using List.find?_some found
  obtain ⟨same, ⟨untouched, messages, mailboxes, below⟩, entries⟩ :=
    apart _ _ _ ⟨mine, kept, fun _ none_ => absurd none_ List.not_mem_nil⟩ done
  refine ⟨⟨untouched.messages, untouched.mailboxes, ?_, untouched.quotaCounters, ?_⟩, messages,
    mailboxes, below⟩
  · intro other different
    rw [← untouched.accounts other different]
    refine Table.filter_update _ _ pt.db.accounts fun row _ picked => ?_
    have owner : row.id = accountId := (by simpa using picked : row.id = pt.accountId).trans same
    have differs : (accountId == other) = false := beq_false_of_ne different.symm
    simp only [owner, differs, and_self]
  · intro other different
    have none_ : pt.entries.filter (fun row => row.accountId == other) = [] := by
      refine List.filter_eq_nil_iff.mpr fun entry member => ?_
      rw [entries entry member]
      simpa using different.symm
    show (pt.db.changelog ++ pt.entries).filter _ = _
    rw [List.filter_append, none_, List.append_nil]
    exact untouched.changelog other different

theorem emailSetDestroy_kept (ids : List String) (db : Database) (kept : before.Kept accountId db) :
    before.Kept accountId (Jmap.emailSetDestroy accountId ids db).2 := by
  induction ids generalizing db with
  | nil => exact kept
  | cons id rest ih =>
    unfold Jmap.emailSetDestroy
    split
    · exact ih db kept
    · rename_i outcome next ran
      exact ih next
        (transact_kept kept (emailDestroy_apart id) ran)

theorem emailSet_kept (env : Env) (db : Database) (updates : List (String × Jmap.Patch))
    (destroy : List String) (kept : before.Kept accountId db) :
    before.Kept accountId (Jmap.emailSet env db accountId updates destroy).2 := by
  unfold Jmap.emailSet
  split
  · exact kept
  · rename_i outcomes next ran
    exact emailSetDestroy_kept destroy next
      (transact_kept kept (emailSetUpdate_apart env updates) ran)

end Transactions

/-- In every state the store can reach, an Email/set of one account, whatever ids it
carries, leaves everything of every other account as it is. -/
theorem email_set_isolated (start db : Database) (labels : List Label) (initial : Initial start)
    (reached : run step start labels = some db) (env : Env) (accountId : Nat)
    (updates : List (String × Jmap.Patch)) (destroy : List String) :
    db.Untouched accountId (Jmap.emailSet env db accountId updates destroy).2 := by
  have wf : db.Wf := always Database.Wf step_wf initial.wf reached
  exact (emailSet_kept env db updates destroy (wf.kept accountId)).untouched

/-- Two accounts of one tenant. -/
def twoAccounts : Database :=
  { accounts := [{ id := 7, tenantId := 1 }, { id := 8, tenantId := 1 }]
    tenants := [{ id := 1 }] }

/-- Each account receives a message: Emails 1 and 2, in mailboxes 1 and 2. -/
def eachReceived : List Label :=
  [.request 7 plainEnv (.deliver "Inbox" {} ⟨10, some ("one", 10)⟩),
    .request 8 plainEnv (.deliver "Inbox" {} ⟨20, some ("two", 20)⟩)]

/-- Account 7 tries to flag and to destroy the other account's Email and to put its own
into the other's mailbox, and destroys its own. -/
theorem foreign_ids_isolated :
    ∃ db, run step twoAccounts eachReceived = some db ∧
      (Jmap.emailSet plainEnv db 7
        [("E2", [("keywords/$seen", .bool true)]), ("E1", [("mailboxIds/2", .bool true)])]
        ["E2", "E1"]).1 = .done [("E2", .notFound), ("E1", .notFound)]
          [("E2", some .notFound), ("E1", some .done)] ∧
      db.Untouched 7 (Jmap.emailSet plainEnv db 7
        [("E2", [("keywords/$seen", .bool true)]), ("E1", [("mailboxIds/2", .bool true)])]
        ["E2", "E1"]).2 := by
  have ended : (run step twoAccounts eachReceived).map (fun db : Database =>
      decide ((Jmap.emailSet plainEnv db 7
        [("E2", [("keywords/$seen", .bool true)]), ("E1", [("mailboxIds/2", .bool true)])]
        ["E2", "E1"]).1 = .done [("E2", .notFound), ("E1", .notFound)]
          [("E2", some .notFound), ("E1", some .done)])) = some true := by decide +kernel
  obtain ⟨db, reached, seen⟩ := Option.map_eq_some_iff.mp ended
  have initial : Initial twoAccounts := ⟨rfl, rfl, rfl, rfl, by simp [twoAccounts]⟩
  exact ⟨db, reached, of_decide_eq_true seen,
    email_set_isolated twoAccounts db eachReceived initial reached plainEnv 7 _ _⟩

end OctoMail.Account
