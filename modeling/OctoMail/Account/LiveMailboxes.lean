import OctoMail.Account.Requests

/-!
# Live messages lie in live mailboxes

A message counts against the quota until it is expunged, and a user gets at it through a
mailbox that can be listed. Deleting a mailbox marks its row and leaves the messages in
it; so the property holds in the runs that delete mailboxes only when they are empty. Every
other effect keeps it: messages are added to open mailboxes only, and no update moves a
row to another mailbox.
-/

namespace OctoMail.Account

open Store Store.Tx Program
open Transition (Meets invariant run)

/-- Every live message lies in a mailbox of its account that is not deleted. -/
def InLiveMailboxes (db : Database) : Prop :=
  ∀ m ∈ db.messages, m.expunged = false →
    ∃ mb ∈ db.mailboxes, mb.id = m.mailboxId ∧ mb.accountId = m.accountId ∧ mb.expunged = false

/-- The list of mailboxes a user of the message's account gets has the mailbox of the message. -/
def Listed (db : Database) (m : Message) : Prop :=
  ∀ pt : Tx, pt.db = db → pt.accountId = m.accountId →
    ∃ listed, listMailboxes pt = .ok (listed, pt) ∧ ∃ mb ∈ listed, mb.id = m.mailboxId

variable {db : Database}

theorem InLiveMailboxes.listed (inside : InLiveMailboxes db) (m : Message)
    (member : m ∈ db.messages) (live : m.expunged = false) : Listed db m := by
  rintro pt rfl mine
  obtain ⟨mb, there, named, owner, opened⟩ := inside m member live
  refine ⟨_, rfl, mb, (List.mem_insertionSort _).mpr (List.mem_filter.mpr ⟨there, ?_⟩), named⟩
  simp [owner, mine, opened]

/-! ### Statements -/

/-- A statement on mailboxes that marks none of those with live messages. -/
theorem InLiveMailboxes.setMailboxes (inside : InLiveMailboxes db)
    (chosen : Mailbox → Bool) (f : Mailbox → Mailbox) (id : ∀ row, (f row).id = row.id)
    (accountId : ∀ row, (f row).accountId = row.accountId)
    (expunged : ∀ row ∈ db.mailboxes, chosen row = true → ∀ m ∈ db.messages, m.expunged = false →
      m.mailboxId = row.id → m.accountId = row.accountId → (f row).expunged = row.expunged) :
    InLiveMailboxes (db.setMailboxes chosen f) := by
  intro m member live
  obtain ⟨mb, there, named, owner, opened⟩ := inside m member live
  refine ⟨_, Table.mem_update.mpr ⟨mb, there, rfl⟩, ?_⟩
  by_cases picked : chosen mb = true
  · rw [if_pos picked]
    exact ⟨(id mb).trans named, (accountId mb).trans owner,
      (expunged mb there picked m member live named.symm owner.symm).trans opened⟩
  · rw [if_neg picked]
    exact ⟨named, owner, opened⟩

/-- A statement on messages that revives none and moves none. -/
theorem InLiveMailboxes.setMessages (inside : InLiveMailboxes db) (chosen : Message → Bool)
    (f : Message → Message) (mailboxId : ∀ row, (f row).mailboxId = row.mailboxId)
    (accountId : ∀ row, (f row).accountId = row.accountId)
    (expunged : ∀ row, (f row).expunged = false → row.expunged = false) :
    InLiveMailboxes (db.setMessages chosen f) := by
  intro m member live
  obtain ⟨old, there, rfl⟩ := Table.mem_update.mp member
  by_cases picked : chosen old = true
  · rw [if_pos picked] at live ⊢
    rw [mailboxId, accountId]
    exact inside old there (expunged old live)
  · rw [if_neg picked] at live ⊢
    exact inside old there live

theorem InLiveMailboxes.bumpedCounts (inside : InLiveMailboxes db)
    (mailboxId : Nat) (dTotal dSize dUnseen dDeleted : Int) :
    InLiveMailboxes (db.bumpedCounts mailboxId dTotal dSize dUnseen dDeleted) :=
  inside.setMailboxes _ _ (fun _ => rfl) (fun _ => rfl) (fun _ _ _ _ _ _ _ _ => rfl)

theorem InLiveMailboxes.bumpedQuota (inside : InLiveMailboxes db) (accountId tenantId : Nat)
    (dCount dSize : Int) : InLiveMailboxes (db.bumpedQuota accountId tenantId dCount dSize) := by
  rw [Database.bumpedQuota_tables]
  exact inside

/-! ### Effects -/

variable {rules : Rules} {pt final : Tx} {created : Nat}

theorem addMessage_inLive {mb : Mailbox} {row : Message} (inside : InLiveMailboxes pt.db)
    (member : mb ∈ pt.db.mailboxes) (owner : mb.accountId = pt.accountId)
    (opened : mb.expunged = false) (mine : row.accountId = pt.accountId)
    (mailboxId : row.mailboxId = mb.id) :
    InLiveMailboxes ((pt.db.tookUid row.mailboxId).insertedMessage row) := by
  have taken : InLiveMailboxes (pt.db.tookUid row.mailboxId) :=
    inside.setMailboxes _ _ (fun _ => rfl) (fun _ => rfl) (fun _ _ _ _ _ _ _ _ => rfl)
  intro m there live
  rcases List.mem_append.mp there with old | new
  · exact taken m old live
  · rw [List.mem_singleton.mp new, mailboxId, mine]
    refine ⟨_, Table.mem_update.mpr ⟨mb, member, rfl⟩, ?_⟩
    split
    · exact ⟨rfl, owner, opened⟩
    · exact ⟨rfl, owner, opened⟩

theorem effect_inLive (empty : rules.empty) (effect : Effect rules pt created final)
    (inside : InLiveMailboxes pt.db) : InLiveMailboxes final.db := by
  cases effect with
  | mailboxes chosen f _ keeps =>
    exact inside.setMailboxes chosen f (fun row => (keeps row).id)
      (fun row => (keeps row).accountId) (fun row _ _ _ _ _ _ _ => (keeps row).expunged)
  | createMailbox =>
    intro m member live
    obtain ⟨mb, there, facts⟩ := inside m member live
    exact ⟨mb, List.mem_append_left _ there, facts⟩
  | deleteMailbox _ none =>
    refine inside.setMailboxes _ _ (fun _ => rfl) (fun _ => rfl) ?_
    intro row there picked m member live named owner
    -- A row of this account in the mailbox deleted is what the rule excludes.
    simp only [Bool.and_eq_true, beq_iff_eq] at picked
    exact absurd (named.trans picked.1) (none empty m ⟨member, live, owner.trans picked.2⟩)
  | addMessage _ _ member owner opened _ mine mailboxId =>
    exact ((addMessage_inLive inside member owner opened mine mailboxId).bumpedCounts
      _ _ _ _ _).bumpedQuota _ _ _ _
  | update x _ keywords =>
    have changed : InLiveMailboxes
        (pt.db.updatedMessage pt.accountId x keywords (pt.seq + 1)) :=
      inside.setMessages _ _ (fun _ => rfl) (fun _ => rfl) (fun _ live => live)
    exact changed.bumpedCounts _ _ _ _ _
  | remove _ msgs =>
    have changed : InLiveMailboxes
        (pt.db.expungedMessages (pt.seq + 1) (msgs.map Message.id)) :=
      inside.setMessages _ _ (fun _ => rfl) (fun _ => rfl) (fun _ live => by cases live)
    exact (changed.bumpedCounts _ _ _ _ _).bumpedQuota _ _ _ _

/-! ### Every run -/

/-- Mailboxes are deleted only when they hold no live message. -/
def DeletedEmpty (db : Database) : Label → Prop
  | .request accountId _ request => (db.account accountId).all (fun account =>
      request.empties (begin_ db account)) = true
  | .collect _ => True

instance (db : Database) (label : Label) : Decidable (DeletedEmpty db label) :=
  match label with
  | .request .. => inferInstanceAs (Decidable (_ = true))
  | .collect _ => isTrue trivial

theorem step_inLive {after : Database} {label : Label} (wf : db.Wf)
    (inside : InLiveMailboxes db) (emptied : DeletedEmpty db label)
    (moved : step db label = some after) : InLiveMailboxes after := by
  cases label with
  | request _ _ request =>
    rcases step_request wf moved with rfl | changed
    · exact inside
    · obtain ⟨account, pt, created, found, _, steps, rfl⟩ := changed
      have empty : request.empties (begin_ db account) = true := by
        simpa [DeletedEmpty, found] using emptied
      exact steps.invariant (fun pt => InLiveMailboxes pt.db)
        (fun pt more final held effect => effect_inLive empty effect held) inside
  | collect =>
    cases moved
    exact fun m member live => inside m (List.mem_filter.mp member).1 live

/-- In every run that deletes mailboxes only when they are empty, every live message lies in
a live mailbox of its account, and the list of mailboxes shows it. -/
theorem live_messages_listed (db final : Database) (labels : List Label) (initial : Initial db)
    (emptied : Meets step DeletedEmpty db labels)
    (reached : run step db labels = some final) :
    InLiveMailboxes final ∧ ∀ m ∈ final.messages, m.expunged = false → Listed final m := by
  have none : InLiveMailboxes db := by
    intro m member
    rw [initial.messages] at member
    exact absurd member List.not_mem_nil
  have ended := invariant (fun db => db.Wf ∧ InLiveMailboxes db)
    (fun held guarded moved => ⟨step_wf held.1 moved, step_inLive held.1 held.2 guarded moved⟩)
    ⟨initial.wf, none⟩ emptied reached
  exact ⟨ended.2, fun m member live => ended.2.listed m member live⟩

/-- A message arrives in Work, is moved to Inbox, and Work is deleted. -/
def emptiedAndDeleted : List Label :=
  [.request 7 plainEnv (.deliver "Work" {} ⟨10, some ("body", 10)⟩),
    .request 7 plainEnv (.emailSetUpdate [("E1", [("keywords/$seen", .bool true)])]),
    .request 7 plainEnv (.create "Inbox" {}),
    .request 7 plainEnv (.emailSetUpdate
      [("E1", [("mailboxIds/1", .bool false), ("mailboxIds/2", .bool true)])]),
    .request 7 plainEnv (.delete "Work")]

theorem emptiedAndDeleted_listed :
    ∃ final, run step oneAccount emptiedAndDeleted = some final ∧
      final.mailboxes.map (fun mb => (mb.name, mb.expunged)) =
        [("Work", true), ("Inbox", false)] ∧
      InLiveMailboxes final ∧ ∀ m ∈ final.messages, m.expunged = false → Listed final m := by
  have ended : (run step oneAccount emptiedAndDeleted).map (fun db =>
      db.mailboxes.map (fun mb => (mb.name, mb.expunged))) =
        some [("Work", true), ("Inbox", false)] := by decide +kernel
  obtain ⟨final, reached, marked⟩ := Option.map_eq_some_iff.mp ended
  exact ⟨final, reached, marked, live_messages_listed oneAccount final emptiedAndDeleted
    oneAccount_initial (by decide +kernel) reached⟩

/-- A message arrives in Work, and Work is deleted. -/
def deletedWithMail : List Label :=
  [.request 7 plainEnv (.deliver "Work" {} ⟨10, some ("body", 10)⟩),
    .request 7 plainEnv (.delete "Work")]

/-- The message is live and counted, and the only mailbox is deleted. -/
theorem deletedWithMail_not_listed :
    Initial oneAccount ∧ ∃ final, run step oneAccount deletedWithMail = some final ∧
      (∃ m ∈ final.messages, m.expunged = false ∧ m.accountId = 7 ∧ m.size = 10) ∧
      (∀ mb ∈ final.mailboxes, mb.expunged = true) ∧
      final.quotaCounters = [⟨.account 7, 10, 1⟩, ⟨.tenant 1, 10, 1⟩] ∧
      ¬ InLiveMailboxes final := by
  have ended : (run step oneAccount deletedWithMail).map (fun db =>
      (db.messages.map (fun m => (m.expunged, m.accountId, m.size)),
        db.mailboxes.map Mailbox.expunged, db.quotaCounters)) =
        some ([(false, 7, 10)], [true], [⟨.account 7, 10, 1⟩, ⟨.tenant 1, 10, 1⟩]) := by
    decide +kernel
  obtain ⟨final, reached, observed⟩ := Option.map_eq_some_iff.mp ended
  obtain ⟨messages, observed⟩ := Prod.mk.inj observed
  obtain ⟨marks, quota⟩ := Prod.mk.inj observed
  have deleted : ∀ mb ∈ final.mailboxes, mb.expunged = true := by
    intro mb member
    have marked : mb.expunged ∈ final.mailboxes.map Mailbox.expunged := List.mem_map_of_mem member
    rw [marks] at marked
    exact List.mem_singleton.mp marked
  have one : (false, 7, 10) ∈ final.messages.map (fun m => (m.expunged, m.accountId, m.size)) := by
    rw [messages]
    exact List.mem_cons_self
  obtain ⟨m, member, row⟩ := List.mem_map.mp one
  obtain ⟨live, row⟩ := Prod.mk.inj row
  obtain ⟨mine, size⟩ := Prod.mk.inj row
  refine ⟨oneAccount_initial, final, reached, ⟨m, member, live, mine, size⟩, deleted, quota, ?_⟩
  intro inside
  obtain ⟨mb, there, _, _, opened⟩ := inside m member live
  exact absurd (deleted mb there) (by simp [opened])

end OctoMail.Account
