import OctoMail.Account.Requests

/-!
# Mailbox and quota counters

The counters a mailbox row keeps and the quota counter of an account are moved by
differences. `CountsExact` says what they stand for: counts and byte sums over the live
rows. Each effect moves the counters as it moves those sums, as long as the rows passed to
`MessageRemove` count as the stored ones; so the counters are exact in every run whose
Email/set updates keep the counts.
-/

namespace OctoMail.Account

open List Store Store.Tx Program Table
open Transition (Meets invariant run)

/-- The counters of a mailbox with these live messages. -/
def countsOf (live : List Message) : MailboxCounts where
  total := live.length
  deleted := live.countP (fun m => m.flags.deleted)
  unread := live.countP (fun m => !m.flags.seen)
  unseen := live.countP (fun m => !m.flags.seen)
  size := (live.map (fun m => (m.size : Int))).sum

/-- The quota counter of an account, zero where there is none yet: bytes and messages. -/
def usage (db : Database) (accountId : Nat) : Int × Int :=
  (db.quotaCounters.find? (fun row => row.scope == .account accountId)).elim (0, 0)
    (fun row => (row.bytesUsed, row.msgCount))

/-- Every counter equals what it counts. -/
structure CountsExact (db : Database) : Prop where
  mailboxes : ∀ mb ∈ db.mailboxes,
    mb.counts = countsOf (db.messages.filter (fun m => m.mailboxId == mb.id && !m.expunged))
  quota : ∀ accountId, usage db accountId =
    (((db.messages.filter (fun m => m.accountId == accountId && !m.expunged)).map
      (fun m => (m.size : Int))).sum,
      ((db.messages.filter (fun m => m.accountId == accountId && !m.expunged)).length : Int))

/-! ### Counters as tallies -/

/-- The counters of a mailbox row. -/
inductive Counter where
  | total
  | deleted
  | unread
  | unseen
  | size
deriving DecidableEq, Repr

variable {row : Message} {db : Database}

namespace Counter

/-- The column. -/
def stored : Counter → MailboxCounts → Int
  | total, counts => counts.total
  | deleted, counts => counts.deleted
  | unread, counts => counts.unread
  | unseen, counts => counts.unseen
  | size, counts => counts.size

/-- What one live message adds to it. -/
def weight : Counter → Message → Int
  | total, _ => 1
  | deleted, m => boolInt m.flags.deleted
  | unread, m => boolInt (!m.flags.seen)
  | unseen, m => boolInt (!m.flags.seen)
  | size, m => m.size

theorem ext {first second : MailboxCounts}
    (same : ∀ counter : Counter, counter.stored first = counter.stored second) :
    first = second := by
  cases first
  cases second
  simp only [MailboxCounts.mk.injEq]
  exact ⟨same total, same deleted, same unread, same unseen, same size⟩

theorem stored_bumped (counter : Counter) (counts : MailboxCounts)
    (dTotal dSize dUnseen dDeleted : Int) :
    counter.stored (bumped counts dTotal dSize dUnseen dDeleted) =
      counter.stored counts + counter.stored (bumped {} dTotal dSize dUnseen dDeleted) := by
  cases counter <;> simp [stored, bumped]

theorem weight_of_same (counter : Counter) {m : Message} (same : row.SameRow m)
    (counted : row.SameCounted m) : counter.weight row = counter.weight m := by
  cases counter <;> simp [weight, same.size, counted.1, counted.2]

end Counter

/-- What a row adds to a counter kept per mailbox or per account: nothing once expunged. -/
def liveWeight (group : Message → Nat) (key : Nat) (weight : Message → Int) (m : Message) : Int :=
  if group m = key ∧ m.expunged = false then weight m else 0

/-- The invariant of the proofs: every counter is a tally over the message table. -/
structure Exact (db : Database) : Prop where
  mailboxes : ∀ mb ∈ db.mailboxes, ∀ counter : Counter,
    counter.stored mb.counts = tally (liveWeight Message.mailboxId mb.id counter.weight) db.messages
  bytes : ∀ accountId, (usage db accountId).1 =
    tally (liveWeight Message.accountId accountId (fun m => m.size)) db.messages
  count : ∀ accountId, (usage db accountId).2 =
    tally (liveWeight Message.accountId accountId (fun _ => 1)) db.messages

theorem tally_live (group : Message → Nat) (key : Nat) (weight : Message → Int)
    (rows : List Message) :
    tally (liveWeight group key weight) rows =
      tally weight (rows.filter (fun m => group m == key && !m.expunged)) := by
  induction rows with
  | nil => rfl
  | cons m rest ih =>
    by_cases picked : group m = key ∧ m.expunged = false
    · simp [liveWeight, picked, ih]
    · have dropped : (group m == key && !m.expunged) = false := by
        simpa [Bool.and_eq_false_iff] using picked
      rw [tally_cons, ih, filter_cons_of_neg (by simp [dropped]),
        liveWeight, if_neg picked, Int.zero_add]

theorem tally_one (rows : List Message) : tally (fun _ => 1) rows = rows.length := by
  simp [tally]

theorem tally_boolInt {flag : Message → Bool} (rows : List Message) :
    tally (fun m => boolInt (flag m)) rows = rows.countP flag := by
  induction rows with
  | nil => rfl
  | cons m rest ih =>
    rw [tally_cons, ih, countP_cons]
    cases flag m <;> simp [boolInt]
    omega

theorem stored_countsOf (counter : Counter) (live : List Message) :
    counter.stored (countsOf live) = tally counter.weight live := by
  cases counter with
  | total => exact (tally_one live).symm
  | deleted | unread | unseen => exact (tally_boolInt live).symm
  | size => rfl

/-- Tallies are counts and byte sums. -/
theorem Exact.countsExact (exact_ : Exact db) : CountsExact db := by
  refine ⟨fun mb member => Counter.ext fun counter => ?_, fun accountId => ?_⟩
  · rw [exact_.mailboxes mb member counter, stored_countsOf, tally_live]
  · refine Prod.ext ?_ ?_
    · rw [exact_.bytes accountId, tally_live]
      rfl
    · rw [exact_.count accountId, tally_live, tally_one]

/-! ### How statements move a tally -/

section Shifts

variable (group : Message → Nat) (key : Nat) (weight : Message → Int)

theorem tally_inserted {rows : List Message} (live : row.expunged = false) :
    tally (liveWeight group key weight) (rows ++ [row]) =
      tally (liveWeight group key weight) rows + if group row = key then weight row else 0 := by
  rw [tally_insert]
  simp [liveWeight, live]

/-- Replacing one live row by a live row of the same group. -/
theorem tally_replaced (rows : List Message) {chosen : Message → Bool} (f : Message → Message)
    (old : Message) (distinct : (rows.map Message.id).Nodup) (member : old ∈ rows)
    (exactly : ∀ row ∈ rows, chosen row = true ↔ row.id = old.id) (same : group (f old) = group old)
    (was : old.expunged = false) (stays : (f old).expunged = false) :
    tally (liveWeight group key weight) (update chosen f rows) =
      tally (liveWeight group key weight) rows +
        if group old = key then weight (f old) - weight old else 0 := by
  rw [tally_update_one _ chosen f distinct member exactly]
  by_cases mine : group old = key <;> simp [liveWeight, same, was, stays, mine]

/-- Marking the rows of some values expunged takes their weight away. -/
theorem tally_expunged (db : Database) (seq home : Nat) (msgs : List Message) (wf : db.Wf)
    (distinct : (msgs.map Message.id).Nodup)
    (stored : ∀ m ∈ msgs, ∃ row ∈ db.messages, row.expunged = false ∧ row.id = m.id ∧
      group row = home ∧ weight row = weight m) :
    tally (liveWeight group key weight) (db.expungedMessages seq (msgs.map Message.id)).messages =
      tally (liveWeight group key weight) db.messages +
        if home = key then -tally weight msgs else 0 := by
  induction msgs generalizing db with
  | nil => simp [Database.expungedMessages_nil]
  | cons m rest ih =>
    obtain ⟨apart, distinct⟩ := nodup_cons.mp distinct
    obtain ⟨row, member, live, named, mine, counted⟩ := stored m mem_cons_self
    rw [map_cons, Database.expungedMessages_cons, ih]
    · have first := tally_update_one (liveWeight group key weight)
        (fun other => other.id == m.id) (fun row =>
          { row with expunged := true, modSeq := seq }) wf.messageIds member (by simp [named])
      simp only [Database.setMessages]
      rw [first, tally_cons]
      by_cases here : home = key <;> simp [liveWeight, live, mine, here, counted]
      ring
    · exact wf.setMessages _ _ (fun _ => rfl) (fun _ => rfl) (fun _ => rfl)
    · exact distinct
    · intro other later
      obtain ⟨found, there, facts⟩ := stored other (mem_cons_of_mem _ later)
      refine ⟨found, Table.mem_update_of_mem there ?_, facts⟩
      have different : found.id ≠ m.id := by
        rw [facts.2.1]
        exact fun same => apart (mem_map.mpr ⟨other, later, same⟩)
      simpa using different

end Shifts

/-! ### How statements move the counters -/

/-- A bump of one mailbox follows a shift of the tallies. -/
theorem bumpedCounts_exact (db : Database) (messages : List Message) (mailboxId : Nat)
    (dTotal dSize dUnseen dDeleted : Int)
    (before : ∀ mb ∈ db.mailboxes, ∀ counter : Counter, counter.stored mb.counts =
      tally (liveWeight Message.mailboxId mb.id counter.weight) db.messages)
    (shift : ∀ (counter : Counter) (id : Nat),
      tally (liveWeight Message.mailboxId id counter.weight) messages =
        tally (liveWeight Message.mailboxId id counter.weight) db.messages +
          if mailboxId = id then counter.stored (bumped {} dTotal dSize dUnseen dDeleted) else 0) :
    ∀ mb ∈ (db.bumpedCounts mailboxId dTotal dSize dUnseen dDeleted).mailboxes,
      ∀ counter : Counter, counter.stored mb.counts =
        tally (liveWeight Message.mailboxId mb.id counter.weight) messages := by
  intro mb member counter
  obtain ⟨old, there, rfl⟩ := Table.mem_update.mp member
  by_cases here : old.id = mailboxId
  · simp only [here, beq_self_eq_true, if_true]
    rw [Counter.stored_bumped, before old there counter, here, shift, if_pos rfl]
  · have passed : ¬ (old.id == mailboxId) = true := by simpa using here
    rw [if_neg passed, before old there counter, shift, if_neg fun same => here same.symm,
      Int.add_zero]

theorem usage_bumpQuotaScope (db : Database) (scope : Scope) (dCount dSize : Int)
    (accountId : Nat) :
    usage (db.bumpQuotaScope scope dCount dSize) accountId =
      if scope = .account accountId then
        ((usage db accountId).1 + dSize, (usage db accountId).2 + dCount)
      else usage db accountId := by
  have none_of : ∀ other, scope = .account other →
      db.quotaCounters.any (fun row => row.scope == scope) = false →
      db.quotaCounters.find? (fun row => row.scope == .account other) = none := by
    rintro other rfl absent
    rw [find?_eq_none]
    simpa using absent
  unfold Database.bumpQuotaScope usage
  split
  · rename_i present
    rw [Table.find?_update]
    · cases found : db.quotaCounters.find? (fun row => row.scope == .account accountId) with
      | none =>
        rw [if_neg]
        · rfl
        · rintro rfl
          rw [find?_eq_none] at found
          obtain ⟨row, member, named⟩ := any_eq_true.mp present
          exact found row member named
      | some row =>
        have named : row.scope = .account accountId := by simpa using find?_some found
        by_cases same : scope = .account accountId
        · simp [named, same]
        · simp [named, same, Ne.symm same]
    · exact fun _ => rfl
  · rename_i absent
    rw [find?_append]
    by_cases same : scope = .account accountId
    · rw [none_of accountId same (by simpa using absent)]
      simp [same]
    · simp [same]

theorem usage_bumpedQuota (db : Database) (accountId tenantId : Nat) (dCount dSize : Int)
    (other : Nat) :
    usage (db.bumpedQuota accountId tenantId dCount dSize) other =
      ((usage db other).1 + (if accountId = other then dSize else 0),
        (usage db other).2 + (if accountId = other then dCount else 0)) := by
  rw [Database.bumpedQuota, usage_bumpQuotaScope, usage_bumpQuotaScope, if_neg (by simp)]
  by_cases same : accountId = other <;> simp [same]

/-- The counters stay exact where one mailbox and one account are bumped by what the
tallies are shifted by. -/
theorem exact_of_shifts {after : Database} {mailboxId : Nat} (accountId tenantId : Nat)
    {dTotal dSize dUnseen dDeleted : Int} (exact_ : Exact db) (mailboxes : after.mailboxes =
      (db.bumpedCounts mailboxId dTotal dSize dUnseen dDeleted).mailboxes)
    (quota : after.quotaCounters = db.quotaCounters)
    (mailboxShift : ∀ (counter : Counter) (id : Nat),
      tally (liveWeight Message.mailboxId id counter.weight) after.messages =
        tally (liveWeight Message.mailboxId id counter.weight) db.messages +
          if mailboxId = id then counter.stored (bumped {} dTotal dSize dUnseen dDeleted) else 0)
    (byteShift : ∀ id, tally (liveWeight Message.accountId id (fun m => m.size)) after.messages =
      tally (liveWeight Message.accountId id (fun m => m.size)) db.messages +
        if accountId = id then dSize else 0)
    (countShift : ∀ id, tally (liveWeight Message.accountId id (fun _ => 1)) after.messages =
      tally (liveWeight Message.accountId id (fun _ => 1)) db.messages +
        if accountId = id then dTotal else 0) :
    Exact (after.bumpedQuota accountId tenantId dTotal dSize) := by
  have used : ∀ id, usage after id = usage db id := by
    intro id
    rw [usage, quota]
    rfl
  refine ⟨?_, fun id => ?_, fun id => ?_⟩
  · rw [Database.bumpedQuota_mailboxes, Database.bumpedQuota_messages, mailboxes]
    exact bumpedCounts_exact db after.messages mailboxId dTotal dSize dUnseen dDeleted
      exact_.mailboxes mailboxShift
  · rw [usage_bumpedQuota, Database.bumpedQuota_messages, byteShift, used, exact_.bytes]
  · rw [usage_bumpedQuota, Database.bumpedQuota_messages, countShift, used, exact_.count]

/-- Statements that leave the counters, the messages and the quota alone. -/
theorem Exact.setMailboxes (exact_ : Exact db) (chosen : Mailbox → Bool)
    (f : Mailbox → Mailbox) (id : ∀ row, (f row).id = row.id)
    (counts : ∀ row, (f row).counts = row.counts) : Exact (db.setMailboxes chosen f) := by
  refine ⟨fun mb member counter => ?_, exact_.bytes, exact_.count⟩
  obtain ⟨old, there, rfl⟩ := Table.mem_update.mp member
  split
  · rw [id, counts]
    exact exact_.mailboxes old there counter
  · exact exact_.mailboxes old there counter

/-! ### Each effect keeps the counters exact -/

variable {rules : Rules} {pt final : Tx} {created : Nat}

theorem createMailbox_exact (row : Mailbox) (wf : pt.db.Wf) (exact_ : Exact pt.db)
    (id : row.id = pt.db.nextMailboxId) (counts : row.counts = {}) :
    Exact ((pt.db.tookUidValidity pt.accountId).insertedMailbox row) := by
  refine ⟨fun mb member counter => ?_, exact_.bytes, exact_.count⟩
  rcases mem_append.mp member with old | new
  · exact exact_.mailboxes mb old counter
  · rw [mem_singleton.mp new, counts]
    refine Eq.trans ?_ (tally_eq_zero fun m there => ?_).symm
    · cases counter <;> rfl
    · obtain ⟨home, stored, same, _⟩ := wf.owned m there
      have below := wf.mailboxBelow home stored
      exact if_neg fun here => by omega

theorem addMessage_exact (exact_ : Exact pt.db) (mine : row.accountId = pt.accountId)
    (live : row.expunged = false) : Exact (pt.added row).db := by
  have taken : Exact (pt.db.tookUid row.mailboxId) :=
    exact_.setMailboxes _ _ (fun _ => rfl) (fun _ => rfl)
  refine exact_of_shifts pt.accountId pt.tenantId taken rfl rfl ?_ ?_ ?_
  · intro counter id
    refine (tally_inserted _ _ _ live).trans ?_
    cases counter <;> simp [Counter.weight, Counter.stored, bumped]
  · intro id
    rw [← mine]
    exact tally_inserted _ _ _ live
  · intro id
    rw [← mine]
    exact tally_inserted _ _ _ live

theorem update_exact {x old : Message} (keywords : List String) (wf : pt.db.Wf)
    (exact_ : Exact pt.db) (stored : pt.Stored old) (same : old.SameRow x) :
    Exact (pt.updated x old keywords).db := by
  have exactly : ∀ row ∈ pt.db.messages,
      (row.id == x.id && row.accountId == pt.accountId) = true ↔ row.id = old.id := by
    intro row member
    constructor
    · intro picked
      simp only [Bool.and_eq_true, beq_iff_eq] at picked
      exact picked.1.trans same.id.symm
    · intro named
      obtain rfl := Table.eq_of_key wf.messageIds member stored.mem named
      simp [same.id, stored.mine]
  have shift := fun group key weight kept => tally_replaced group key weight pt.db.messages
    (fun row => { row with flags := x.flags, keywords := some keywords, modSeq := pt.seq + 1 })
    old wf.messageIds stored.mem exactly kept stored.live stored.live
  refine ⟨?_, fun id => ?_, fun id => ?_⟩
  · refine bumpedCounts_exact pt.db _ x.mailboxId 0 0 _ _ exact_.mailboxes fun counter id => ?_
    refine (shift Message.mailboxId id counter.weight rfl).trans ?_
    rw [same.mailboxId]
    cases counter <;> simp [Counter.weight, Counter.stored, bumped]
  · exact (exact_.bytes id).trans (by
      refine Eq.symm ((shift Message.accountId id (fun m => m.size) rfl).trans ?_)
      simp)
  · exact (exact_.count id).trans (by
      refine Eq.symm ((shift Message.accountId id (fun _ => 1) rfl).trans ?_)
      simp)

theorem remove_exact (mb : Mailbox) (msgs : List Message) (wf : pt.db.Wf) (exact_ : Exact pt.db)
    (distinct : (msgs.map Message.id).Nodup) (there : ∀ m ∈ msgs, m.mailboxId = mb.id)
    (known : ∀ m ∈ msgs, pt.Known True m) : Exact (pt.removed mb msgs).db := by
  have inMailbox : ∀ (counter : Counter), ∀ m ∈ msgs, ∃ row ∈ pt.db.messages,
      row.expunged = false ∧ row.id = m.id ∧ row.mailboxId = mb.id ∧
        counter.weight row = counter.weight m := by
    intro counter m member
    obtain ⟨row, stored, same, counted⟩ := known m member
    exact ⟨row, stored.mem, stored.live, same.id, same.mailboxId.trans (there m member),
      counter.weight_of_same same (counted trivial)⟩
  have inAccount : ∀ (counter : Counter), ∀ m ∈ msgs, ∃ row ∈ pt.db.messages,
      row.expunged = false ∧ row.id = m.id ∧ row.accountId = pt.accountId ∧
        counter.weight row = counter.weight m := by
    intro counter m member
    obtain ⟨row, stored, same, counted⟩ := known m member
    exact ⟨row, stored.mem, stored.live, same.id, stored.mine,
      counter.weight_of_same same (counted trivial)⟩
  refine exact_of_shifts pt.accountId pt.tenantId exact_ rfl rfl ?_ ?_ ?_
  · intro counter id
    refine (tally_expunged _ _ _ pt.db (pt.seq + 1) mb.id msgs wf distinct
      (inMailbox counter)).trans ?_
    have sum : -tally counter.weight msgs = counter.stored (bumped {} (-msgs.length)
        (-(msgs.map (fun m => (m.size : Int))).sum)
        (-(msgs.map (fun m => boolInt (!m.flags.seen))).sum)
        (-(msgs.map (fun m => boolInt m.flags.deleted)).sum)) := by
      cases counter <;> simp only [Counter.stored, bumped, Int.zero_add, neg_inj]
      case total => exact tally_one msgs
      all_goals rfl
    rw [sum]
  · intro id
    exact tally_expunged _ _ _ pt.db (pt.seq + 1) pt.accountId msgs wf distinct
      (inAccount .size)
  · intro id
    refine (tally_expunged _ _ _ pt.db (pt.seq + 1) pt.accountId msgs wf distinct
      (inAccount .total)).trans ?_
    have count : tally Counter.total.weight msgs = msgs.length := tally_one msgs
    rw [count]
    rfl

theorem effect_exact (fresh : rules.fresh) (effect : Effect rules pt created final)
    (wf : pt.db.Wf) (exact_ : Exact pt.db) : Exact final.db := by
  cases effect with
  | mailboxes chosen f _ keeps =>
    exact exact_.setMailboxes chosen f (fun row => (keeps row).id) (fun row => (keeps row).counts)
  | createMailbox _ row _ _ id _ _ _ _ counts =>
    exact createMailbox_exact row wf exact_ id counts
  | deleteMailbox => exact exact_.setMailboxes _ _ (fun _ => rfl) (fun _ => rfl)
  | addMessage _ _ _ _ _ _ mine _ _ _ _ live => exact addMessage_exact exact_ mine live
  | update _ _ keywords stored same => exact update_exact keywords wf exact_ stored same
  | remove mb msgs distinct there known =>
    exact remove_exact mb msgs wf exact_ distinct there fun m member =>
      (known m member).weaken fun _ => fresh

/-! ### Every run -/

/-- No Email/set that is applied expunges a row of which it has just changed a counted flag. -/
def CountsKept (db : Database) : Label → Prop
  | .request accountId env request => request.succeeds env db accountId = true →
      (db.account accountId).all (fun account => request.keepsCounts env (begin_ db account)) = true
  | .collect _ => True

instance (db : Database) (label : Label) : Decidable (CountsKept db label) :=
  match label with
  | .request .. => inferInstanceAs (Decidable (_ = true → _ = true))
  | .collect _ => isTrue trivial

theorem exact_collected (db : Database) (ids : List Nat) (exact_ : Exact db) :
    Exact (collected db ids) := by
  have same : ∀ (group : Message → Nat) (key : Nat) (weight : Message → Int),
      tally (liveWeight group key weight) (collected db ids).messages =
        tally (liveWeight group key weight) db.messages := by
    intro group key weight
    refine tally_filter fun m _ dropped => if_neg fun counted => ?_
    simp [counted.2] at dropped
  refine ⟨fun mb member counter => ?_, fun id => ?_, fun id => ?_⟩
  · rw [same]
    exact exact_.mailboxes mb member counter
  · rw [same]
    exact exact_.bytes id
  · rw [same]
    exact exact_.count id

theorem step_exact {after : Database} {label : Label} (wf : db.Wf) (exact_ : Exact db)
    (kept : CountsKept db label) (moved : step db label = some after) : Exact after := by
  cases label with
  | request accountId env request =>
    cases ok : request.succeeds env db accountId with
    | false =>
      rw [request_refused moved ok]
      exact exact_
    | true =>
      rcases step_request wf moved with rfl | changed
      · exact exact_
      · obtain ⟨account, pt, created, found, _, steps, rfl⟩ := changed
        have fresh : request.keepsCounts env (begin_ db account) = true := by
          simpa [found] using kept ok
        obtain ⟨_, ended⟩ := steps.invariant (fun pt => pt.db.Wf ∧ Exact pt.db)
          (fun pt more final held effect =>
            ⟨effect.wf held.1, effect_exact fresh effect held.1 held.2⟩) ⟨wf, exact_⟩
        exact ⟨ended.mailboxes, ended.bytes, ended.count⟩
  | collect ids =>
    cases moved
    exact exact_collected db ids exact_

theorem Initial.exact_ (initial : Initial db) : Exact db := by
  obtain ⟨mailboxes, messages, _, quota, _⟩ := initial
  constructor <;> simp [mailboxes, messages, usage, quota]

/-- In every run in which no Email/set expunges a row of which it has just changed a counted
flag, every counter is exact after every transaction. -/
theorem counters_exact (db final : Database) (labels : List Label) (initial : Initial db)
    (kept : Meets step CountsKept db labels)
    (reached : run step db labels = some final) : CountsExact final := by
  have ended := invariant (fun db => db.Wf ∧ Exact db)
    (fun held guarded moved => ⟨step_wf held.1 moved, step_exact held.1 held.2 guarded moved⟩)
    ⟨initial.wf, initial.exact_⟩ kept reached
  exact ended.2.countsExact

/-- A message arrives unseen in Inbox, Archive is created, one Email/set moves the Email
there and a second one marks it seen. -/
def movedThenSeen : List Label :=
  [.request 7 plainEnv (.deliver "Inbox" {} ⟨10, some ("body", 10)⟩),
    .request 7 plainEnv (.create "Archive" {}),
    .request 7 plainEnv (.emailSetUpdate
      [("E1", [("mailboxIds/1", .bool false), ("mailboxIds/2", .bool true)])]),
    .request 7 plainEnv (.emailSetUpdate [("E1", [("keywords/$seen", .bool true)])])]

theorem movedThenSeen_exact :
    ∃ final, run step oneAccount movedThenSeen = some final ∧
      final.mailboxes.map (fun mb => (mb.name, mb.counts.total, mb.counts.unseen)) =
        [("Inbox", 0, 0), ("Archive", 1, 0)] ∧ CountsExact final := by
  have ended : (run step oneAccount movedThenSeen).map (fun db =>
      db.mailboxes.map (fun mb => (mb.name, mb.counts.total, mb.counts.unseen))) =
        some [("Inbox", 0, 0), ("Archive", 1, 0)] := by decide +kernel
  obtain ⟨final, reached, counts⟩ := Option.map_eq_some_iff.mp ended
  exact ⟨final, reached, counts,
    counters_exact oneAccount final movedThenSeen oneAccount_initial (by decide +kernel) reached⟩

/-- The same in one Email/set: the Email is marked seen and moved at once. -/
def seenAndMoved : List Label :=
  [.request 7 plainEnv (.deliver "Inbox" {} ⟨10, some ("body", 10)⟩),
    .request 7 plainEnv (.create "Archive" {}),
    .request 7 plainEnv (.emailSetUpdate [("E1", [("keywords/$seen", .bool true),
      ("mailboxIds/1", .bool false), ("mailboxIds/2", .bool true)])])]

/-- Inbox ends with minus one unseen message: the update counted the row as seen, and the
expunge took it away as unseen. -/
theorem seenAndMoved_not_exact :
    Initial oneAccount ∧ ∃ final, run step oneAccount seenAndMoved = some final ∧
      (∃ mb ∈ final.mailboxes, mb.name = "Inbox" ∧ mb.counts.total = 0 ∧
        mb.counts.unseen = -1 ∧ mb.counts.unread = -1) ∧ ¬ CountsExact final := by
  have ended : (run step oneAccount seenAndMoved).map (fun db =>
      (db.mailboxes.find? (fun mb => mb.id == 1)).map (fun mb => (mb.name, mb.counts))) =
        some (some ("Inbox", ⟨0, 0, -1, -1, 0⟩)) := by decide +kernel
  obtain ⟨final, reached, found⟩ := Option.map_eq_some_iff.mp ended
  obtain ⟨mb, located, observed⟩ := Option.map_eq_some_iff.mp found
  obtain ⟨named, counts⟩ := Prod.mk.inj observed
  have member := mem_of_find?_eq_some located
  refine ⟨oneAccount_initial, final, reached,
    ⟨mb, member, named, by rw [counts], by rw [counts], by rw [counts]⟩, fun exact_ => ?_⟩
  have negative := congrArg MailboxCounts.unseen (exact_.mailboxes mb member)
  rw [counts] at negative
  simp only [countsOf] at negative
  omega

end OctoMail.Account
