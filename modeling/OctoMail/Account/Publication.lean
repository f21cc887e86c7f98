import OctoMail.Account.Log
import OctoMail.Store.ChangeCodec

/-!
# What is published is what is replayed

A transaction that is committed hands its changes and its head to `publish`. Other nodes,
and subscribers that have fallen behind, get the same changes by replaying the log table.
A change is encoded when it is recorded and decoded when it is replayed, so the two agree
if the log has exactly the positions that the transaction took, in the order in which it
recorded its changes, and every kind of change survives its encoding.
-/

namespace OctoMail.Account

open List Store Store.Tx Program
open Transition (always run)

/-- What a commit hands to `publish`, with the head that the transaction began with. -/
structure Publication where
  accountId : Nat
  since : Nat
  head : Nat
  changes : List Change
deriving DecidableEq, Repr

/-- `Tx` of an account: the tables after the commit and what is published. Recording a
change appends it to the pending entries and to the changes to publish alike. -/
def tx (db : Database) (accountId : Nat) (body : Txn Unit) :
    Except Failure (Database × Publication) :=
  match db.account accountId with
  | none => .error .noRows
  | some account =>
      match (do body; Tx.flush : Txn Unit) (begin_ db account) with
      | .error failure => .error failure
      | .ok (_, pt) => .ok (pt.db,
          ⟨accountId, account.changelogSeq, pt.seq, pt.entries.map LogRow.change⟩)

/-- The tables and everything that was published. -/
structure Publishing where
  db : Database
  published : List Publication := []

namespace Publishing

def step (s : Publishing) : Label → Option Publishing
  | .request accountId env request =>
      match tx s.db accountId (request.body env) with
      | .ok (db, publication) => some ⟨db, s.published ++ [publication]⟩
      | .error _ => some s
  | .collect ids => some { s with db := collected s.db ids }

end Publishing

theorem tx_ok (db : Database) {after : Database} (accountId : Nat) {body : Txn Unit}
    {publication : Publication} (ran : tx db accountId body = .ok (after, publication)) :
    ∃ account pt, db.account accountId = some account ∧ body (begin_ db account) = .ok ((), pt) ∧
      after = flushed pt ∧ publication =
        ⟨accountId, account.changelogSeq, pt.seq, pt.entries.map LogRow.change⟩ := by
  unfold tx at ran
  split at ran
  · cases ran
  rename_i account found
  split at ran
  · cases ran
  rename_i done final completed
  obtain ⟨rfl, rfl⟩ := Prod.mk.inj (Except.ok.inj ran)
  simp only [flush, bind_ok, get_ok, modifyDb_ok] at completed
  obtain ⟨_, pt, first, _, _, ⟨rfl, rfl⟩, _, _, appended, rfl⟩ := completed
  obtain rfl := appendLog_ok _ _ _ _ appended
  exact ⟨account, pt, found, first, rfl, rfl⟩

/-! ### The log read back -/

/-- The entries after a position are those left when as many are dropped. -/
theorem filter_after {entries : List LogRow} (start since : Nat)
    (numbered : entries.map LogRow.seq = List.range' (start + 1) entries.length) :
    entries.filter (fun entry => decide (since < entry.seq)) = entries.drop (since - start) := by
  induction entries generalizing start with
  | nil => simp
  | cons entry rest ih =>
    rw [map_cons, length_cons, List.range'_succ] at numbered
    obtain ⟨first, others⟩ := List.cons.inj numbered
    have later := ih (start + 1) others
    by_cases after : since < entry.seq
    · have none : since - start = 0 := by omega
      have still : since - (start + 1) = 0 := by omega
      rw [filter_cons_of_pos (by simpa using after), later, none, still]
      rfl
    · have one : since - start = since - (start + 1) + 1 := by omega
      rw [filter_cons_of_neg (by simpa using after), later, one]
      rfl

theorem foldl_max_range' (start length : Nat) :
    (List.range' (start + 1) length).foldl max start = start + length := by
  induction length generalizing start with
  | zero => rfl
  | succ length ih =>
    rw [List.range'_succ, foldl_cons, Nat.max_eq_right (Nat.le_succ start),
      ih]
    omega

variable {accountId created : Nat} {pt : Tx} {rules : Rules} {db : Database}

/-- A replay of a log that is numbered up to a position. -/
theorem replayWithSeqs_numbered {log : List LogRow} {position : Nat}
    (numbered : NumberedTo log accountId position) {since : Nat} (within_ : since ≤ position) :
    replayWithSeqs (log.map LogRow.stored) accountId since =
      some (List.range' (since + 1) (position - since),
        ((ownLog log accountId).drop since).map LogRow.change, position) := by
  have length := numbered.length
  have chosen : (log.map LogRow.stored).filter
      (fun row => row.accountId == accountId && decide (since < row.seq)) =
        ((ownLog log accountId).drop since).map LogRow.stored := by
    have after : (ownLog log accountId).filter (fun entry => decide (since < entry.seq)) =
        (ownLog log accountId).drop since :=
      filter_after 0 since (by rw [length]; exact numbered)
    rw [← after, ownLog, filter_filter, filter_map]
    exact congrArg (fun rows => List.map LogRow.stored rows)
      (filter_congr fun entry _ => Bool.and_comm _ _)
  have seqs : ((ownLog log accountId).drop since).map LogRow.seq =
      List.range' (since + 1) (position - since) := by
    rw [map_drop, numbered, drop_range', Nat.mul_one, Nat.add_comm 1 since]
  have ordered : (((ownLog log accountId).drop since).map LogRow.stored).Pairwise
      (fun first second => decide (first.seq ≤ second.seq) = true) := by
    have increasing : (((ownLog log accountId).drop since).map LogRow.seq).Pairwise (· < ·) := by
      rw [seqs]
      exact pairwise_lt_range' 1
    rw [pairwise_map] at increasing ⊢
    exact increasing.imp fun less => decide_eq_true (Nat.le_of_lt less)
  have top : since + (position - since) = position := by omega
  rw [replayWithSeqs, chosen, mergeSort_of_pairwise ordered, foldlM_replayRow, seqs,
    foldl_max_range', top]
  rfl

/-- What a replay returns up to a position. -/
def replayTo (changelog : List StoredRow) (accountId since head : Nat) :
    Option (List Nat × List Change) :=
  (replayWithSeqs changelog accountId since).map fun (seqs, changes, _) =>
    ((seqs.zip changes).filter (fun entry => decide (entry.1 ≤ head))).unzip

/-- The positions of a range up to a bound. -/
theorem filter_zip_range' {α : Type} (values : List α) (start bound : Nat) :
    ((List.range' (start + 1) values.length).zip values).filter
        (fun entry => decide (entry.1 ≤ bound)) =
      (List.range' (start + 1) (values.take (bound - start)).length).zip
        (values.take (bound - start)) := by
  induction values generalizing start with
  | nil => simp
  | cons value rest ih =>
    rw [length_cons, List.range'_succ, zip_cons_cons]
    by_cases below : start + 1 ≤ bound
    · have one : bound - start = bound - (start + 1) + 1 := by omega
      rw [filter_cons_of_pos (by simpa using below), ih, one,
        take_succ_cons, length_cons, List.range'_succ, zip_cons_cons]
    · have none : bound - start = 0 := by omega
      have still : bound - (start + 1) = 0 := by omega
      rw [filter_cons_of_neg (by simpa using below), ih, none, still]
      rfl

theorem replayTo_numbered {log : List LogRow} {position : Nat}
    (numbered : NumberedTo log accountId position) {since head : Nat} (within_ : since ≤ position) :
    replayTo (log.map LogRow.stored) accountId since head =
      some (List.range' (since + 1)
          ((((ownLog log accountId).drop since).take (head - since)).length),
        (((ownLog log accountId).drop since).take (head - since)).map LogRow.change) := by
  have length : (((ownLog log accountId).drop since).map LogRow.change).length =
      position - since := by
    rw [length_map, length_drop, numbered.length]
  rw [replayTo, replayWithSeqs_numbered numbered within_, Option.map_some]
  refine congrArg some ?_
  have kept := filter_zip_range' (((ownLog log accountId).drop since).map LogRow.change) since head
  rw [length] at kept
  show (List.filter (fun entry => decide (entry.1 ≤ head)) (List.zip _ _)).unzip = _
  rw [kept, unzip_zip (length_range' ..), ← map_take, length_map]

/-! ### Every commit -/

/-- A recorded change stands at the position it carries. -/
theorem effect_carries {final : Tx} (effect : Effect rules pt created final)
    (carried : ∀ entry ∈ pt.entries, entry.change.Carries entry.seq) :
    ∀ entry ∈ final.entries, entry.change.Carries entry.seq := by
  have last : ∀ (db : Database) (change : Change), change.Carries (pt.seq + 1) →
      ∀ entry ∈ ((pt.withDb db).logged change).entries, entry.change.Carries entry.seq := by
    intro db change own entry member
    rcases mem_append.mp member with old | new
    · exact carried entry old
    · rw [mem_singleton.mp new]
      exact own
  cases effect with
  | mailboxes _ _ _ _ _ _ carries => exact last _ _ carries
  | createMailbox account row logged found id mine uidValidity uidNext live counts modSeq named
      carries =>
    exact last _ _ (carries_own (congrArg some carries))
  | deleteMailbox | addMessage | update | remove => exact last _ _ (carries_own rfl)

theorem steps_carry {start : Tx}
    (steps : Steps rules created start pt) (none : start.entries = []) :
    ∀ entry ∈ pt.entries, entry.change.Carries entry.seq :=
  steps.invariant (fun pt => ∀ entry ∈ pt.entries, entry.change.Carries entry.seq)
    (fun _ _ _ carried effect => effect_carries effect carried)
    (by simp [none])

/-- A publication is a part of the log: the entries after the head that the transaction
began with, up to its own. -/
structure Publication.Logged (publication : Publication) (log : List LogRow) : Prop where
  upward : publication.since ≤ publication.head
  entries : ∃ before during later, ownLog log publication.accountId = before ++ during ++ later ∧
    before.length = publication.since ∧ publication.since + during.length = publication.head ∧
    during.map LogRow.change = publication.changes

theorem Publication.Logged.append {publication : Publication} {log : List LogRow}
    (logged : publication.Logged log) (more : List LogRow) : publication.Logged (log ++ more) := by
  obtain ⟨before, during, later, split, rest⟩ := logged.entries
  refine ⟨logged.upward, before, during, later ++ ownLog more publication.accountId, ?_, rest⟩
  rw [ownLog_append, split, append_assoc]

/-- What a transaction publishes is the end of the log it leaves. -/
theorem publication_logged {account : AccountRow} (kept : LogKept db)
    (found : db.account accountId = some account)
    (steps : Steps rules created (begin_ db account) pt) :
    Publication.Logged ⟨accountId, account.changelogSeq, pt.seq, pt.entries.map LogRow.change⟩
      (flushed pt).changelog := by
  have mine : account.id = accountId := by simpa using find?_some found
  have logged := steps_logged (kept.begin found) steps
  have before := (kept account (mem_of_find?_eq_some found)).length
  have whole := logged.numbered.length
  have owner : pt.accountId = accountId := logged.accountId.trans mine
  have own : ownLog pt.entries accountId = pt.entries :=
    filter_eq_self.mpr fun entry member => by simp [logged.own entry member, owner]
  have old : pt.db.changelog = db.changelog := logged.changelog
  rw [mine] at before
  rw [owner, pending, ownLog_append, own, old, length_append] at whole
  have split : ownLog (flushed pt).changelog accountId =
      ownLog db.changelog accountId ++ pt.entries ++ [] := by
    show ownLog (pt.db.changelog ++ pt.entries) accountId = _
    rw [ownLog_append, own, old, append_nil]
  refine ⟨?_, _, _, _, split, before, ?_, rfl⟩
  · show account.changelogSeq ≤ pt.seq
    omega
  · show account.changelogSeq + pt.entries.length = pt.seq
    omega

/-- What holds of the tables and of everything published. -/
structure Faithful (s : Publishing) : Prop where
  sound : Sound s.db
  carried : ∀ entry ∈ s.db.changelog, entry.change.Carries entry.seq
  known : ∀ publication ∈ s.published, (s.db.account publication.accountId).isSome = true
  logged : ∀ publication ∈ s.published, publication.Logged s.db.changelog

theorem Initial.faithful (initial : Initial db) : Faithful ⟨db, []⟩ := by
  refine ⟨initial.sound, fun entry member => ?_, fun _ member => absurd member not_mem_nil,
    fun _ member => absurd member not_mem_nil⟩
  rw [initial.changelog] at member
  exact absurd member not_mem_nil

/-- A transaction that is committed is the request's transaction. -/
theorem tx_step (db after : Database) (accountId : Nat) (env : Env) (request : Request)
    (publication : Publication) (sound : Sound db)
    (ran : tx db accountId (request.body env) = .ok (after, publication)) :
    step db (.request accountId env request) = some after := by
  obtain ⟨account, pt, found, completed, rfl, _⟩ := tx_ok db accountId ran
  exact step_commits sound found completed

theorem Publishing.step_faithful (s next : Publishing) (label : Label) (faithful : Faithful s)
    (moved : s.step label = some next) : Faithful next := by
  obtain ⟨sound, carried, known, logged⟩ := faithful
  cases label with
  | request accountId env request =>
    simp only [Publishing.step] at moved
    split at moved
    · rename_i after publication ran
      cases moved
      have stepped := tx_step s.db after accountId env request publication sound ran
      have stays := fun owner there =>
        step_account s.db after _ owner sound.wf there stepped
      obtain ⟨account, pt, found, completed, rfl, rfl⟩ := tx_ok s.db accountId ran
      obtain ⟨created, _, steps⟩ :=
        (body_running env sound.wf request _ _ _ rfl completed).steps
      have old : pt.db.changelog = s.db.changelog :=
        (steps_logged (sound.kept.begin found) steps).changelog
      have log : (flushed pt).changelog = s.db.changelog ++ pt.entries := by rw [← old]; rfl
      refine ⟨step_sound s.db _ _ sound stepped, fun entry member => ?_,
        fun publication member => ?_, fun publication member => ?_⟩
      · rw [log] at member
        rcases mem_append.mp member with before | new
        · exact carried entry before
        · exact steps_carry steps rfl entry new
      · rcases mem_append.mp member with before | new
        · exact stays _ (known publication before)
        · rw [mem_singleton.mp new]
          exact stays accountId (by rw [found]; rfl)
      · rcases mem_append.mp member with before | new
        · show publication.Logged (flushed pt).changelog
          rw [log]
          exact (logged publication before).append _
        · rw [mem_singleton.mp new]
          exact publication_logged sound.kept found steps
    · cases moved
      exact ⟨sound, carried, known, logged⟩
  | collect ids =>
    cases moved
    exact ⟨step_sound s.db _ (.collect ids) sound rfl, carried,
      fun publication member => step_account s.db _ (.collect ids) _ sound.wf
        (known publication member) rfl, logged⟩

/-- The log of every account has the positions from one to its head, every change that
carries a position stands there, and replaying the log from where a transaction began to
where it ended gives, position by position, what the transaction published. -/
theorem published_is_replayed (db : Database) (final : Publishing) (labels : List Label)
    (initial : Initial db) (reached : run Publishing.step ⟨db, []⟩ labels = some final) :
    (∀ account ∈ final.db.accounts, (ownLog final.db.changelog account.id).map LogRow.seq =
        List.range' 1 account.changelogSeq) ∧
      (∀ entry ∈ final.db.changelog, ∀ modSeq, entry.change.changeModSeq = some modSeq →
        entry.seq = modSeq) ∧
      ∀ publication ∈ final.published,
        publication.since + publication.changes.length = publication.head ∧
        replayTo (final.db.changelog.map LogRow.stored) publication.accountId publication.since
            publication.head =
          some (List.range' (publication.since + 1) publication.changes.length,
            publication.changes) := by
  obtain ⟨sound, carried, known, logged⟩ := always Faithful
    (Publishing.step_faithful _ _ _) initial.faithful reached
  refine ⟨sound.kept, fun entry member modSeq carries => (carried entry member modSeq carries).symm,
    fun publication member => ?_⟩
  obtain ⟨upward, before, during, later, split, length, total, changes⟩ := logged publication member
  obtain ⟨account, found⟩ := Option.isSome_iff_exists.mp (known publication member)
  have mine : account.id = publication.accountId := by simpa using find?_some found
  have numbered := sound.kept account (mem_of_find?_eq_some found)
  rw [mine] at numbered
  have size : before.length + during.length + later.length = account.changelogSeq := by
    rw [← numbered.length, split, length_append, length_append]
  have taken : ((ownLog final.db.changelog publication.accountId).drop publication.since).take
      (publication.head - publication.since) = during := by
    have count_ : publication.head - publication.since = during.length := by omega
    rw [split, ← length, append_assoc, drop_left, length, count_, take_left]
  have long : publication.changes.length = during.length := by rw [← changes, length_map]
  refine ⟨by omega, ?_⟩
  rw [replayTo_numbered numbered (by omega), taken, changes, long]

/-- A delivery that creates its mailbox, a change of flags, a rename and an expunge. -/
def variedLabels : List Label :=
  [.request 7 plainEnv (.deliver "Inbox" {} ⟨3, some ("body", 3)⟩),
    .request 7 plainEnv (.patchMessage "E1" ["$seen", "urgent"] []),
    .request 7 plainEnv (.rename "Inbox" "Old"),
    .request 7 plainEnv (.deleteMessage "E1")]

theorem varied_published_is_replayed : ∃ final,
    run Publishing.step ⟨oneAccount, []⟩ variedLabels = some final ∧
      final.published.map (fun p => (p.since, p.head)) = [(0, 3), (3, 4), (4, 5), (5, 6)] ∧
      ∀ publication ∈ final.published,
        replayTo (final.db.changelog.map LogRow.stored) publication.accountId publication.since
            publication.head =
          some (List.range' (publication.since + 1) publication.changes.length,
            publication.changes) := by
  have ended : (run Publishing.step ⟨oneAccount, []⟩ variedLabels).map
      (fun s : Publishing => s.published.map (fun p => (p.since, p.head))) =
        some [(0, 3), (3, 4), (4, 5), (5, 6)] := by
    decide +kernel
  obtain ⟨final, reached, ranges⟩ := Option.map_eq_some_iff.mp ended
  exact ⟨final, reached, ranges, fun publication member =>
    ((published_is_replayed oneAccount final variedLabels oneAccount_initial reached).2.2
      publication member).2⟩

/-! ### The messages as the fold of the log -/

/-- What the log says of a message. -/
structure Told where
  (id mailboxId uid emailId modSeq : Nat)
  flags : Flags
  keywords : Option (List String)

def told (m : Message) : Option Told :=
  if m.expunged then none else some ⟨m.id, m.mailboxId, m.uid % 2 ^ 32, m.effectiveEmailId,
    m.modSeq, m.flags, m.keywords⟩

/-- An entry replayed over what the entries before it gave. -/
def replay (rows : List Told) (entry : LogRow) : List Told :=
  match entry.change with
  | .addUid mailboxId uid id emailId _ modSeq flags keywords =>
      rows ++ [⟨id, mailboxId, uid, emailId, modSeq, flags, keywords⟩]
  | .flags _ _ id _ modSeq _ flags keywords =>
      rows.map (fun row => if row.id = id then { row with modSeq, flags, keywords } else row)
  | .removeUids _ _ _ ids _ => rows.filter (fun row => row.id ∉ ids)
  | _ => rows

def rowsOf (messages : List Message) (accountId : Nat) : List Message :=
  messages.filter (fun m => m.accountId == accountId)

def Folded (messages : List Message) (log : List LogRow) : Prop :=
  ∀ accountId, (rowsOf messages accountId).filterMap told = (ownLog log accountId).foldl replay []

theorem Folded.logged {change : Change} (folded : Folded pt.db.messages (pending pt))
    (after : List Message) (changelog : db.changelog = pt.db.changelog)
    (messages : db.messages = after) (own : (rowsOf after pt.accountId).filterMap told = replay
      ((rowsOf pt.db.messages pt.accountId).filterMap told) ⟨pt.accountId, pt.seq + 1, change⟩)
    (others : ∀ other ≠ pt.accountId, rowsOf after other = rowsOf pt.db.messages other) :
    Folded db.messages (pending ((pt.withDb db).logged change)) := by
  intro accountId
  rw [pending_logged change changelog, ownLog_append, foldl_append,
    ← folded, messages]
  by_cases mine : accountId = pt.accountId
  · simpa [ownLog, mine] using own
  · simp [ownLog, Ne.symm mine, others _ mine]

theorem effect_folded {final : Tx} (wf : pt.db.Wf) (folded : Folded pt.db.messages (pending pt))
    (effect : Effect rules pt created final) : Folded final.db.messages (pending final) := by
  cases effect with
  | mailboxes _ _ change _ quiet =>
    refine folded.logged _ rfl rfl ?_ fun _ _ => rfl
    cases change <;> first | rfl | cases quiet
  | createMailbox | deleteMailbox => exact folded.logged _ rfl rfl rfl fun _ _ => rfl
  | addMessage _ row _ _ _ _ mine mailboxId _ _ modSeq live =>
    refine folded.logged (pt.db.messages ++ [row])
      (by rw [Tx.added, Database.bumpedQuota_tables]; rfl) (Database.bumpedQuota_messages ..) ?_
      fun _ apart => ?_
    · simp [replay, rowsOf, told, mine, mailboxId, modSeq, live]
    · simp [rowsOf, mine, apart.symm]
  | update x _ _ stored same =>
    refine folded.logged _ rfl rfl ?_ fun _ apart =>
      Table.filter_update _ _ _ fun m _ picked => ?_
    · simp only [replay, rowsOf, filterMap_filter, map_filterMap]
      refine (filterMap_map ..).trans (filterMap_congr fun m member => ?_)
      by_cases named : m.id = x.id
      · obtain rfl := Table.eq_of_key wf.messageIds member stored.mem (named.trans same.id.symm)
        simp [told, named, stored.mine, stored.live, Message.effectiveEmailId]
      · grind [told]
    · grind
  | remove _ msgs _ _ known =>
    refine folded.logged _ (by rw [Tx.removed, Database.bumpedQuota_tables]; rfl)
      (Database.bumpedQuota_messages ..) ?_ fun _ apart =>
      Table.filter_update _ _ _ fun m member picked => ?_
    · simp only [replay, rowsOf, filter_filterMap, filterMap_filter]
      generalize msgs.map Message.id = ids
      refine (filterMap_map ..).trans (filterMap_congr fun m _ => ?_)
      by_cases named : m.id ∈ ids <;> grind [told, Option.filter]
    · obtain ⟨value, passed, named⟩ := mem_map.mp (contains_iff_mem.mp picked)
      obtain ⟨row, live, same, _⟩ := known value passed
      obtain rfl := Table.eq_of_key wf.messageIds member live.mem (named.symm.trans same.id.symm)
      simp [live.mine, apart.symm]

/-- The live messages of an account are the fold of its log, whatever was collected. -/
theorem messages_folded (db final : Database) (labels : List Label) (initial : Initial db)
    (reached : run step db labels = some final) :
    Folded final.messages final.changelog := by
  refine (always (fun db => db.Wf ∧ Folded db.messages db.changelog)
    (fun {db label next} holds moved => ?_)
    ⟨initial.wf, fun _ => by rw [initial.messages, initial.changelog]; rfl⟩ reached).2
  refine ⟨step_wf holds.1 moved, ?_⟩
  cases label with
  | request =>
    rcases step_request holds.1 moved with rfl | changed
    · exact holds.2
    · obtain ⟨account, pt, created, _, _, steps, rfl⟩ := changed
      exact (steps.invariant (fun pt => pt.db.Wf ∧ Folded pt.db.messages (pending pt))
        (fun _ _ _ held effect => ⟨effect.wf held.1, effect_folded held.1 held.2 effect⟩)
        ⟨holds.1, by simpa [pending, begin_] using holds.2⟩).2
  | collect =>
    cases moved
    -- Only expunged rows are collected, of which the log has nothing left to say.
    refine fun accountId => Eq.trans ?_ (holds.2 accountId)
    simp only [rowsOf, collected, filterMap_filter]
    refine filterMap_congr fun m _ => ?_
    cases gone : m.expunged <;> simp [told, gone]

theorem varied_messages_folded : ∃ final, run step oneAccount variedLabels = some final ∧
    final.changelog.length = 6 ∧ Folded final.messages final.changelog := by
  have ended : (run step oneAccount variedLabels).map
      (fun db => db.changelog.length) = some 6 := by decide +kernel
  obtain ⟨final, reached, length⟩ := Option.map_eq_some_iff.mp ended
  exact ⟨final, reached, length, messages_folded _ final _ oneAccount_initial reached⟩

end OctoMail.Account
