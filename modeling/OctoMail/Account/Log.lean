import Mathlib.Data.List.Range
import OctoMail.Account.Requests

/-!
# The log of an account

Every mutator call appends exactly one entry, at the position after the last. So the
entries of an account are numbered from one without a gap, the account row holds the
number of the last, and persisting the entries of a transaction never meets a position
that is taken: a body that succeeds is committed.
-/

namespace OctoMail.Account

open List Store Store.Tx Program
open Transition (always run)

/-- The entries of one account. -/
def ownLog (log : List LogRow) (accountId : Nat) : List LogRow :=
  log.filter (fun entry => entry.accountId == accountId)

/-- The log as a transaction sees it. -/
def pending (pt : Tx) : List LogRow := pt.db.changelog ++ pt.entries

/-- The entries are numbered from one to the position. -/
def NumberedTo (log : List LogRow) (accountId position : Nat) : Prop :=
  (ownLog log accountId).map LogRow.seq = List.range' 1 position

theorem ownLog_append (first second : List LogRow) (accountId : Nat) :
    ownLog (first ++ second) accountId = ownLog first accountId ++ ownLog second accountId :=
  filter_append first second

variable {accountId position created : Nat} {log : List LogRow} {final pt start : Tx}
  {rules : Rules} {db : Database} {account : AccountRow}

theorem NumberedTo.length
    (numbered : NumberedTo log accountId position) : (ownLog log accountId).length = position := by
  have same := congrArg List.length numbered
  rwa [length_map, length_range'] at same

theorem NumberedTo.concat (numbered : NumberedTo log accountId position) (change : Change) :
    NumberedTo (log ++ [⟨accountId, position + 1, change⟩]) accountId (position + 1) := by
  have last : ownLog [⟨accountId, position + 1, change⟩] accountId =
      [⟨accountId, position + 1, change⟩] := by
    simp [ownLog]
  rw [NumberedTo, ownLog_append, map_append, numbered, last, List.range'_concat, map_cons,
    Nat.one_mul, Nat.add_comm 1 position]
  rfl

theorem NumberedTo.bound
    (numbered : NumberedTo log accountId position) (entry : LogRow) (member : entry ∈ log)
    (mine : entry.accountId = accountId) : 0 < entry.seq ∧ entry.seq ≤ position := by
  have inside : entry.seq ∈ (ownLog log accountId).map LogRow.seq :=
    mem_map_of_mem (mem_filter.mpr ⟨member, by simp [mine]⟩)
  rw [numbered, mem_range'] at inside
  omega

/-- A mutator call appends one entry at the next position. -/
theorem effect_logs (effect : Effect rules pt created final) :
    final.db.changelog = pt.db.changelog ∧ final.seq = pt.seq + 1 ∧
      ∃ change, final.entries = pt.entries ++ [⟨pt.accountId, pt.seq + 1, change⟩] := by
  cases effect with
  | addMessage | remove =>
    refine ⟨?_, rfl, _, rfl⟩
    show (Database.bumpedQuota _ _ _ _ _).changelog = _
    rw [Database.bumpedQuota_tables]
    rfl
  | mailboxes | createMailbox | deleteMailbox | update => exact ⟨rfl, rfl, _, rfl⟩

/-- The log that a mutator call leaves. -/
theorem pending_logged (change : Change) (changelog : db.changelog = pt.db.changelog) :
    pending ((pt.withDb db).logged change) =
      pending pt ++ [⟨pt.accountId, pt.seq + 1, change⟩] := by
  simp [pending, logged, withDb, changelog]

/-- What a transaction's log is at any point of its body. -/
structure Logged (start pt : Tx) : Prop where
  accountId : pt.accountId = start.accountId
  changelog : pt.db.changelog = start.db.changelog
  own : ∀ entry ∈ pt.entries, entry.accountId = pt.accountId
  numbered : NumberedTo (pending pt) pt.accountId pt.seq

theorem Logged.effect
    (logged : Logged start pt) (effect : Effect rules pt created final) : Logged start final := by
  obtain ⟨changelog, seq, change, entries⟩ := effect_logs effect
  have same := effect.accountId
  refine ⟨same.trans logged.accountId, changelog.trans logged.changelog, fun entry member => ?_, ?_⟩
  · rw [entries] at member
    rw [same]
    rcases mem_append.mp member with old | new
    · exact logged.own entry old
    · rw [mem_singleton.mp new]
  · rw [pending, changelog, entries, ← append_assoc, same, seq]
    exact logged.numbered.concat change

/-- Every account's entries are numbered up to its head. -/
def LogKept (db : Database) : Prop :=
  ∀ account ∈ db.accounts, NumberedTo db.changelog account.id account.changelogSeq

theorem Initial.logKept (initial : Initial db) : LogKept db := by
  intro account member
  rw [NumberedTo, initial.changelog, (initial.accounts account member).1]
  rfl

theorem LogKept.begin (kept : LogKept db) (found : db.account accountId = some account) :
    Logged (begin_ db account) (begin_ db account) := by
  refine ⟨rfl, rfl, fun entry member => absurd member not_mem_nil, ?_⟩
  show NumberedTo (db.changelog ++ []) account.id account.changelogSeq
  rw [append_nil]
  exact kept account (mem_of_find?_eq_some found)

theorem steps_logged
    (initially : Logged start start) (steps : Steps rules created start pt) : Logged start pt :=
  steps.invariant (fun pt => Logged start pt) (fun _ _ _ logged effect => logged.effect effect)
    initially

/-- The identity and the head of an account row. -/
def headOfRow (account : AccountRow) : Nat × Nat := (account.id, account.changelogSeq)

/-- No mutator call changes them. -/
theorem effect_heads (effect : Effect rules pt created final) :
    final.db.accounts.map headOfRow = pt.db.accounts.map headOfRow := by
  cases effect with
  | createMailbox => exact Table.map_update headOfRow fun _ => rfl
  | addMessage | remove =>
    show (Database.bumpedQuota _ _ _ _ _).accounts.map headOfRow = _
    rw [Database.bumpedQuota_tables]
    rfl
  | mailboxes | deleteMailbox | update => rfl

theorem steps_heads (steps : Steps rules created start pt) :
    pt.db.accounts.map headOfRow = start.db.accounts.map headOfRow :=
  steps.invariant (fun pt => pt.db.accounts.map headOfRow = start.db.accounts.map headOfRow)
    (fun _ _ _ holds effect => (effect_heads effect).trans holds) rfl

/-- Entries of one account do not number those of another. -/
theorem ownLog_entries_other
    (own : ∀ entry ∈ pt.entries, entry.accountId = pt.accountId)
    (apart : accountId ≠ pt.accountId) :
    ownLog (pending pt) accountId = ownLog pt.db.changelog accountId := by
  have none : ownLog pt.entries accountId = [] := by
    refine filter_eq_nil_iff.mpr fun entry member => ?_
    rw [own entry member]
    simpa using apart.symm
  rw [pending, ownLog_append, none, append_nil]

theorem logKept_flushed (kept : LogKept start.db) (initially : Logged start start)
    (steps : Steps rules created start pt) : LogKept (flushed pt) := by
  have logged := steps_logged initially steps
  intro account member
  obtain ⟨old, there, rfl⟩ := Table.mem_update.mp member
  show NumberedTo (pending pt) _ _
  split
  · rename_i picked
    have mine : old.id = pt.accountId := by simpa using picked
    show NumberedTo (pending pt) old.id pt.seq
    rw [mine]
    exact logged.numbered
  · rename_i passed
    have apart : old.id ≠ pt.accountId := by simpa using passed
    have listed : headOfRow old ∈ start.db.accounts.map headOfRow :=
      steps_heads steps ▸ mem_map_of_mem there
    obtain ⟨first, inside, same⟩ := mem_map.mp listed
    obtain ⟨id, seq⟩ := Prod.mk.inj same.symm
    rw [NumberedTo, ownLog_entries_other logged.own apart, logged.changelog, id, seq]
    exact kept first inside

theorem step_logKept {after : Database} {label : Label} (wf : db.Wf) (kept : LogKept db)
    (moved : step db label = some after) : LogKept after := by
  cases label with
  | request =>
    rcases step_request wf moved with rfl | changed
    · exact kept
    · obtain ⟨account, pt, created, found, _, steps, rfl⟩ := changed
      exact logKept_flushed kept (kept.begin found) steps
  | collect =>
    cases moved
    exact kept

/-! ### A body that succeeds is committed -/

/-- Appending entries at free positions succeeds. -/
theorem appendLog_runs (entries : List LogRow) (pt : Tx)
    (free : ((pt.db.changelog ++ entries).map (fun row => (row.accountId, row.seq))).Nodup) :
    entries.forM appendLog pt =
      .ok ((), pt.withDb { pt.db with changelog := pt.db.changelog ++ entries }) := by
  induction entries generalizing pt with
  | nil =>
    rw [append_nil]
    rfl
  | cons entry rest ih =>
    have apart : pt.db.changelog.any (fun row =>
        row.accountId == entry.accountId && row.seq == entry.seq) = false := by
      refine any_eq_false.mpr fun row member taken => ?_
      have same : row.accountId = entry.accountId ∧ row.seq = entry.seq := by simpa using taken
      rw [map_append, nodup_append] at free
      exact free.2.2 _ (mem_map_of_mem member) _ (mem_map_of_mem mem_cons_self)
        (Prod.ext same.1 same.2)
    have first : appendLog entry pt =
        .ok ((), pt.withDb { pt.db with changelog := pt.db.changelog ++ [entry] }) := by
      simp only [appendLog, bind_ok, get_ok, refuse_ok, modifyDb_ok]
      exact ⟨_, _, ⟨rfl, rfl⟩, (), _, ⟨apart, rfl⟩, rfl⟩
    have others := ih
      (pt.withDb { pt.db with changelog := pt.db.changelog ++ [entry] })
      (by simpa [withDb] using free)
    refine (bind_ok _ _ _ _ _).mpr ⟨(), _, first, ?_⟩
    rw [others]
    simp [withDb]

/-- Positions of one account are distinct, so its key holds. -/
theorem pending_keys (distinct : (db.changelog.map
      (fun row => (row.accountId, row.seq))).Nodup) (changelog : pt.db.changelog = db.changelog)
    (own : ∀ entry ∈ pt.entries, entry.accountId = pt.accountId)
    (numbered : NumberedTo (pending pt) pt.accountId pt.seq) :
    ((pending pt).map (fun row => (row.accountId, row.seq))).Nodup := by
  have seqs : ((ownLog (pending pt) pt.accountId).map LogRow.seq).Nodup := by
    rw [numbered]
    exact nodup_range'
  have mine : ownLog pt.entries pt.accountId = pt.entries :=
    filter_eq_self.mpr fun entry member => by simp [own entry member]
  rw [pending, ownLog_append, mine, map_append, nodup_append] at seqs
  rw [pending, map_append, nodup_append, changelog]
  refine ⟨distinct, ?_, fun first old second new same => ?_⟩
  · refine List.Nodup.of_map Prod.snd ?_
    rw [map_map]
    exact seqs.2.1
  · obtain ⟨row, there, rfl⟩ := mem_map.mp old
    obtain ⟨entry, here, rfl⟩ := mem_map.mp new
    obtain ⟨owner, seq⟩ := Prod.mk.inj same
    refine seqs.2.2 row.seq (mem_map_of_mem (mem_filter.mpr ⟨changelog ▸ there, ?_⟩))
      entry.seq (mem_map_of_mem here) seq
    simp [owner, own entry here]

/-- The key of the log table. -/
def LogKey (db : Database) : Prop :=
  (db.changelog.map (fun row => (row.accountId, row.seq))).Nodup

theorem Initial.logKey (initial : Initial db) : LogKey db := by
  rw [LogKey, initial.changelog]
  exact nodup_nil

theorem step_logKey {after : Database} {label : Label} (wf : db.Wf) (kept : LogKept db)
    (key : LogKey db) (moved : step db label = some after) : LogKey after := by
  cases label with
  | request =>
    rcases step_request wf moved with rfl | changed
    · exact key
    · obtain ⟨account, pt, created, found, _, steps, rfl⟩ := changed
      have logged := steps_logged (kept.begin found) steps
      exact pending_keys key logged.changelog logged.own logged.numbered
  | collect =>
    cases moved
    exact key

/-- What the tables always keep true of identities and of the log. -/
structure Sound (db : Database) : Prop where
  wf : db.Wf
  kept : LogKept db
  key : LogKey db

theorem Initial.sound (initial : Initial db) : Sound db :=
  ⟨initial.wf, initial.logKept, initial.logKey⟩

theorem step_sound (db after : Database) (label : Label) (sound : Sound db)
    (moved : step db label = some after) : Sound after :=
  ⟨step_wf sound.wf moved, step_logKept sound.wf sound.kept moved,
    step_logKey sound.wf sound.kept sound.key moved⟩

theorem run_sound (db final : Database) (labels : List Label) (sound : Sound db)
    (reached : run step db labels = some final) : Sound final :=
  always Sound (step_sound _ _ _) sound reached

/-- An account stays. -/
theorem step_account (db after : Database) (label : Label) (accountId : Nat) (wf : db.Wf)
    (there : (db.account accountId).isSome = true) (moved : step db label = some after) :
    (after.account accountId).isSome = true := by
  have kept : ∀ {later : Database}, later.accounts.map AccountRow.id =
      db.accounts.map AccountRow.id → (later.account accountId).isSome = true := by
    intro later same
    rw [Database.account, find?_isSome] at there ⊢
    obtain ⟨account, member, named⟩ := there
    have listed : account.id ∈ later.accounts.map AccountRow.id :=
      same.symm ▸ mem_map_of_mem member
    obtain ⟨found, inside, equal⟩ := mem_map.mp listed
    exact ⟨found, inside, by rw [equal]; exact named⟩
  cases label with
  | request =>
    rcases step_request wf moved with rfl | changed
    · exact there
    · obtain ⟨account, pt, created, found, _, steps, rfl⟩ := changed
      have heads := congrArg (List.map Prod.fst) (steps_heads steps)
      rw [map_map, map_map] at heads
      refine kept (Eq.trans ?_ heads)
      exact Table.map_update AccountRow.id fun _ => rfl
  | collect =>
    cases moved
    exact there

theorem run_account {final : Database} {labels : List Label} (sound : Sound db)
    (there : (db.account accountId).isSome = true)
    (reached : run step db labels = some final) :
    (final.account accountId).isSome = true :=
  (always (fun db => Sound db ∧ (db.account accountId).isSome = true)
    (fun holds moved => ⟨step_sound _ _ _ holds.1 moved,
      step_account _ _ _ accountId holds.1.wf holds.2 moved⟩) ⟨sound, there⟩ reached).2

/-- A body of mutator calls that succeeds is committed. -/
theorem transact_commits {α : Type} {body : Txn α} {result : α} (sound : Sound db)
    (found : db.account accountId = some account)
    (ran : body (begin_ db account) = .ok (result, pt))
    (steps : Steps rules created (begin_ db account) pt) :
    db.transact accountId body = .ok (result, flushed pt) := by
  have logged := steps_logged (sound.kept.begin found) steps
  have appended := appendLog_runs pt.entries pt
    (pending_keys sound.key logged.changelog logged.own logged.numbered)
  have completed : (do let result ← body; Tx.flush; return result : Txn α)
      ⟨db, account.id, account.tenantId, account.changelogSeq, []⟩ =
        .ok (result, pt.withDb (flushed pt)) := by
    simp only [flush, bind_ok, get_ok, pure_ok, modifyDb_ok]
    exact ⟨result, pt, ran, (), _, ⟨_, _, ⟨rfl, rfl⟩, (), _, appended, rfl⟩, rfl, rfl⟩
  simp only [Database.transact, found, completed]
  rfl

/-- A request whose body succeeds is committed. -/
theorem step_commits {env : Env} {request : Request} (sound : Sound db)
    (found : db.account accountId = some account)
    (ran : request.body env (begin_ db account) = .ok ((), pt)) :
    step db (.request accountId env request) = some (flushed pt) := by
  obtain ⟨created, _, steps⟩ :=
    (body_running env sound.wf request _ _ _ rfl ran).steps
  simp only [step, transact_commits sound found ran steps]

/-- How many entries the log has for an account. -/
def logHead (db : Database) (accountId : Nat) : Nat := (ownLog db.changelog accountId).length

theorem LogKept.head (kept : LogKept db) (found : db.account accountId = some account) :
    logHead db account.id = account.changelogSeq :=
  (kept account (mem_of_find?_eq_some found)).length

end OctoMail.Account
