import OctoMail.Account.Log
import OctoMail.Imap.Reading

/-!
# Flag changes

STORE and Email/set write the flags and keywords of rows they have read, one `Update` for each,
and change nothing else of a row but its position. The rows are read once and none of them twice,
so an update leaves the rows still to come as they were read.
-/

namespace OctoMail.Account

open Store Store.Tx Program

/-! ### Rows without their positions -/

/-- A row without the position of its last change. -/
def bare (m : Message) : Message := { m with modSeq := 0 }

def bareRows (pt : Tx) : List Message := pt.db.messages.map bare

/-- The row differs from another in its flags and keywords alone. -/
def Repainted (m x : Message) : Prop := x = { m with flags := x.flags, keywords := x.keywords }

theorem Repainted.refl (m : Message) : Repainted m m := rfl

theorem Repainted.trans {first second third : Message} (one : Repainted first second)
    (two : Repainted second third) : Repainted first third := by
  rw [Repainted] at *
  rw [two, one]

theorem foldl_repainted {β : Type} {f : Message → β → Message}
    (keeps : ∀ (m : Message) (entry : β), Repainted m (f m entry)) (entries : List β)
    (m : Message) :
    Repainted m (entries.foldl f m) := by
  induction entries generalizing m with
  | nil => exact .refl m
  | cons entry rest ih =>
    exact (keeps m entry).trans (ih (f m entry))

/-- The function changes nothing of a row but its flags and keywords. -/
def Repaints (f : Message → Message) : Prop := ∀ m, Repainted m (f m)

theorem Repaints.id {f : Message → Message} (repaints : Repaints f) (m : Message) :
    (f m).id = m.id := by
  rw [show f m = _ from repaints m]

/-! ### One update -/

/-- An update writes its row. -/
theorem update_bare {x : Message} {pt final : Tx} {done : Unit}
    (ran : update x pt = .ok (done, final)) :
    x.keywords.isSome = true ∧ final.accountId = pt.accountId ∧
      bareRows final = Table.update (fun row => row.id == x.id && row.accountId == pt.accountId)
        (fun row => { row with flags := x.flags, keywords := x.keywords }) (bareRows pt) := by
  obtain ⟨old, keywords, given_, _, rfl⟩ := update_ok ran
  refine ⟨by rw [given_]; rfl, rfl, ?_⟩
  rw [given_]
  exact Table.map_update_eq bare (fun _ => rfl) (fun _ => rfl)

/-! ### The loop -/

/-- The rows are there, none of them twice. -/
structure There (pt : Tx) (rows : List Message) : Prop where
  distinct : (rows.map Message.id).Nodup
  stored : ∀ m ∈ rows, bare m ∈ bareRows pt ∧ m.accountId = pt.accountId

theorem There.of_rows {pt : Tx} {rows : List Message} (read : Rows pt rows) : There pt rows :=
  ⟨read.1, fun m member => ⟨List.mem_map_of_mem (read.2 m member).mem, (read.2 m member).mine⟩⟩

/-- The rows still to come are untouched by the update of the first. -/
theorem There.tail {pt final : Tx} {m : Message} {rest : List Message} {x : Message}
    (there : There pt (m :: rest)) (same : x.id = m.id) (ran : update x pt = .ok ((), final)) :
    There final rest := by
  obtain ⟨_, account, rows⟩ := update_bare ran
  obtain ⟨apart, distinct⟩ := List.nodup_cons.mp there.distinct
  refine ⟨distinct, fun other member => ?_⟩
  obtain ⟨stored, mine⟩ := there.stored other (List.mem_cons_of_mem _ member)
  refine ⟨?_, mine.trans account.symm⟩
  have passed : ((bare other).id == x.id && (bare other).accountId == pt.accountId) = false := by
    have other_ : (bare other).id ≠ x.id := fun equal =>
      apart (List.mem_map.mpr ⟨other, member, equal.trans same⟩)
    simp [other_]
  rw [rows]
  exact Table.mem_update_of_mem stored passed

/-- A loop that passes over some elements is the loop over the others. -/
theorem forM_skipping (skipped : Message → Bool) (body : Message → Txn Unit) (rows : List Message) :
    rows.forM (fun m => if skipped m then pure () else body m) =
      (rows.filter (fun m => !skipped m)).forM body := by
  induction rows with
  | nil => rfl
  | cons m rest ih =>
    have first : (m :: rest).forM (fun m => if skipped m then pure () else body m) =
        ((if skipped m then pure () else body m : Txn Unit) >>= fun _ =>
          rest.forM (fun m => if skipped m then pure () else body m)) := rfl
    rw [first, ih, List.filter_cons]
    cases skipped m with
    | true | false => rfl

/-! ### The rows an Email id names -/

/-- `MessagesByEmailID` on a snapshot. -/
def rowsOfEmail (db : Database) (accountId : Nat) (emailId : Int) : List Message :=
  (db.messages.filter (fun m => m.accountId == accountId && !m.expunged &&
    (decide ((m.id : Int) = emailId) ||
      (m.emailId != 0 && decide ((m.emailId : Int) = emailId))))).insertionSort
        (fun first second => first.mailboxId ≤ second.mailboxId)

/-- The rows an id string names; none where it is no Email id. -/
def resolved (db : Database) (accountId : Nat) (id : String) : List Message :=
  (Jmap.parseEmailGroupID id).elim [] (rowsOfEmail db accountId)

/-- The rows named are live rows of the account, each once. -/
theorem resolved_rows (pt : Tx) (wf : pt.db.Wf) (id : String) :
    Rows pt (resolved pt.db pt.accountId id) := by
  unfold resolved
  cases Jmap.parseEmailGroupID id with
  | none => exact ⟨List.nodup_nil, fun _ none => absurd none List.not_mem_nil⟩
  | some gid =>
    refine rows_of_query wf fun m member picked => ?_
    simp only [Bool.and_eq_true, Bool.not_eq_true', beq_iff_eq] at picked
    exact ⟨member, picked.1.2, picked.1.1⟩

/-! ### Requests that change flags -/

/-- A request that changes flags: STORE or UID STORE on the selected mailbox, or the patch of
one Email in an Email/set. -/
inductive FlagChange where
  | store (selected : Mailbox) (set : String) (byUID : Bool) (unchangedSince : Option Nat)
      (op : Imap.StoreOp) (flags : List String)
  | emailPatch (id : String) (patch : Jmap.Patch)

namespace FlagChange

/-- The rows whose flags the request changes. -/
def rows (db : Database) (accountId : Nat) : FlagChange → List Message
  | store selected set byUID unchangedSince _ _ =>
      (Imap.chosen set byUID (Imap.listing db accountId selected.id)).filter (fun m =>
        !(unchangedSince.elim false (fun n => n < m.modSeq)))
  | emailPatch id _ => resolved db accountId id

/-- The row as the flag functions compute it. -/
def computed (env : Env) : FlagChange → Message → Message
  | store _ _ _ _ op flags, m => Imap.applyFlags env.equalFold m op flags
  | emailPatch _ patch, m => Jmap.patched env patch m

/-! ### What is computed -/

theorem applyFlags_repainted (equalFold : String → String → Bool) (m : Message) (op : Imap.StoreOp)
    (flags : List String) : Repainted m (Imap.applyFlags equalFold m op flags) := by
  have one : ∀ (value : Bool) (m : Message) (name : String),
      Repainted m (Imap.setFlag equalFold m name value) := by
    intro value m name
    unfold Imap.setFlag
    repeat' split
    all_goals rfl
  have cleared : Repainted m { m with flags := {}, keywords := none } := rfl
  cases op with
  | replace => exact cleared.trans (foldl_repainted (one true) flags _)
  | add => exact foldl_repainted (one true) flags m
  | remove => exact foldl_repainted (one false) flags m
  | other => exact .refl m

theorem patched_repainted (env : Env) (patch : Jmap.Patch) (m : Message) :
    Repainted m (Jmap.patched env patch m) := by
  have one : ∀ (m : Message) (name : String) (value : Bool),
      Repainted m (Jmap.applyKeyword env m name value) := by
    intro m name value
    simp only [Jmap.applyKeyword]
    repeat' split
    all_goals rfl
  have single : ∀ (entries : Jmap.Patch) (m : Message),
      Repainted m (Jmap.applyKeywordPatch env m entries) := by
    intro entries m
    refine foldl_repainted (fun m entry => ?_) entries m
    split
    · exact one m _ _
    · exact .refl m
  have full : ∀ (keywords : List (String × Bool)) (m : Message),
      Repainted m (Jmap.applyJMAPKeywords m keywords) := by
    intro keywords m
    refine foldl_repainted (fun m entry => ?_) keywords m
    repeat' split
    all_goals rfl
  have cleared : Repainted m { m with flags := {}, keywords := none } := rfl
  refine Repainted.trans ?_ (single _ _)
  split
  · exact cleared.trans (full _ _)
  · exact .refl m

theorem computed_repaints (env : Env) (change : FlagChange) : Repaints (change.computed env) := by
  intro m
  cases change with
  | store _ _ _ _ op flags =>
    exact applyFlags_repainted env.equalFold m op flags
  | emailPatch _ patch => exact patched_repainted env patch m

/-! ### What is stored -/

theorem cmdStore_eq (env : Env) (selected : Mailbox) (set : String) (byUID : Bool)
    (unchangedSince : Option Nat) (op : Imap.StoreOp) (flags : List String) (pt : Tx) :
    Imap.cmdStore env selected set byUID unchangedSince op flags pt =
      ((store selected set byUID unchangedSince op flags).rows pt.db pt.accountId).forM
        (fun m => update ((store selected set byUID unchangedSince op flags).computed env m)) pt := by
  have read : Imap.cmdStore env selected set byUID unchangedSince op flags pt =
      (Imap.chosen set byUID (Imap.listing pt.db pt.accountId selected.id)).forM (fun m =>
        if unchangedSince.elim false (fun n => n < m.modSeq) then pure ()
        else update (Imap.applyFlags env.equalFold m op flags)) pt := rfl
  rw [read, forM_skipping]
  rfl

/-- The rows that a request changes are live rows of the account, each once. -/
theorem rows_read (change : FlagChange) (pt : Tx) (wf : pt.db.Wf) :
    Rows pt (change.rows pt.db pt.accountId) := by
  cases change with
  | emailPatch id => exact resolved_rows pt wf id
  | store selected set byUID unchangedSince op flags =>
    have listed : Rows pt (Imap.listing pt.db pt.accountId selected.id) := by
      refine rows_of_query wf fun m member picked => ?_
      simp only [Bool.and_eq_true, Bool.not_eq_true', beq_iff_eq] at picked
      exact ⟨member, picked.1.1, picked.1.2⟩
    have inside : ((store selected set byUID unchangedSince op flags).rows pt.db
        pt.accountId).Sublist (Imap.listing pt.db pt.accountId selected.id) :=
      List.filter_sublist.trans (chosen_sublist set byUID _)
    exact ⟨(inside.map Message.id).nodup listed.1, fun m member =>
      listed.2 m (inside.subset member)⟩

end FlagChange

/-- One message without keywords in a mailbox. -/
def oneMail : List Label :=
  [.request 7 plainEnv (.append "A" [⟨[], 0, ⟨10, some ("body", 10)⟩⟩])]

/-- The mailbox of that message, as a session holds it. -/
def mailboxA : Mailbox where
  id := 1
  accountId := 7
  name := "A"
  uidValidity := 1
  uidNext := 2
  createSeq := 1
  modSeq := 1

end OctoMail.Account
