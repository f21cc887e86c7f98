import OctoMail.Imap.Commands
import OctoMail.Store.Running

/-!
# The IMAP transactions are mutator calls

Each transaction body of an IMAP command, and mail delivery, is a sequence of effects:
the rows it passes to a mutator are the live rows it read, and the mailboxes it adds to
are open. The number of mailboxes a body may create is bounded by its request.

One body does not keep the rules by itself: DELETE may delete a mailbox that holds
messages, so that it is empty is a hypothesis there.
-/

namespace OctoMail.Account

open List Store Store.Tx Program

/-- Nothing is known but that mutator calls led here, creating at most so many mailboxes. -/
abbrev Blank (rules : Rules) (start : Tx) (limit : Nat) : Tx → Prop :=
  Running rules start limit [] [] (fun _ => False)

section

variable {rules : Rules} {start : Tx} {limit : Nat} {boxes : List Nat}
variable {rows : List Message} {exact_ : Message → Prop}

/-- Forget some of the rows known. -/
theorem keep {less : List Message} (fewer : ∀ m ∈ less, m ∈ rows) (pt : Tx)
    (running : Running rules start limit boxes rows exact_ pt) :
    Running rules start limit boxes less exact_ pt :=
  running.weaken (Nat.le_refl _) (fun _ here => here) (fun m here => ⟨fewer m here, id⟩)

/-- Forget everything. -/
theorem blank (pt : Tx) (running : Running rules start limit boxes rows exact_ pt) :
    Blank rules start limit pt :=
  running.weaken (Nat.le_refl _) (fun _ none => absurd none not_mem_nil)
    (fun _ none => absurd none not_mem_nil)

variable {msgs : List Message}

/-- After a query, the rows it returned are known. -/
theorem afterRead {α : Type} {program : Txn α} {after : α → Tx → Prop}
    (still : Message → Prop) (proved : (msgs.map Message.id).Nodup →
      Triple (Running rules start limit boxes msgs still) program after) :
    Triple (fun pt => Running rules start limit boxes rows exact_ pt ∧ Rows pt msgs) program
      after :=
  fun state result final held ran =>
    proved held.2.1 state result final (held.1.read held.2) ran

/-! ### Flags by name leave the row -/

theorem foldl_sameRow {β : Type} {f : Message → β → Message}
    (keeps : ∀ (m : Message) (entry : β), m.SameRow (f m entry)) (entries : List β) (m : Message) :
    m.SameRow (entries.foldl f m) := by
  induction entries generalizing m with
  | nil => exact .refl m
  | cons entry rest ih =>
    exact (keeps m entry).trans (ih (f m entry))

theorem imapSetFlag_sameRow (equalFold : String → String → Bool) (m : Message) (name : String)
    (value : Bool) : m.SameRow (Imap.setFlag equalFold m name value) := by
  unfold Imap.setFlag
  split
  · exact ⟨rfl, rfl, rfl, rfl, rfl⟩
  · split
    · split <;> exact ⟨rfl, rfl, rfl, rfl, rfl⟩
    · exact ⟨rfl, rfl, rfl, rfl, rfl⟩

theorem applyFlags_sameRow (equalFold : String → String → Bool) (m : Message) (op : Imap.StoreOp)
    (flags : List String) : m.SameRow (Imap.applyFlags equalFold m op flags) := by
  have set : ∀ (value : Bool) (from_ : Message),
      from_.SameRow (flags.foldl (fun m name => Imap.setFlag equalFold m name value) from_) :=
    fun value from_ => foldl_sameRow (fun m name => imapSetFlag_sameRow equalFold m name value) _ _
  cases op with
  | replace =>
    have cleared : m.SameRow { m with flags := {}, keywords := none } := ⟨rfl, rfl, rfl, rfl, rfl⟩
    exact cleared.trans (set true _)
  | add => exact set true m
  | remove => exact set false m
  | other => exact .refl m

/-! ### Loops over rows -/

/-- Update each of the rows read, passing over some. -/
theorem updates_running (wf : start.db.Wf) {body : Message → Txn Unit} (f : Message → Message)
    (does : ∀ m, body m = pure () ∨ body m = update (f m))
    (keeps : ∀ m : Message, m.SameRow (f m)) (msgs : List Message) :
    Triple (Running rules start limit boxes msgs exact_) (msgs.forM body)
      (fun _ => Blank rules start limit) := by
  have loop : Triple (Running rules start limit boxes msgs (fun _ => False)) (msgs.forM body)
      (fun _ => Running rules start limit boxes [] (fun _ => False)) := by
    refine Triple.forM (fun rest => Running rules start limit boxes rest (fun _ => False))
      (fun m rest => ?_) msgs
    rcases does m with passed | updated
    · rw [passed]
      exact Triple.pure _ fun pt running => running.weaken (Nat.le_refl _) (fun _ here => here)
        (fun _ here => ⟨mem_cons_of_mem _ here, id⟩)
    · rw [updated]
      exact (update_running wf mem_cons_self (keeps m)).consequence
        (fun _ running => running) (fun _ pt running => running.weaken (Nat.le_refl _)
          (fun _ here => here) (fun _ here => ⟨mem_cons_of_mem _ here, False.elim⟩))
  exact loop.consequence
    (fun pt running => running.weaken (Nat.le_refl _) (fun _ here => here)
      (fun _ here => ⟨here, False.elim⟩))
    (fun _ => blank)

/-- Expunge the first of the rows known. -/
theorem removeOne_running {mb : Mailbox} {m : Message} (rest : List Message)
    (there : m.mailboxId = mb.id) (apart : ∀ other ∈ rest, other.id ≠ m.id)
    (fresh : rules.fresh → exact_ m) :
    Triple (Running rules start limit boxes (m :: rest) exact_) (messageRemove mb [m])
      (fun _ => Running rules start limit boxes rest exact_) := by
  refine messageRemove_running mb rest (nodup_singleton _) ?_ ?_ ?_
  · intro other here
    rw [mem_singleton.mp here]
    exact there
  · intro other here
    rw [mem_singleton.mp here]
    exact ⟨mem_cons_self, fresh⟩
  · intro other here
    exact ⟨mem_cons_of_mem _ here, by simpa using apart other here⟩

/-- Expunge one row after the other: each call finds the rows still to come as they were. -/
theorem removes_running {β : Type} (body : β → Txn Unit) {row : β → Message} {entries : List β}
    (distinct : (entries.map (fun entry => (row entry).id)).Nodup)
    (does : ∀ entry ∈ entries, ∀ rest : List Message, (∀ m ∈ rest, m.id ≠ (row entry).id) →
      Triple (Running rules start limit boxes (row entry :: rest) exact_) (body entry)
        (fun _ => Running rules start limit boxes rest exact_)) :
    Triple (Running rules start limit boxes (entries.map row) exact_) (entries.forM body)
      (fun _ => Running rules start limit boxes [] exact_) := by
  induction entries with
  | nil => exact Triple.pure _ (fun _ running => running)
  | cons entry rest ih =>
    obtain ⟨apart, distinct⟩ := nodup_cons.mp distinct
    refine Triple.bind (does entry mem_cons_self (rest.map row) ?_) fun _ =>
      ih distinct fun other later => does other (mem_cons_of_mem _ later)
    intro m member same
    obtain ⟨other, later, rfl⟩ := mem_map.mp member
    exact apart (mem_map.mpr ⟨other, later, same⟩)

theorem removesEach_running (body : Message → Txn Unit) (distinct : (msgs.map Message.id).Nodup)
    (does : ∀ (m : Message) (rest : List Message), (∀ other ∈ rest, other.id ≠ m.id) →
      Triple (Running rules start limit boxes (m :: rest) exact_) (body m)
        (fun _ => Running rules start limit boxes rest exact_)) :
    Triple (Running rules start limit boxes msgs exact_) (msgs.forM body)
      (fun _ => Running rules start limit boxes [] exact_) := by
  have loop : Triple (Running rules start limit boxes (msgs.map id) exact_) (msgs.forM body) _ :=
    removes_running body distinct fun m _ => does m
  rwa [map_id] at loop

/-! ### IMAP -/

theorem cmdCreate_running (name : String) (su : SpecialUse) :
    Triple (Blank rules start limit) (Imap.cmdCreate name su)
      (fun _ => Blank rules start (limit + 1)) := by
  refine Triple.bind (mailboxCreate_running name su) fun made => ?_
  cases made with
  | none => exact Triple.throw _
  | some mb => exact Triple.pure _ blank

/-- The mailbox holds no live message of the account. -/
def holdsNone (start : Tx) (mailboxId : Int) : Bool :=
  start.db.messages.all (fun m =>
    m.expunged || m.accountId != start.accountId || decide ((m.mailboxId : Int) ≠ mailboxId))

theorem holdsNone_iff (start : Tx) (mailboxId : Int) :
    holdsNone start mailboxId = true ↔
      ∀ m, start.Stored m → (m.mailboxId : Int) ≠ mailboxId := by
  simp only [holdsNone, all_eq_true, Bool.or_eq_true, bne_iff_ne, decide_eq_true_eq]
  constructor
  · intro all m stored
    rcases all m stored.mem with (gone | other) | apart
    · exact absurd gone (by simp [stored.live])
    · exact absurd stored.mine other
    · exact apart
  · intro none m member
    by_cases live : m.expunged = true
    · exact .inl (.inl live)
    · by_cases mine : m.accountId = start.accountId
      · exact .inr (none m ⟨member, by simpa using live, mine⟩)
      · exact .inl (.inr mine)

/-- The mailbox that DELETE would find under a name holds no live message. -/
def namedHoldsNone (start : Tx) (name : String) : Bool :=
  start.db.mailboxes.all (fun mb =>
    !(mb.accountId == start.accountId && mb.name == name && !mb.expunged) ||
      holdsNone start mb.id)

/-- A deleted mailbox is empty where the live mailbox of its name is. -/
theorem cmdDelete_running (name : String) (empty : rules.empty → namedHoldsNone start name = true) :
    Triple (fun pt => pt = start) (Imap.cmdDelete name) (fun _ => Blank rules start 0) := by
  refine Triple.bind (mailboxFind_reads name) fun found =>
    Triple.bind (Triple.required found _) fun mb => ?_
  refine Triple.bind ?_ fun children => Triple.refuse children _ fun _ held _ => held
  rintro pt children final ⟨rfl, member, mine, named, live⟩ ran
  have emptied : rules.empty → ∀ m, pt.Stored m → m.mailboxId ≠ mb.id := by
    intro ruled m stored same
    have none : holdsNone pt mb.id = true := by
      simpa [mine, named, live] using all_eq_true.mp (empty ruled) mb member
    exact (holdsNone_iff pt mb.id).mp none m stored (by omega)
  obtain ⟨effect, _, messages⟩ := mailboxDelete_ran rules emptied ran
  exact Running.atStart.mailboxEffect effect messages

theorem cmdRename_running (src dst : String) :
    Triple (Blank rules start limit) (Imap.cmdRename src dst)
      (fun _ => Blank rules start limit) := by
  refine Triple.bind (mailboxFind_reads src) fun found =>
    Triple.bind (Triple.required found _) fun mb => ?_
  refine Triple.bind ((mailboxRename_running mb dst).consequence (fun _ held => held.1)
    fun _ _ held => held) fun renamed => ?_
  refine Triple.refuse _ _ fun pt held succeeded => held ?_
  simpa using succeeded

theorem cmdSubscribe_running (name : String) (subscribe : Bool) :
    Triple (Blank rules start limit) (Imap.cmdSubscribe name subscribe)
      (fun _ => Blank rules start limit) := by
  refine Triple.bind (mailboxFind_reads name) fun found =>
    Triple.bind (Triple.required found _) fun mb => ?_
  have either : Triple (Blank rules start limit)
      (if subscribe then subscriptionEnsure name else subscriptionRemove name)
      (fun _ => Blank rules start limit) :=
    Triple.ite (fun _ => subscriptionEnsure_running name) (fun _ => subscriptionRemove_running name)
  exact either.consequence (fun _ held => held.1) (fun _ _ held => held)

theorem targetMailbox_running (name : String) :
    Triple (Running rules start limit boxes rows exact_) (Imap.targetMailbox name)
      (fun mb => Running rules start (limit + 1) (mb.id :: boxes) rows exact_) := by
  apply findOr_running name
  refine Triple.bind (mailboxCreate_running name {}) fun made => ?_
  refine Triple.require made _ fun mb pt running some => ?_
  subst some
  exact running

theorem cmdAppend_running (wf : start.db.Wf) (env : Env) (mailbox : String)
    (appends : List Imap.Pending) :
    Triple (Blank rules start limit) (Imap.cmdAppend env mailbox appends)
      (fun _ => Blank rules start (limit + 1)) := by
  refine Triple.bind (targetMailbox_running mailbox) fun mb => ?_
  refine (Triple.forM (fun _ => Running rules start (limit + 1) [mb.id] [] (fun _ => False))
    (fun a rest => ?_) appends).consequence (fun _ running => running) (fun _ => blank)
  refine Triple.bind ?_ fun _ => Triple.pure _ fun _ running => running
  exact messageAdd_running wf env _ _ 0 mem_cons_self (absurd rfl)

/-- The selected messages are rows of the mailbox, in its order. -/
theorem chosen_sublist (set : String) (byUID : Bool) (msgs : List Message) :
    (Imap.chosen set byUID msgs).Sublist msgs := by
  have all : msgs.zipIdx.map Prod.fst = msgs := by simp
  have picked : (Imap.chosen set byUID msgs).Sublist (msgs.zipIdx.map Prod.fst) :=
    filter_sublist.map Prod.fst
  rwa [all] at picked

theorem cmdReplace_running (wf : start.db.Wf) (env : Env) (selected : Mailbox) (set : String)
    (byUID : Bool) (mailbox : String) (flags : List String) (data : Body) :
    Triple (Blank rules start limit) (Imap.cmdReplace env selected set byUID mailbox flags data)
      (fun _ => Blank rules start (limit + 1)) := by
  refine Triple.bind (mailboxMessages_reads (fun _ running => running.wf wf) selected.id)
    fun msgs => Triple.given fun there => afterRead (fun _ => True) fun distinct => ?_
  refine Triple.bind (Triple.require _ _ fun src pt running first =>
    (⟨running, mem_of_head? first⟩ : _ ∧ src ∈ Imap.chosen set byUID msgs)) fun src =>
    Triple.given fun picked => ?_
  have member : src ∈ msgs := (chosen_sublist set byUID msgs).subset picked
  refine Triple.bind (targetMailbox_running mailbox) fun mb => ?_
  refine Triple.bind (messageAdd_running wf env _ _ 0 mem_cons_self (absurd rfl))
    fun _ => ?_
  exact (removeOne_running [] (there src member)
    (fun _ none => absurd none not_mem_nil) (fun _ => trivial)).consequence
    (keep (fun m here => mem_singleton.mp here ▸ member)) (fun _ => blank)

/-- Expunge some of the rows read from one mailbox. -/
theorem removeSome_running (mb : Mailbox) {picked : List Message}
    (distinct : (msgs.map Message.id).Nodup) (there : ∀ m ∈ msgs, m.mailboxId = mb.id)
    (some : picked.Sublist msgs) :
    Triple (Running rules start limit boxes msgs (fun _ => True)) (messageRemove mb picked)
      (fun _ => Blank rules start limit) := by
  refine (messageRemove_running mb [] ?_ ?_ ?_ ?_).consequence
    (fun _ running => running) (fun _ => blank)
  · exact (some.map Message.id).nodup distinct
  · exact fun m member => there m (some.subset member)
  · exact fun m member => ⟨some.subset member, fun _ => trivial⟩
  · exact fun m none => absurd none not_mem_nil

theorem cmdExpunge_running (wf : start.db.Wf) (selected : Mailbox) (uidSet : Option String) :
    Triple (Blank rules start limit) (Imap.cmdExpunge selected uidSet)
      (fun _ => Blank rules start limit) := by
  refine Triple.bind (mailboxMessages_reads (fun _ running => running.wf wf) selected.id)
    fun msgs => Triple.given fun there => afterRead (fun _ => True) fun distinct => ?_
  exact Triple.ite (fun _ => Triple.pure _ blank)
    (fun _ => removeSome_running selected distinct there filter_sublist)

theorem cmdClose_running (wf : start.db.Wf) (selected : Mailbox) :
    Triple (Blank rules start limit) (Imap.cmdClose selected)
      (fun _ => Blank rules start limit) := by
  refine Triple.bind (mailboxMessages_reads (fun _ running => running.wf wf) selected.id)
    fun msgs => Triple.given fun there => afterRead (fun _ => True) fun distinct => ?_
  exact Triple.ite (fun _ => Triple.pure _ blank)
    (fun _ => removeSome_running selected distinct there filter_sublist)

theorem cmdCopyMove_running (wf : start.db.Wf) (env : Env) (selected : Mailbox) (set : String)
    (byUID move : Bool) (dst : String) :
    Triple (Blank rules start limit) (Imap.cmdCopyMove env selected set byUID move dst)
      (fun _ => Blank rules start (limit + 1)) := by
  refine Triple.bind (mailboxMessages_reads (fun _ running => running.wf wf) selected.id)
    fun msgs => Triple.given fun there => afterRead (fun _ => True) fun distinct => ?_
  refine Triple.bind (targetMailbox_running dst) fun mb => ?_
  refine Triple.bind (Triple.forM
    (fun _ => Running rules start (limit + 1) [mb.id] msgs (fun _ => True)) (fun m rest => ?_) _)
    fun _ => ?_
  · refine Triple.bind ?_ fun _ => Triple.pure _ fun _ running => running
    exact messageAdd_running wf env _ _ 0 mem_cons_self (absurd rfl)
  · exact Triple.ite
      (fun _ => removeSome_running selected distinct there (chosen_sublist set byUID msgs))
      (fun _ => Triple.pure _ blank)

theorem cmdStore_running (wf : start.db.Wf) (env : Env) (selected : Mailbox) (set : String)
    (byUID : Bool) (unchangedSince : Option Nat) (op : Imap.StoreOp) (flags : List String) :
    Triple (Blank rules start limit)
      (Imap.cmdStore env selected set byUID unchangedSince op flags)
      (fun _ => Blank rules start limit) := by
  refine Triple.bind (mailboxMessages_reads (fun _ running => running.wf wf) selected.id)
    fun msgs => Triple.given fun _ => afterRead (fun _ => True) fun _ => ?_
  refine (updates_running wf (fun m => Imap.applyFlags env.equalFold m op flags) (fun m => ?_)
    (fun m => applyFlags_sameRow env.equalFold m op flags) (Imap.chosen set byUID msgs)).consequence
    (keep (chosen_sublist set byUID msgs).subset) (fun _ _ running => running)
  split
  · exact .inl rfl
  · exact .inr rfl

/-! ### Mail delivery -/

theorem deliverMailbox_running (wf : start.db.Wf) (env : Env) (mailbox : String) (m : Message)
    (body : Body) :
    Triple (Blank rules start limit) (deliverMailbox env mailbox m body)
      (fun _ => Blank rules start (limit + 1)) := by
  refine Triple.bind (mailboxFind_reads mailbox) fun found => ?_
  have added : ∀ mb : Mailbox, Triple (Running rules start (limit + 1) [mb.id] [] (fun _ => False))
      (messageAdd env mb m body 0) (fun _ => Blank rules start (limit + 1)) := fun mb =>
    (messageAdd_running wf env m body 0 mem_cons_self (absurd rfl)).consequence
      (fun _ running => running) (fun _ => blank)
  cases found with
  | some mb =>
    refine Triple.bind (Triple.pure mb fun pt held => ?_) added
    obtain ⟨member, _, _, live⟩ := held.2 mb rfl
    exact (held.1.found ⟨mb, member, rfl, live⟩).raise
  | none =>
    exact Triple.bind ((mailboxEnsure_running mailbox true {}).consequence
      (fun _ held => held.1) (fun _ _ running => running)) added

end

end OctoMail.Account
