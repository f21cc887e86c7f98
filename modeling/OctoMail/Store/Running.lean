import OctoMail.Store.Mutators

/-!
# What a transaction body knows while it runs

`Running` is what holds at a point of a transaction body: it got there from the start
by mutator calls, the mailboxes it found are still open, and the rows it read still
stand for live rows. There is one rule for each query and each mutator; the bodies of
the handlers are put together from these rules alone.
-/

namespace OctoMail.Store

open List Program Tx

/-- `exact_` tells for which rows the flags read are known to count as the stored ones. -/
structure Running (rules : Rules) (start : Tx) (limit : Nat) (boxes : List Nat)
    (rows : List Message) (exact_ : Message → Prop) (pt : Tx) : Prop where
  steps : ∃ created, created ≤ limit ∧ Steps rules created start pt
  opened : ∀ id ∈ boxes, pt.Open id
  known : ∀ m ∈ rows, pt.Known (exact_ m) m

namespace Tx

variable {pt final : Tx}

theorem Stored.mono {row : Message} (stored : pt.Stored row)
    (kept : row ∈ pt.db.messages → row ∈ final.db.messages)
    (mine : final.accountId = pt.accountId) : final.Stored row :=
  ⟨kept stored.mem, stored.live, stored.mine.trans mine.symm⟩

/-- A row read stays known while its stored row is not touched. -/
theorem Known.mono {exact_ : Prop} {m : Message} (known : pt.Known exact_ m)
    (kept : ∀ row, row.id = m.id → row ∈ pt.db.messages → row ∈ final.db.messages)
    (mine : final.accountId = pt.accountId) : final.Known exact_ m := by
  obtain ⟨row, stored, same, counted⟩ := known
  exact ⟨row, stored.mono (kept row same.id) mine, same, counted⟩

end Tx

section Rules

variable {rules : Rules} {start pt final : Tx} {limit : Nat} {boxes : List Nat}
variable {rows : List Message} {exact_ : Message → Prop}

/-- A transaction body starts knowing nothing. -/
theorem Running.atStart : Running rules start 0 [] [] exact_ start :=
  ⟨⟨0, Nat.le_refl 0, .refl start⟩, fun _ none => absurd none not_mem_nil,
    fun _ none => absurd none not_mem_nil⟩

theorem Running.weaken {more : Nat} {fewer : List Nat} {less : List Message}
    {weaker : Message → Prop} (running : Running rules start limit boxes rows exact_ pt)
    (limits : limit ≤ more) (opens : ∀ id ∈ fewer, id ∈ boxes)
    (knows : ∀ m ∈ less, m ∈ rows ∧ (weaker m → exact_ m)) :
    Running rules start more fewer less weaker pt := by
  obtain ⟨⟨created, bounded, steps⟩, opened, known⟩ := running
  exact ⟨⟨created, Nat.le_trans bounded limits, steps⟩, fun id member =>
    opened id (opens id member),
    fun m member => (known m (knows m member).1).weaken (knows m member).2⟩

theorem Running.wf (running : Running rules start limit boxes rows exact_ pt)
    (wf : start.db.Wf) : pt.db.Wf := by
  obtain ⟨_, _, steps⟩ := running.steps
  exact steps.wf wf

/-- One more effect, with what stays open and known. -/
theorem Running.effect {more : Nat} {opens : List Nat} {knows : List Message}
    {still : Message → Prop} (running : Running rules start limit boxes rows exact_ pt)
    (effect : Effect rules pt more final) (opened : ∀ id ∈ opens, final.Open id)
    (known : ∀ m ∈ knows, final.Known (still m) m) :
    Running rules start (limit + more) opens knows still final := by
  obtain ⟨created, bounded, steps⟩ := running.steps
  exact ⟨⟨created + more, Nat.add_le_add_right bounded more, .tail steps effect⟩, opened, known⟩

/-- An effect that leaves messages alone leaves what is known of them. -/
theorem Running.known_of_messages (running : Running rules start limit boxes rows exact_ pt)
    (kept : ∀ row ∈ pt.db.messages, row ∈ final.db.messages)
    (mine : final.accountId = pt.accountId) : ∀ m ∈ rows, final.Known (exact_ m) m :=
  fun m member => (running.known m member).mono (fun row _ => kept row) mine

/-! ### Queries -/

variable {held : Tx → Prop}

theorem mailboxFind_reads (name : String) :
    Triple held (mailboxFind name) (fun found pt => held pt ∧ ∀ mb, found = some mb →
      mb ∈ pt.db.mailboxes ∧ mb.accountId = pt.accountId ∧ mb.name = name ∧
        mb.expunged = false) := by
  intro state found final holds ran
  simp only [mailboxFind, findMailbox, bind_ok, get_ok, pure_ok] at ran
  obtain ⟨_, _, ⟨rfl, rfl⟩, rfl, rfl⟩ := ran
  refine ⟨holds, fun mb located => ?_⟩
  have matched := find?_some located
  simp only [Bool.and_eq_true, beq_iff_eq, Bool.not_eq_true'] at matched
  exact ⟨mem_of_find?_eq_some located, matched.1.1, matched.1.2, matched.2⟩

theorem listMailboxes_reads :
    Triple held listMailboxes (fun found pt => held pt ∧ ∀ mb ∈ found,
      mb ∈ pt.db.mailboxes ∧ mb.expunged = false) := by
  intro state found final holds ran
  simp only [listMailboxes, bind_ok, get_ok, pure_ok] at ran
  obtain ⟨_, _, ⟨rfl, rfl⟩, rfl, rfl⟩ := ran
  refine ⟨holds, fun mb member => ?_⟩
  have inside := (mem_insertionSort _).mp member
  simp only [mem_filter, Bool.and_eq_true, Bool.not_eq_true'] at inside
  exact ⟨inside.1, inside.2.2⟩

theorem findMailboxById_reads (id : Nat) :
    Triple held (findMailboxById id) (fun found pt => held pt ∧ ∀ mb, found = some mb →
      mb.id = id ∧ pt.Open mb.id) := by
  refine Triple.bind listMailboxes_reads fun listed => Triple.pure _ ?_
  rintro pt ⟨holds, inside⟩
  refine ⟨holds, fun mb located => ⟨by simpa using find?_some located, ?_⟩⟩
  obtain ⟨member, live⟩ := inside mb (mem_of_find?_eq_some located)
  exact ⟨mb, member, rfl, live⟩

/-- The rows a query returns are stored, and no row is returned twice. -/
def Rows (pt : Tx) (msgs : List Message) : Prop :=
  (msgs.map Message.id).Nodup ∧ ∀ m ∈ msgs, pt.Stored m

/-- Filtered and sorted rows of the table. -/
theorem rows_of_query {pt : Tx} (wf : pt.db.Wf) {wanted : Message → Bool}
    {order : Message → Message → Prop} [DecidableRel order]
    (stored : ∀ m ∈ pt.db.messages, wanted m = true → pt.Stored m) :
    Rows pt ((pt.db.messages.filter wanted).insertionSort order) := by
  constructor
  · have sorted := (perm_insertionSort order (pt.db.messages.filter wanted)).map Message.id
    exact sorted.nodup_iff.mpr ((filter_sublist.map Message.id).nodup wf.messageIds)
  · intro m member
    obtain ⟨inside, picked⟩ := mem_filter.mp ((mem_insertionSort order).mp member)
    exact stored m inside picked

theorem mailboxMessages_reads (wf : ∀ pt, held pt → pt.db.Wf) (mailboxId : Nat) :
    Triple held (mailboxMessages mailboxId) (fun msgs pt =>
      (held pt ∧ Rows pt msgs) ∧ ∀ m ∈ msgs, m.mailboxId = mailboxId) := by
  intro state msgs final holds ran
  simp only [mailboxMessages, bind_ok, get_ok, pure_ok] at ran
  obtain ⟨_, _, ⟨rfl, rfl⟩, rfl, rfl⟩ := ran
  refine ⟨⟨holds, rows_of_query (wf _ holds) fun m member picked => ?_⟩, fun m member => ?_⟩
  · simp only [Bool.and_eq_true, Bool.not_eq_true', beq_iff_eq] at picked
    exact ⟨member, picked.1.1, picked.1.2⟩
  · have picked := (mem_filter.mp ((mem_insertionSort _).mp member)).2
    simp only [Bool.and_eq_true, beq_iff_eq] at picked
    exact picked.2

theorem messagesByEmailId_reads (wf : ∀ pt, held pt → pt.db.Wf) (emailId : Int) :
    Triple held (messagesByEmailId emailId) (fun msgs pt => held pt ∧ Rows pt msgs) := by
  intro state msgs final holds ran
  simp only [messagesByEmailId, bind_ok, get_ok, pure_ok] at ran
  obtain ⟨_, _, ⟨rfl, rfl⟩, rfl, rfl⟩ := ran
  refine ⟨holds, rows_of_query (wf _ holds) fun m member picked => ?_⟩
  simp only [Bool.and_eq_true, Bool.not_eq_true', beq_iff_eq] at picked
  exact ⟨member, picked.1.2, picked.1.1⟩

/-- Rows just read are known, whatever was known before. -/
theorem Running.read {still : Message → Prop} {msgs : List Message}
    (running : Running rules start limit boxes rows exact_ pt) (read : Rows pt msgs) :
    Running rules start limit boxes msgs still pt :=
  ⟨running.steps, running.opened, fun m member => (read.2 m member).known _⟩

/-! ### Mailbox mutators -/

theorem createMailbox_running (name : String) (subscribe : Bool) (su : SpecialUse) :
    Triple (Running rules start limit boxes rows exact_) (createMailbox name subscribe su)
      (fun mb => Running rules start (limit + 1) (mb.id :: boxes) rows exact_) := by
  intro pt mb final running ran
  obtain ⟨middle, created, recorded, messages, row, named, live, _, _, mailboxes⟩ :=
    createMailbox_ran rules ran
  have opens : ∀ id ∈ mb.id :: boxes, final.Open id := by
    intro id member
    rcases mem_cons.mp member with rfl | old
    · exact ⟨row, mailboxes ▸ mem_append_right _ mem_cons_self, named, live⟩
    · obtain ⟨box, there, same⟩ := running.opened id old
      exact ⟨box, mailboxes ▸ mem_append_left _ there, same⟩
  have first : Running rules start (limit + 1) [] [] exact_ middle := running.effect created
    (fun _ none => absurd none not_mem_nil) (fun _ none => absurd none not_mem_nil)
  rcases recorded with rfl | recorded
  · exact ⟨first.steps, opens, running.known_of_messages (fun row member => messages ▸ member)
      created.accountId⟩
  · have second := first.effect recorded opens (running.known_of_messages
      (fun row member => messages ▸ member) (recorded.accountId.trans created.accountId))
    exact second

/-- A mailbox found open is one more to rely on. -/
theorem Running.found {id : Nat} (running : Running rules start limit boxes rows exact_ pt)
    (opened : pt.Open id) : Running rules start limit (id :: boxes) rows exact_ pt :=
  ⟨running.steps, forall_mem_cons.mpr ⟨opened, running.opened⟩, running.known⟩

theorem Running.raise (running : Running rules start limit boxes rows exact_ pt) :
    Running rules start (limit + 1) boxes rows exact_ pt :=
  running.weaken (Nat.le_succ limit) (fun _ member => member) (fun _ member => ⟨member, id⟩)

/-- A mailbox that is looked up by its name, and made if there is none. -/
theorem findOr_running (name : String) (create : Txn Mailbox)
    (made : Triple (Running rules start limit boxes rows exact_) create
      (fun mb => Running rules start (limit + 1) (mb.id :: boxes) rows exact_)) :
    Triple (Running rules start limit boxes rows exact_)
      (mailboxFind name >>= fun found => match found with
        | some mb => pure mb
        | none => create)
      (fun mb => Running rules start (limit + 1) (mb.id :: boxes) rows exact_) := by
  refine Triple.bind (mailboxFind_reads name) fun found => ?_
  cases found with
  | some mb =>
    refine Triple.pure _ fun pt held => ?_
    obtain ⟨member, _, _, live⟩ := held.2 mb rfl
    exact (held.1.found ⟨mb, member, rfl, live⟩).raise
  | none => exact made.consequence (fun pt held => held.1) (fun _ _ held => held)

theorem ensureMailbox_running (name : String) (subscribe : Bool) (su : SpecialUse) :
    Triple (Running rules start limit boxes rows exact_) (ensureMailbox name subscribe su)
      (fun mb => Running rules start (limit + 1) (mb.id :: boxes) rows exact_) :=
  findOr_running name _ (createMailbox_running name subscribe su)

theorem mailboxEnsure_running (name : String) (subscribe : Bool) (su : SpecialUse) :
    Triple (Running rules start limit boxes rows exact_) (mailboxEnsure name subscribe su)
      (fun mb => Running rules start (limit + 1) (mb.id :: boxes) rows exact_) :=
  ensureMailbox_running name subscribe su

theorem mailboxCreate_running (name : String) (su : SpecialUse) :
    Triple (Running rules start limit boxes rows exact_) (mailboxCreate name su)
      (fun made => Running rules start (limit + 1) ((made.map Mailbox.id).toList ++ boxes)
        rows exact_) := by
  refine Triple.bind (mailboxFind_reads name) fun found => ?_
  cases found with
  | some mb => exact Triple.pure _ fun pt held => held.1.raise
  | none =>
    refine Triple.bind ((ensureMailbox_running name false su).consequence
      (fun pt held => held.1) (fun _ _ held => held)) fun mb => ?_
    exact Triple.pure _ fun pt held => held

/-- A mailbox mutator that is one effect and leaves the messages alone. -/
theorem Running.mailboxEffect (running : Running rules start limit boxes rows exact_ pt)
    (effect : Effect rules pt 0 final) (messages : final.db.messages = pt.db.messages) :
    Running rules start limit [] rows exact_ final :=
  running.effect effect (fun _ none => absurd none not_mem_nil)
    (running.known_of_messages (fun _ member => messages ▸ member) effect.accountId)

theorem subscriptionEnsure_running (name : String) :
    Triple (Running rules start limit boxes rows exact_) (subscriptionEnsure name)
      (fun _ => Running rules start limit [] rows exact_) := by
  intro pt done final running ran
  obtain ⟨effect, messages⟩ := setSubscribed_ran rules rfl rfl rfl ran
  exact running.mailboxEffect effect messages

theorem subscriptionRemove_running (name : String) :
    Triple (Running rules start limit boxes rows exact_) (subscriptionRemove name)
      (fun _ => Running rules start limit [] rows exact_) := by
  intro pt done final running ran
  obtain ⟨effect, messages⟩ := setSubscribed_ran rules rfl rfl rfl ran
  exact running.mailboxEffect effect messages

theorem mailboxSetSpecialUse_running (mb : Mailbox) {su : SpecialUse} :
    Triple (Running rules start limit boxes rows exact_) (mailboxSetSpecialUse mb su)
      (fun _ => Running rules start limit boxes rows exact_) := by
  intro pt done final running ran
  obtain ⟨effect, messages, opens⟩ := mailboxSetSpecialUse_ran rules ran
  exact running.effect effect (fun id member => opens id (running.opened id member))
    (running.known_of_messages (fun _ member => messages ▸ member) effect.accountId)

theorem mailboxRename_running (src : Mailbox) (dst : String) :
    Triple (Running rules start limit boxes rows exact_) (mailboxRename src dst)
      (fun renamed pt => renamed = true → Running rules start limit [] rows exact_ pt) := by
  rintro pt renamed final running ran rfl
  obtain ⟨effect, messages⟩ := mailboxRename_ran rules ran
  exact running.mailboxEffect effect messages

theorem annotationSet_running (mailboxId : Nat) (key : String) :
    Triple (Running rules start limit boxes rows exact_) (annotationSet mailboxId key)
      (fun _ => Running rules start limit [] [] exact_) := by
  intro pt done final running ran
  exact running.effect (annotationSet_ran rules ran)
    (fun _ none => absurd none not_mem_nil) (fun _ none => absurd none not_mem_nil)

/-! ### Message mutators -/

/-- Adding a message keeps every row, known or not. The source of a sibling is a known row. -/
theorem messageAdd_running (wf : start.db.Wf) (env : Env) {mb : Mailbox} (m : Message)
    (body : Body) (emailId : Nat) (opened : mb.id ∈ boxes)
    (sibling : emailId ≠ 0 → ¬ rules.lone ∧ ∃ src ∈ rows, src.effectiveEmailId = emailId) :
    Triple (Running rules start limit boxes rows exact_) (messageAdd env mb m body emailId)
      (fun _ => Running rules start limit boxes rows exact_) := by
  intro pt added final running ran
  have source : emailId ≠ 0 → ∃ src, pt.Stored src ∧ src.effectiveEmailId = emailId := by
    intro grouped
    obtain ⟨_, src, member, same⟩ := sibling grouped
    obtain ⟨row, stored, one, _⟩ := running.known src member
    exact ⟨row, stored, one.effectiveEmailId.trans same⟩
  obtain ⟨effect, ⟨row, messages⟩, opens⟩ := messageAdd_ran rules (running.wf wf)
    (running.opened mb.id opened) source
    (fun ruled => Decidable.not_not.mp fun grouped => (sibling grouped).1 ruled) ran
  exact running.effect effect (fun id member => opens id (running.opened id member))
    (running.known_of_messages (fun _ member => messages ▸ mem_append_left _ member)
      effect.accountId)

theorem addSibling_running (wf : start.db.Wf) (env : Env) {src : Message} {mb : Mailbox}
    (opened : mb.id ∈ boxes) (known : src ∈ rows) (grouped : ¬ rules.lone) :
    Triple (Running rules start limit boxes rows exact_) (addSibling env src mb)
      (fun _ => Running rules start limit boxes rows exact_) :=
  messageAdd_running wf env _ _ _ opened fun _ => ⟨grouped, src, known, rfl⟩

/-- Updating one of the known rows: the others are known as before, and this one counts
as what was stored. -/
theorem update_running (wf : start.db.Wf) {x m : Message} (member : m ∈ rows) (same : m.SameRow x) :
    Triple (Running rules start limit boxes rows exact_) (update x)
      (fun _ => Running rules start limit boxes rows
        (fun row => (row.id ≠ x.id → exact_ row) ∧ (row.id = x.id → x.SameCounted row))) := by
  intro pt done final running ran
  have known : pt.Known False x := by
    obtain ⟨row, stored, one, _⟩ := running.known m member
    exact ⟨row, stored, one.trans same, False.elim⟩
  obtain ⟨effect, opens, keywords, messages⟩ :=
    update_ran rules (running.wf wf) known ran
  refine running.effect effect (fun id member => opens id (running.opened id member)) ?_
  intro other there
  obtain ⟨row, stored, one, counted⟩ := running.known other there
  by_cases here : other.id = x.id
  · have picked : (row.id == x.id && row.accountId == pt.accountId) = true := by
      simp [one.id, here, stored.mine]
    have inside : { row with flags := x.flags, keywords := keywords, modSeq := pt.seq + 1 } ∈
        final.db.messages := by
      rw [messages]
      exact Table.mem_update.mpr ⟨row, stored.mem, if_pos picked⟩
    exact ⟨_, ⟨inside, stored.live, stored.mine.trans effect.accountId.symm⟩,
      ⟨one.id, one.mailboxId, one.uid, one.size, one.emailId⟩, fun holds => holds.2 here⟩
  · have passed : (row.id == x.id && row.accountId == pt.accountId) = false := by
      simp [one.id, here]
    exact ⟨row, stored.mono (fun inside => messages ▸ Table.mem_update_of_mem inside passed)
      effect.accountId, one, fun holds => counted (holds.1 here)⟩

/-- Expunging known rows of one mailbox: the other rows are known as before. -/
theorem messageRemove_running (mb : Mailbox) {msgs : List Message} (rest : List Message)
    (distinct : (msgs.map Message.id).Nodup) (there : ∀ m ∈ msgs, m.mailboxId = mb.id)
    (known : ∀ m ∈ msgs, m ∈ rows ∧ (rules.fresh → exact_ m))
    (others : ∀ m ∈ rest, m ∈ rows ∧ m.id ∉ msgs.map Message.id) :
    Triple (Running rules start limit boxes rows exact_) (messageRemove mb msgs)
      (fun _ => Running rules start limit boxes rest exact_) := by
  intro pt done final running ran
  obtain ⟨effect, opens, messages⟩ := messageRemove_ran rules distinct there
    (fun m member => (running.known m (known m member).1).weaken (known m member).2) ran
  refine running.effect effect (fun id member => opens id (running.opened id member)) ?_
  intro m member
  refine (running.known m (others m member).1).mono (fun row same inside => ?_) effect.accountId
  refine messages ▸ Table.mem_update_of_mem inside ?_
  rw [same]
  simpa using (others m member).2

end Rules

end OctoMail.Store
