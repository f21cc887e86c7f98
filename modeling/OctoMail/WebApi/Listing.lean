import OctoMail.Jmap.FlagRoundTrip
import OctoMail.Store.MessageQuery
import OctoMail.WebApi.Messages

/-!
# The message lists of the Web API

`listMessages` of `protocol/webapi/messages.go`: the filters of the request, the count and one
page. A page shows each Email by one row, the one with the smallest id among the rows that match.

A row's subject, addresses and preview, and the delivery and workflow notes that are added to a
finished page, are left out; a received time is shown as it is stored. A request that the
database refuses for its text (a zero byte) is not considered.
-/

namespace OctoMail.WebApi

open Store Store.Tx Program Arrange Jmap.KeywordFilter

/-- The values of each parameter, none where it is absent. -/
abbrev Query := String → List String

def Query.get (q : Query) (name : String) : String := (q name).headD ""

def maxListLimit : Int := 1000

def atoiDefault (s : String) (def_ : Int) : Int :=
  if s = "" then def_
  else match Jmap.parseInt64 s with
    | some n => if n < 0 then def_ else n
    | none => def_

def readUnread (values : List String) : Txn (Option Bool) :=
  if values = [] then pure none
  else if values = ["true"] ∨ values = ["false"] then pure (some (values == ["true"]))
  else throw (.status 400 "invalid_query" "unread must be true or false")

def isEmptyRequiredMailbox (letters : Letters) (name : String) (mailbox : Option Mailbox) : Bool :=
  if mailbox.isSome then false
  else ["Inbox", "Starred", "Drafts", "Sent", "Archive", "Trash", "Junk"].any
    (fun required => letters.equalFold name required)

structure Summary where
  id : String
  threadId : String
  mailbox : String
  size : Nat
  keywords : List String
  unread : Bool
  receivedAt : Nat
deriving DecidableEq, Repr

def emailID (m : Message) : String := "E" ++ Mailflow.formatInt m.effectiveEmailId

/-- The names of the live mailboxes by id. -/
def mailboxNames : Txn (Nat → String) := do
  let mbs ← listMailboxes
  return fun id => (mbs.find? (fun mb => mb.id == id)).elim "" Mailbox.name

def summarize (mbNames : Nat → String) (m : Message) : Summary where
  id := emailID m
  threadId := if m.threadId ≠ 0 then "T" ++ Mailflow.formatInt m.threadId else ""
  mailbox := mbNames m.mailboxId
  size := m.size
  keywords := Jmap.FlagRoundTrip.imapFlags m.flags (m.keywords.getD [])
  unread := !m.flags.seen
  receivedAt := m.received

structure ListReply where
  messages : List Summary
  total : Nat
  offset : Int
  limit : Int

section Listing

variable (letters : Letters) (index : SearchIndex)

/-- The filter that every list has. -/
def baseFilter (accountId : Nat) (unread : Option Bool) (search : String) : MsgQuery :=
  let mq := (queryMessage accountId).distinctEmail
  let mq := match unread with
    | some unread => mq.filterFlags { seen := true } { seen := !unread }
    | none => mq
  if search ≠ "" then mq.filterFTS index search else mq

/-- The filter with the mailbox of the request; none where a required mailbox does not exist yet. -/
def mailboxFilter (mailbox : String) (base : MsgQuery) : Txn (Option MsgQuery) := do
  if mailbox = "" then return some base
  else if letters.equalFold mailbox "Starred" then
    return some (base.filterKeyword letters "$flagged" true)
  else do
    let mb ← mailboxFind mailbox
    if isEmptyRequiredMailbox letters mailbox mb then return none
    else do
      let mb ← require mb (.status 404 "not_found" "no such mailbox")
      return some (base.filterMailbox mb.id)

/-- The count and the rows of a page; an empty page where there is no filter. -/
def listPage (limit offset : Int) (filter : Option MsgQuery) : Txn ListReply := do
  match filter with
  | none => return ⟨[], 0, offset, limit⟩
  | some filter => do
      let pt ← get
      let msgs := { filter.sortReceivedDesc with
        limit := limit.toNat, offset := offset.toNat }.list pt.db
      let mbNames ← mailboxNames
      return ⟨msgs.map (summarize mbNames), filter.count pt.db, offset, limit⟩

def listMessages (q : Query) : Txn ListReply := do
  let unread ← readUnread (q "unread")
  let limit := atoiDefault (q.get "limit") 50
  let offset := atoiDefault (q.get "offset") 0
  let limit := if limit ≤ 0 ∨ limit > maxListLimit then maxListLimit else limit
  let offset := if offset < 0 then 0 else offset
  let pt ← get
  let filter ← mailboxFilter letters (q.get "mailbox")
    (baseFilter index pt.accountId unread (q.get "search"))
  listPage limit offset filter

/-! ### What a request asks for -/

/-- A live mailbox of the account has this name. -/
def Named (pt : Tx) (name : String) (mb : Mailbox) : Prop :=
  mb ∈ pt.db.mailboxes ∧ mb.accountId = pt.accountId ∧ mb.name = name ∧ mb.expunged = false

/-- The row is in the mailbox asked for, or is starred. -/
def InMailbox (pt : Tx) (name : String) (m : Message) : Prop :=
  name = "" ∨ if letters.equalFold name "Starred" = true then m.flags.flagged = true
    else ∃ mb, Named pt name mb ∧ m.mailboxId = mb.id

/-- The live rows of the account that a request is about. -/
structure Matches (pt : Tx) (q : Query) (m : Message) : Prop where
  row : m ∈ pt.db.messages
  own : m.accountId = pt.accountId
  live : m.expunged = false
  mailbox : InMailbox letters pt (q.get "mailbox") m
  unread : q "unread" = [] ∨ q "unread" = [if m.flags.seen then "false" else "true"]
  search : q.get "search" = "" ∨ index.finds (q.get "search") m = true

/-- The filters can be read, and the mailbox exists or is one that every account has. -/
structure Accepted (pt : Tx) (q : Query) : Prop where
  unread : q "unread" = [] ∨ q "unread" = ["true"] ∨ q "unread" = ["false"]
  mailbox : q.get "mailbox" = "" ∨ letters.equalFold (q.get "mailbox") "Starred" = true ∨
    isEmptyRequiredMailbox letters (q.get "mailbox") none = true ∨
      ∃ mb, Named pt (q.get "mailbox") mb

/-- What the schema keeps: ids are distinct bigints, and a name has one live mailbox. -/
structure Keyed (pt : Tx) : Prop where
  ids : (pt.db.messages.map Message.id).Nodup
  bigint : ∀ m ∈ pt.db.messages, m.id < 2 ^ 63
  names : ∀ name mb other, Named pt name mb → Named pt name other → mb = other

/-- What an entry tells of its row: the id of the Email in decimal, the name of the live mailbox the
row is in, whether it is unread and when it was received. -/
structure Shows (pt : Tx) (m : Message) (entry : Summary) : Prop where
  id : entry.id = "E" ++ toString (if m.emailId ≠ 0 then m.emailId else m.id)
  mailbox : (∃ mb, Named pt entry.mailbox mb ∧ mb.id = m.mailboxId) ∨
    entry.mailbox = "" ∧ ¬∃ name mb, Named pt name mb ∧ mb.id = m.mailboxId
  unread : entry.unread = !m.flags.seen
  receivedAt : entry.receivedAt = m.received

/-- The request for a page. -/
def Query.page (q : Query) (size k : Nat) : Query := fun name =>
  if name = "limit" then [Mailflow.formatInt size]
  else if name = "offset" then [Mailflow.formatInt (k * size : Nat)]
  else q name

/-! ### The filters -/

variable {letters index} {pt : Tx} {q : Query}

theorem readUnread_ok (readable : q "unread" = [] ∨ q "unread" = ["true"] ∨
    q "unread" = ["false"]) :
    ∃ unread, readUnread (q "unread") pt = .ok (unread, pt) ∧
      ∀ m : Message, (q "unread" = [] ∨ q "unread" = [if m.flags.seen then "false" else "true"]) ↔
        ∀ value, unread = some value → m.flags.seen = !value := by
  rcases readable with absent | yes | no
  · rw [absent]
    exact ⟨none, rfl, by simp⟩
  · rw [yes]
    exact ⟨some true, rfl, fun m => by cases m.flags.seen <;> simp⟩
  · rw [no]
    exact ⟨some false, rfl, fun m => by cases m.flags.seen <;> simp⟩

theorem whereClause_add (mq : MsgQuery) (condition : Message → Bool) (m : Message) :
    (mq.add condition).whereClause m = (mq.whereClause m && condition m) := by
  simp [MsgQuery.whereClause, MsgQuery.add, Bool.and_assoc]

theorem baseFilter_distinct (accountId : Nat) (unread : Option Bool) (search : String) :
    (baseFilter index accountId unread search).distinct = true := by
  simp only [baseFilter]
  cases unread <;> split <;> rfl

theorem baseFilter_where (accountId : Nat) (unread : Option Bool) (search : String) (m : Message) :
    (baseFilter index accountId unread search).whereClause m = true ↔
      m.expunged = false ∧ m.accountId = accountId ∧
        (∀ value, unread = some value → m.flags.seen = !value) ∧
          (search = "" ∨ index.finds search m = true) := by
  have own : ((queryMessage accountId).distinctEmail).whereClause m =
      (!m.expunged && m.accountId == accountId) := by
    simp [MsgQuery.whereClause, queryMessage, MsgQuery.distinctEmail]
  cases unread <;> by_cases empty : search = "" <;>
    simp [baseFilter, empty, MsgQuery.filterFTS, MsgQuery.filterFlags, whereClause_add, own,
      and_assoc]

theorem filterKeyword_flagged (m : Message) :
    Jmap.KeywordFilter.filterKeyword letters "$flagged" true m = m.flags.flagged := by
  have lower : letters.toLower "$flagged" = "$flagged" :=
    letters.names ⟨fun f v => { f with flagged := v }, "\\Flagged",
      "$flagged"⟩ (by simp [flagRegistry])
  have column : flagColumns.find "$flagged" = some Flags.flagged := rfl
  rw [Jmap.KeywordFilter.filterKeyword, systemFlagColumn, lower, column]
  simp

variable {name : String}

theorem mailboxFind_some {mb : Mailbox} (keyed : Keyed pt) (named : Named pt name mb) :
    mailboxFind name pt = .ok (some mb, pt) := by
  have found : ∃ other, pt.db.mailboxes.find? (fun mb =>
      mb.accountId == pt.accountId && mb.name == name && !mb.expunged) = some other := by
    rw [← Option.isSome_iff_exists, List.find?_isSome]
    exact ⟨mb, named.1, by simp [named.2]⟩
  obtain ⟨other, first⟩ := found
  have test := List.find?_some first
  simp only [Bool.and_eq_true, beq_iff_eq, Bool.not_eq_true'] at test
  have same := keyed.names name mb other named
    ⟨List.mem_of_find?_eq_some first, test.1.1, test.1.2, test.2⟩
  rw [same, ← first]
  rfl

theorem mailboxFind_none (absent : ¬∃ mb, Named pt name mb) :
    mailboxFind name pt = .ok (none, pt) := by
  have first : pt.db.mailboxes.find? (fun mb =>
      mb.accountId == pt.accountId && mb.name == name && !mb.expunged) = none := by
    rw [List.find?_eq_none]
    intro mb member test
    simp only [Bool.and_eq_true, beq_iff_eq, Bool.not_eq_true'] at test
    exact absent ⟨mb, member, test.1.1, test.1.2, test.2⟩
  rw [← first]
  rfl

/-- The rows that the filter of a request lets through; none of a mailbox that does not exist. -/
def Through (base : MsgQuery) (pt : Tx) (name : String) (filter : Option MsgQuery) : Prop :=
  match filter with
  | none => ∀ m, ¬InMailbox letters pt name m
  | some filter => filter.distinct = base.distinct ∧
      ∀ m, filter.whereClause m = true ↔ base.whereClause m = true ∧ InMailbox letters pt name m

theorem mailboxFilter_ok (base : MsgQuery) (keyed : Keyed pt)
    (accepted : name = "" ∨ letters.equalFold name "Starred" = true ∨
      isEmptyRequiredMailbox letters name none = true ∨ ∃ mb, Named pt name mb) :
    ∃ filter, mailboxFilter letters name base pt = .ok (filter, pt) ∧
      @Through letters base pt name filter := by
  by_cases empty : name = ""
  · subst empty
    exact ⟨some base, rfl, rfl, by simp [InMailbox]⟩
  by_cases starred : letters.equalFold name "Starred" = true
  · refine ⟨some (base.filterKeyword letters "$flagged" true), ?_, rfl, fun m => ?_⟩
    · simp only [mailboxFilter, if_neg empty, if_pos starred]
      rfl
    · simp [MsgQuery.filterKeyword, whereClause_add, filterKeyword_flagged, InMailbox, empty, starred]
  by_cases exists_ : ∃ mb, Named pt name mb
  · obtain ⟨mb, named⟩ := exists_
    refine ⟨some (base.filterMailbox mb.id), ?_, rfl, fun m => ?_⟩
    · simp only [mailboxFilter, if_neg empty, if_neg starred, bind, StateT.bind,
        mailboxFind_some keyed named, Except.bind]
      rfl
    · simp only [MsgQuery.filterMailbox, whereClause_add, InMailbox, empty, false_or,
        if_neg starred, Bool.and_eq_true, beq_iff_eq]
      refine and_congr_right fun _ => ⟨fun same => ⟨mb, named, same⟩, ?_⟩
      rintro ⟨other, here, same⟩
      rw [same, keyed.names name other mb here named]
  · have required : isEmptyRequiredMailbox letters name none = true := by
      rcases accepted with here | here | here | here
      · exact absurd here empty
      · exact absurd here starred
      · exact here
      · exact absurd here exists_
    refine ⟨none, ?_, fun m inside => ?_⟩
    · simp only [mailboxFilter, if_neg empty, if_neg starred, bind, StateT.bind,
        mailboxFind_none exists_, Except.bind, required, if_true]
      rfl
    · rw [InMailbox, if_neg starred] at inside
      rcases inside with here | ⟨mb, named, _⟩
      · exact empty here
      · exact exists_ ⟨mb, named⟩

/-! ### The window -/

theorem atoiDefault_formatInt {n : Nat} (def_ : Int) (small : n < 2 ^ 63) :
    atoiDefault (Mailflow.formatInt n) def_ = n := by
  have read := Mailflow.parseInt64_formatInt n (Int.natCast_nonneg n)
  rw [Int.toNat_natCast, if_pos small] at read
  have some_ : Mailflow.formatInt n ≠ "" := by
    intro empty
    rw [empty] at read
    cases read
  rw [atoiDefault, if_neg some_, read]
  simp

theorem page_limit {size k : Nat} (some_ : 1 ≤ size) (most : size ≤ maxListLimit) :
    (let limit := atoiDefault ((q.page size k).get "limit") 50
      if limit ≤ 0 ∨ limit > maxListLimit then maxListLimit else limit) = size := by
  have small : size < 2 ^ 63 := by
    rw [maxListLimit] at most
    omega
  have limit : (q.page size k).get "limit" = Mailflow.formatInt size := rfl
  simp only [limit, atoiDefault_formatInt 50 small]
  rw [if_neg (by omega)]

theorem page_offset {size k : Nat} (reached : k * size < 2 ^ 63) :
    (let offset := atoiDefault ((q.page size k).get "offset") 0
      if offset < 0 then 0 else offset) = (k * size : Nat) := by
  have offset : (q.page size k).get "offset" = Mailflow.formatInt (k * size : Nat) := rfl
  simp only [offset, atoiDefault_formatInt 0 reached]
  rw [if_neg (by omega)]

/-- An accepted request is answered with a page of what its filter lets through. -/
theorem listMessages_eq {size k : Nat} {unread : Option Bool} {filter : Option MsgQuery}
    (reads : readUnread (q "unread") pt = .ok (unread, pt))
    (filters : mailboxFilter letters (q.get "mailbox")
      (baseFilter index pt.accountId unread (q.get "search")) pt = .ok (filter, pt))
    (some_ : 1 ≤ size) (most : size ≤ maxListLimit) (reached : k * size < 2 ^ 63) :
    listMessages letters index (q.page size k) pt = listPage size (k * size : Nat) filter pt := by
  have limit := @page_limit q size k some_ most
  have offset := @page_offset q size k reached
  have asked : readUnread (q.page size k "unread") pt = .ok (unread, pt) := reads
  have within : mailboxFilter letters ((q.page size k).get "mailbox") (baseFilter index pt.accountId
      unread ((q.page size k).get "search")) pt = .ok (filter, pt) := filters
  simp only at limit offset
  simp only [listMessages, bind, StateT.bind, asked, Except.bind, get, getThe,
    MonadStateOf.get, StateT.get, pure, Except.pure, within, limit, offset]

/-- What the filter lets through is what the request asks for. -/
theorem matches_iff {unread : Option Bool} {filter : MsgQuery} (wanted : ∀ m : Message,
      (q "unread" = [] ∨ q "unread" = [if m.flags.seen then "false" else "true"]) ↔
        ∀ value, unread = some value → m.flags.seen = !value)
    (where_ : ∀ m, filter.whereClause m = true ↔
      (baseFilter index pt.accountId unread (q.get "search")).whereClause m = true ∧
        InMailbox letters pt (q.get "mailbox") m) :
    Matches letters index pt q = fun m => m ∈ pt.db.messages ∧ filter.whereClause m = true := by
  funext m
  apply propext
  rw [where_, baseFilter_where, ← wanted]
  constructor
  · intro matching
    exact ⟨matching.row, ⟨matching.live, matching.own, matching.unread, matching.search⟩,
      matching.mailbox⟩
  · rintro ⟨row, ⟨live, own, unread, search⟩, mailbox⟩
    exact ⟨row, own, live, mailbox, unread, search⟩

/-- An entry shows its row. -/
theorem summarize_shows {mbNames : Nat → String} (named : mailboxNames pt = .ok (mbNames, pt))
    (m : Message) : Shows pt m (summarize mbNames m) := by
  refine ⟨?_, ?_, rfl, rfl⟩
  · rw [summarize, emailID, Mailflow.formatInt_natCast, Message.effectiveEmailId]
  · obtain ⟨mbs, among, rfl⟩ : ∃ mbs : List Mailbox, (∀ mb, mb ∈ mbs ↔ Named pt mb.name mb) ∧
        (fun id => (mbs.find? (fun mb => mb.id == id)).elim "" Mailbox.name) = mbNames :=
      ⟨_, fun mb => by simp [Named], congrArg Prod.fst (Except.ok.inj named)⟩
    simp only [summarize]
    cases found : mbs.find? (fun mb => mb.id == m.mailboxId) with
    | some mb =>
      exact .inl ⟨mb, (among mb).mp (List.mem_of_find?_eq_some found),
        by simpa using List.find?_some found⟩
    | none =>
      refine .inr ⟨rfl, ?_⟩
      rintro ⟨name, mb, here, same⟩
      have absent := List.find?_eq_none.mp found mb
        ((among mb).mpr ⟨here.1, here.2.1, rfl, here.2.2.2⟩)
      simp [same] at absent

/-- Every page of an accepted request is a page of one list. -/
theorem listMessages_page (keyed : Keyed pt) (accepted : Accepted letters pt q) :
    ∃ rows mbNames, MsgQuery.Ranked (Matches letters index pt q) rows ∧
      mailboxNames pt = .ok (mbNames, pt) ∧
      ∀ size k : Nat, 1 ≤ size → size ≤ maxListLimit → k * size < 2 ^ 63 →
        listMessages letters index (q.page size k) pt = .ok
          (⟨(page size (k * size) rows).map (summarize mbNames), rows.length, (k * size : Nat), size⟩,
            pt) := by
  obtain ⟨unread, reads, wanted⟩ := @readUnread_ok pt q accepted.unread
  obtain ⟨filter, filters, through⟩ := mailboxFilter_ok
    (baseFilter index pt.accountId unread (q.get "search")) keyed accepted.mailbox
  obtain ⟨mbNames, named⟩ : ∃ mbNames, mailboxNames pt = .ok (mbNames, pt) := ⟨_, rfl⟩
  cases filter with
  | none =>
    refine ⟨[], mbNames, ⟨by simp, by simp, ?_, List.nodup_nil, .nil⟩, named, ?_⟩
    · exact fun m matching => absurd matching.mailbox (through m)
    · intro size k some_ most reached
      rw [listMessages_eq reads filters some_ most reached]
      simp only [listPage, page, List.length_nil, List.drop_nil, List.take_nil, List.map_nil]
      rfl
  | some filter =>
    obtain ⟨distinct, where_⟩ := through
    rw [baseFilter_distinct] at distinct
    refine ⟨filter.ranking pt.db, mbNames, ?_, named, ?_⟩
    · rw [matches_iff wanted where_]
      exact filter.ranking_ranked keyed.ids
    · intro size k some_ most reached
      rw [listMessages_eq reads filters some_ most reached]
      simp only [listPage, bind, StateT.bind, get, getThe, MonadStateOf.get, StateT.get, pure,
        Except.pure, named, Except.bind, Int.toNat_natCast,
        MsgQuery.list_eq_page distinct pt.db some_, MsgQuery.count_eq_length distinct]
      rfl

/-- A request that cannot be read or names no mailbox is refused. -/
theorem listMessages_refused (refused : ¬Accepted letters pt q) :
    ∃ failure, listMessages letters index q pt = .error failure := by
  by_cases readable : q "unread" = [] ∨ q "unread" = ["true"] ∨ q "unread" = ["false"]
  · obtain ⟨unread, reads, _⟩ := @readUnread_ok pt q readable
    have unknown := not_or.mp fun mailbox => refused ⟨readable, mailbox⟩
    simp only [not_or, Bool.not_eq_true] at unknown
    obtain ⟨empty, starred, required, absent⟩ := unknown
    refine ⟨.status 404 "not_found" "no such mailbox", ?_⟩
    simp only [listMessages, mailboxFilter, bind, StateT.bind, reads, Except.bind, get, getThe,
      MonadStateOf.get, StateT.get, pure, Except.pure, if_neg empty, starred, Bool.false_eq_true,
      if_false, mailboxFind_none absent, required]
    rfl
  · refine ⟨.status 400 "invalid_query" "unread must be true or false", ?_⟩
    have fails : readUnread (q "unread") pt =
        .error (.status 400 "invalid_query" "unread must be true or false") := by
      obtain ⟨given, other⟩ := not_or.mp readable
      rw [readUnread, if_neg given, if_neg other]
      rfl
    simp only [listMessages, bind, StateT.bind, fails, Except.bind]

/-- There are no more rows than ids. -/
theorem ranked_length {rows : List Message} (keyed : Keyed pt)
    (ranked : MsgQuery.Ranked (Matches letters index pt q) rows) : rows.length ≤ 2 ^ 63 := by
  have distinct : (rows.map Message.id).Nodup := by
    refine List.Nodup.map_on (fun a first b second same => ?_) (List.Nodup.of_map _ ranked.once)
    exact List.inj_on_of_nodup_map keyed.ids (ranked.sound a first).row (ranked.sound b second).row
      same
  have below : rows.map Message.id ⊆ List.range (2 ^ 63) := by
    intro id member
    obtain ⟨m, among, rfl⟩ := List.mem_map.mp member
    exact List.mem_range.mpr (keyed.bigint m (ranked.sound m among).row)
  have most := (List.subperm_of_subset distinct below).length_le
  rwa [List.length_map, List.length_range] at most

end Listing

/-! ### Reading a list page by page -/

/-- The pages of a list hold one row of each Email that the request asks for, the matching row with
the smallest id, latest first, and each page tells how many there are. A page behind the last is
empty; a request that cannot be read or names no mailbox has no pages. -/
theorem listMessages_pages (letters : Letters) (index : SearchIndex) (pt : Tx) (q : Query)
    (size : Nat) (keyed : Keyed pt) (some_ : 1 ≤ size) (most : size ≤ maxListLimit) :
    (Accepted letters pt q → ∃ rows, ∃ replies : List ListReply,
      MsgQuery.Ranked (Matches letters index pt q) rows ∧
      List.Forall₂ (Shows pt) rows (replies.flatMap ListReply.messages) ∧
      (∀ k reply, replies[k]? = some reply →
        listMessages letters index (q.page size k) pt = .ok (reply, pt) ∧
          reply.messages ≠ [] ∧ reply.total = rows.length) ∧
      ∀ k, replies.length ≤ k → k * size < 2 ^ 63 → ∃ reply,
        listMessages letters index (q.page size k) pt = .ok (reply, pt) ∧
          reply.messages = [] ∧ reply.total = rows.length) ∧
    (¬Accepted letters pt q →
      ∀ k, ∃ failure, listMessages letters index (q.page size k) pt = .error failure) := by
  constructor
  · intro accepted
    obtain ⟨rows, mbNames, ranked, named, answers⟩ := listMessages_page keyed accepted
    have bound := ranked_length keyed ranked
    -- as many pages as it takes to reach the last row
    let pages := (rows.length + size - 1) / size
    have inside : ∀ k, k < pages ↔ k * size < rows.length := by
      intro k
      rw [Nat.lt_div_iff_mul_lt some_]
      omega
    refine ⟨rows, (List.range pages).map (fun k =>
      ⟨(page size (k * size) rows).map (summarize mbNames), rows.length, (k * size : Nat), size⟩),
      ranked, ?_, ?_, ?_⟩
    · have all : rows.length ≤ pages * size := by
        have behind := (inside pages).not.mp (Nat.lt_irrefl pages)
        omega
      rw [List.flatMap_map, ← List.map_flatMap, flatMap_pages, List.take_of_length_le all,
        List.forall₂_map_right_iff]
      exact List.forall₂_same.mpr fun m _ => summarize_shows named m
    · intro k reply listed
      rw [List.getElem?_map, Option.map_eq_some_iff] at listed
      obtain ⟨place, found, rfl⟩ := listed
      obtain ⟨here, rfl⟩ := List.getElem?_eq_some_iff.mp found
      rw [List.length_range] at here
      rw [List.getElem_range]
      have reached := (inside k).mp here
      refine ⟨answers size k some_ most (by omega), ?_, rfl⟩
      simp [page]
      omega
    · intro k behind reached
      rw [List.length_map, List.length_range] at behind
      have past := (inside k).not.mp (by omega)
      refine ⟨_, answers size k some_ most reached, ?_, rfl⟩
      simp [page, List.drop_eq_nil_of_le (Nat.le_of_not_lt past)]
  · intro refused k
    exact listMessages_refused fun accepted => refused ⟨accepted.unread, accepted.mailbox⟩

/-- An Email in two mailboxes, read in one of them, and another Email. -/
def siblingTx : Tx where
  db := {
    messages := [{ id := 1, accountId := 1, mailboxId := 1, flags := { seen := true }, received := 5 },
      { id := 2, accountId := 1, mailboxId := 2, emailId := 1, received := 3 },
      { id := 3, accountId := 1, mailboxId := 1, received := 4 }] }
  accountId := 1
  tenantId := 1
  seq := 0
  entries := []

/-- The unread list of that account, a row at a time, has both Emails: the first for its row in
the other mailbox. -/
theorem listMessages_pages_unread :
    ∃ rows : List Message, 1 ∈ rows.map Message.effectiveEmailId ∧
      3 ∈ rows.map Message.effectiveEmailId ∧
      ∃ replies : List ListReply, replies ≠ [] ∧ ∀ reply ∈ replies, reply.total = rows.length := by
  let q : Query := fun name => if name = "unread" then ["true"] else []
  let index : SearchIndex := ⟨[], fun _ _ => false, fun _ => []⟩
  have keyed : Keyed siblingTx :=
    ⟨by decide, by decide, fun _ _ _ named => absurd named.1 List.not_mem_nil⟩
  have accepted : Accepted asciiLetters siblingTx q := ⟨.inr (.inl rfl), .inl rfl⟩
  obtain ⟨rows, replies, ranked, tiled, pages, _⟩ :=
    (listMessages_pages asciiLetters index siblingTx q 1 keyed (by decide) (by decide)).1 accepted
  have matching : ∀ m ∈ siblingTx.db.messages, m.flags.seen = false →
      Matches asciiLetters index siblingTx q m := by
    intro m member unseen
    have own : ∀ m ∈ siblingTx.db.messages, m.accountId = 1 ∧ m.expunged = false := by decide
    exact ⟨member, (own m member).1, (own m member).2, .inl rfl, .inr (by rw [unseen]; rfl), .inl rfl⟩
  have first := ranked.complete { id := 2, accountId := 1, mailboxId := 2, emailId := 1, received := 3 }
    (matching _ (by decide) rfl)
  refine ⟨rows, first, ranked.complete { id := 3, accountId := 1, mailboxId := 1, received := 4 }
    (matching _ (by decide) rfl), replies, ?_, fun reply member => ?_⟩
  · rintro rfl
    rw [List.forall₂_nil_right_iff.mp tiled] at first
    exact absurd first List.not_mem_nil
  · obtain ⟨k, place⟩ := List.mem_iff_getElem?.mp member
    exact (pages k reply place).2.2

end OctoMail.WebApi
