import OctoMail.Arrange
import OctoMail.Jmap.KeywordFilter
import OctoMail.Store.Database

/-!
# The query builder for messages

`msgQuery` of `storage/postgres/tx.go`: conditions are collected, and `List` and `Count` make one
statement of them. Every query is restricted to the rows of its account that are not expunged.
Collapsed to Emails, a query keeps the row with the smallest id among the matching rows of each
Email; the order and the window are applied to the rows that are left.

The search index is a table beside the messages. Its source text is compared by ILIKE, and a row
whose text is not filled in yet by its lexemes; how the database compares letters and splits
texts into lexemes is left open.
-/

namespace OctoMail.Store

open Arrange Jmap.KeywordFilter

/-- A row of `fts`. -/
structure FtsRow where
  accountId : Nat
  messageId : Nat
  searchText : Option String
  tsv : List String
deriving DecidableEq, Repr

/-- The search index and the operators that read it: `ILIKE … ESCAPE '\'`, and the lexemes of
`plainto_tsquery('simple', …)`. -/
structure SearchIndex where
  rows : List FtsRow
  ilike : String → String → Bool
  lexemes : String → List String

/-- The characters of a pattern that stand for themselves are escaped. -/
def escapeLike (text : String) : String :=
  String.ofList (text.toList.flatMap (fun c =>
    if c = '\\' ∨ c = '%' ∨ c = '_' then ['\\', c] else [c]))

/-- `tsv @@ plainto_tsquery('simple', query)`: a query without lexemes matches nothing. -/
def SearchIndex.tokens (index : SearchIndex) (row : FtsRow) (query : String) : Bool :=
  !(index.lexemes query).isEmpty && (index.lexemes query).all (fun lexeme =>
    row.tsv.contains lexeme)

/-- The condition that `FilterFTS` adds to the query, on a row. -/
def SearchIndex.finds (index : SearchIndex) (query : String) (m : Message) : Bool :=
  index.rows.any (fun row => row.accountId == m.accountId && row.messageId == m.id &&
    match row.searchText with
    | some text => index.ilike text ("%" ++ escapeLike query ++ "%")
    | none => index.tokens row query)

structure MsgQuery where
  wheres : List (Message → Bool)
  /-- The strict comparison of the ORDER BY, if there is one. -/
  order : Option (Message → Message → Bool) := none
  limit : Nat := 0
  offset : Nat := 0
  distinct : Bool := false

def queryMessage (accountId : Nat) : MsgQuery where
  wheres := [fun m => m.accountId == accountId]

namespace MsgQuery

def add (q : MsgQuery) (condition : Message → Bool) : MsgQuery :=
  { q with wheres := q.wheres ++ [condition] }

def filterMailbox (q : MsgQuery) (id : Nat) : MsgQuery := q.add (fun m => m.mailboxId == id)

/-- Of the flags only `\Seen` is ever compared. -/
def filterFlags (q : MsgQuery) (mask want : Flags) : MsgQuery :=
  if mask.seen then q.add (fun m => m.flags.seen == want.seen) else q

def filterFTS (q : MsgQuery) (index : SearchIndex) (query : String) : MsgQuery :=
  q.add (index.finds query)

def filterKeyword (q : MsgQuery) (letters : Letters) (kw : String) (want : Bool) : MsgQuery :=
  q.add (Jmap.KeywordFilter.filterKeyword letters kw want)

def distinctEmail (q : MsgQuery) : MsgQuery := { q with distinct := true }

/-- Later rows first, and among rows of one time those with the larger id. -/
def receivedDesc (a b : Message) : Ordering :=
  (compare b.received a.received).then (compare b.id a.id)

def sortReceivedDesc (q : MsgQuery) : MsgQuery :=
  { q with order := some (fun a b => receivedDesc a b == .lt) }

def whereClause (q : MsgQuery) (m : Message) : Bool :=
  !m.expunged && q.wheres.all (fun condition => condition m)

/-- By Email and then by id, as the inner query of `DISTINCT ON` is sorted. -/
def byEmail (a b : Message) : Ordering :=
  (compare a.effectiveEmailId b.effectiveEmailId).then (compare a.id b.id)

/-- The first row of each Email in that order. -/
def collapse (rows : List Message) : List Message :=
  firsts Message.effectiveEmailId (sliceStable (fun a b => byEmail a b == .lt) rows)

/-- `List`. Without an ORDER BY the order of the answer is that of the rows here; nobody relies
on it. -/
def list (q : MsgQuery) (db : Database) : List Message :=
  let rows := db.messages.filter q.whereClause
  let rows := if q.distinct then collapse rows else rows
  let rows := match q.order with
    | some less => sliceStable less rows
    | none => rows
  let rows := if q.offset > 0 then rows.drop q.offset else rows
  if q.limit > 0 then rows.take q.limit else rows

/-- `Count` ignores the order and the window. -/
def count (q : MsgQuery) (db : Database) : Nat :=
  let rows := db.messages.filter q.whereClause
  if q.distinct then (rows.map Message.effectiveEmailId).dedup.length else rows.length

/-! ### The rows of a query -/

theorem transCmp_receivedDesc : Std.TransCmp receivedDesc := by
  have received : Std.TransCmp (fun a b : Message => compareOn Message.received b a) := .opposite
  have ids : Std.TransCmp (fun a b : Message => compareOn Message.id b a) := .opposite
  exact inferInstanceAs (Std.TransCmp (compareLex
    (fun a b : Message => compareOn Message.received b a) (fun a b => compareOn Message.id b a)))

theorem transCmp_byEmail : Std.TransCmp byEmail :=
  inferInstanceAs (Std.TransCmp (compareLex
    (compareOn Message.effectiveEmailId) (compareOn Message.id)))

theorem lt_of_receivedDesc {a b : Message} (before : (receivedDesc a b).isLE = true)
    (apart : a.id ≠ b.id) : b.received < a.received ∨ b.received = a.received ∧ b.id < a.id := by
  simp only [receivedDesc, Ordering.isLE_then_iff_or, Std.isLE_compare, Nat.compare_eq_lt,
    Nat.compare_eq_eq] at before
  omega

theorem le_of_byEmail {a b : Message} (before : (byEmail a b).isLE = true)
    (same : a.effectiveEmailId = b.effectiveEmailId) : a.id ≤ b.id := by
  rw [byEmail, same] at before
  simpa [Std.isLE_compare] using before

/-- What is left of a set of rows, one row of each Email, in order. -/
structure Ranked (matching : Message → Prop) (rows : List Message) : Prop where
  sound : ∀ m ∈ rows, matching m
  lowest : ∀ m ∈ rows, ∀ other, matching other →
    other.effectiveEmailId = m.effectiveEmailId → m.id ≤ other.id
  complete : ∀ m, matching m → m.effectiveEmailId ∈ rows.map Message.effectiveEmailId
  once : (rows.map Message.effectiveEmailId).Nodup
  ordered : rows.Pairwise (fun a b =>
    b.received < a.received ∨ b.received = a.received ∧ b.id < a.id)

section Collapse

variable {rows : List Message}

theorem collapse_subset {m : Message} (member : m ∈ collapse rows) : m ∈ rows :=
  (sliceStable_perm _ rows).subset ((firsts_sublist _ _).subset member)

/-- The row that stands for a row: one of its Email with an id that is not larger. -/
theorem exists_collapse {m : Message} (member : m ∈ rows) :
    ∃ first ∈ collapse rows, first.effectiveEmailId = m.effectiveEmailId ∧ first.id ≤ m.id := by
  have sorted := sliceStable_sorted transCmp_byEmail
    (fun a b : Message => (beq_iff_eq : (byEmail a b == .lt) = true ↔ _)) rows
  obtain ⟨first, kept, same, place⟩ := @exists_firsts _ _ _ Message.effectiveEmailId _ _ sorted m
    ((sliceStable_perm _ rows).mem_iff.mpr member)
  refine ⟨first, kept, same, ?_⟩
  rcases place with rfl | before
  · exact Nat.le_refl _
  · exact le_of_byEmail before same

theorem collapse_once (rows : List Message) :
    ((collapse rows).map Message.effectiveEmailId).Nodup :=
  firsts_nodup _ _

theorem collapse_length (rows : List Message) :
    (collapse rows).length = (rows.map Message.effectiveEmailId).dedup.length := by
  rw [collapse, firsts_length]
  exact (((sliceStable_perm _ rows).map Message.effectiveEmailId).dedup).length_eq

end Collapse

/-- The rows of a query that is collapsed to Emails and sorted by time, before the window. -/
def ranking (q : MsgQuery) (db : Database) : List Message :=
  sliceStable (fun a b => receivedDesc a b == .lt) (collapse (db.messages.filter q.whereClause))

theorem ranking_ranked (q : MsgQuery) {db : Database} (ids : (db.messages.map Message.id).Nodup) :
    Ranked (fun m => m ∈ db.messages ∧ q.whereClause m = true) (q.ranking db) := by
  have among : ∀ {m}, m ∈ q.ranking db ↔ m ∈ collapse (db.messages.filter q.whereClause) :=
    (sliceStable_perm _ _).mem_iff
  have once := collapse_once (db.messages.filter q.whereClause)
  refine ⟨fun m member => ?_, fun m member other matching same => ?_, fun m matching => ?_, ?_, ?_⟩
  · exact List.mem_filter.mp (collapse_subset (among.mp member))
  · obtain ⟨first, kept, email, lower⟩ := exists_collapse (List.mem_filter.mpr matching)
    have equal : first = m :=
      List.inj_on_of_nodup_map once kept (among.mp member) (email.trans same)
    rwa [← equal]
  · obtain ⟨first, kept, email, _⟩ := exists_collapse (List.mem_filter.mpr matching)
    exact List.mem_map.mpr ⟨first, among.mpr kept, email⟩
  · exact ((sliceStable_perm _ _).map _).nodup_iff.mpr once
  · have sorted := sliceStable_sorted transCmp_receivedDesc
      (fun a b : Message => (beq_iff_eq : (receivedDesc a b == .lt) = true ↔ _))
      (collapse (db.messages.filter q.whereClause))
    have distinct : (q.ranking db).Nodup :=
      (List.Nodup.of_map _ (((sliceStable_perm _ _).map _).nodup_iff.mpr once))
    refine (List.Pairwise.and sorted distinct).imp_of_mem fun {a b} left right both => ?_
    refine lt_of_receivedDesc both.1 fun same => both.2 ?_
    exact List.inj_on_of_nodup_map ids (List.mem_filter.mp (collapse_subset (among.mp left))).1
      (List.mem_filter.mp (collapse_subset (among.mp right))).1 same

/-- A page of such a query is a page of its rows, -/
theorem list_eq_page {q : MsgQuery} (distinct : q.distinct = true) (db : Database)
    {limit : Nat} {offset : Nat} (some_ : 0 < limit) :
    { q.sortReceivedDesc with limit := limit, offset := offset }.list db =
      page limit offset (q.ranking db) := by
  have skipped : (if offset > 0 then (q.ranking db).drop offset else q.ranking db) =
      (q.ranking db).drop offset := by
    by_cases zero : offset = 0
    · subst zero
      simp
    · rw [if_pos (by omega)]
  simp only [list, sortReceivedDesc, distinct, if_true, if_pos some_]
  rw [page, ← skipped]
  rfl

/-- and the count is the number of its rows. -/
theorem count_eq_length {q : MsgQuery} (distinct : q.distinct = true) (db : Database) :
    q.count db = (q.ranking db).length := by
  rw [ranking, (sliceStable_perm _ _).length_eq, collapse_length]
  simp only [count, distinct, if_true]

end MsgQuery

end OctoMail.Store
