import Mathlib.Data.List.Dedup
import OctoMail.Utf8

/-!
# The texts of the projections

`projection/fts.go` and `projection/threads.go`: two workers fold the messages of an account, one
into the text that a search reads, the other into threads and the columns of the message list. Each
batch is one transaction that ends by moving the account's cursor, so a statement that fails stops
the cursor for good. A text column takes valid UTF-8 without NUL, a tsvector less than a megabyte of
lexemes and positions, and an index row 2704 octets. The texts are made for the columns only: the
lexemes of a short text may be too many for a tsvector, and references are sent as they are.

Parsing a message is a library's, and what it gives for a message is arbitrary: a tree of parts, and
whether it failed. The octets of a reader are those before its end or its error. The text of a
search is built by a walk of the parts under one limit (`Indexed`).
-/

namespace OctoMail.Projection

open List Utf8

def maxSearchTextBytes : Nat := 512 * 1024

/-- What a text column takes. -/
def storable (text : Bytes) : Bool := valid text && !text.contains 0

variable {text : Bytes}

theorem storable_iff : storable text = true ↔ valid text = true ∧ 0 ∉ text := by
  rw [storable, Bool.and_eq_true, Bool.not_eq_true', contains_eq_mem, decide_eq_false_iff_not]

def toValidUTF8 (s : Bytes) : Bytes :=
  let s := if s.contains 0 then s.filter (· != 0) else s
  if valid s then s else toValid [] s

theorem filter_nul (s : Bytes) :
    (if s.contains 0 then s.filter (· != 0) else s) = s.filter (· != 0) := by
  split
  · rfl
  · rename_i free
    refine (filter_eq_self.mpr fun o member => ?_).symm
    rw [bne_iff_ne]
    rintro rfl
    exact free (contains_iff_mem.mpr member)

theorem storable_toValidUTF8 (s : Bytes) : storable (toValidUTF8 s) = true := by
  rw [storable_iff, toValidUTF8, filter_nul]
  have free : 0 ∉ s.filter (· != 0) := by simp
  split
  · rename_i sound
    exact ⟨sound, free⟩
  · refine ⟨valid_toValid (by decide), fun inside => ?_⟩
    rcases mem_toValid inside with nul | nul
    · exact free nul
    · cases nul

theorem toValidUTF8_of_storable {s : Bytes} (sound : storable s = true) : toValidUTF8 s = s := by
  obtain ⟨sound, free⟩ := storable_iff.mp sound
  have same : s.filter (· != 0) = s := by
    refine filter_eq_self.mpr fun o member => ?_
    rw [bne_iff_ne]
    rintro rfl
    exact free member
  rw [toValidUTF8, filter_nul, same, if_pos sound]

theorem length_toValidUTF8_le {s : Bytes} : (toValidUTF8 s).length ≤ s.length := by
  rw [toValidUTF8, filter_nul]
  have shorter := length_filter_le (· != 0) s
  split
  · exact shorter
  · exact Nat.le_trans (length_toValid_le (by decide)) shorter

def boundedSearchText (msgPrefix body : Bytes) : Bytes :=
  let data := msgPrefix ++ body
  let data := if maxSearchTextBytes < data.length then data.take maxSearchTextBytes else data
  toValidUTF8 (toValid [0x20] data)

theorem storable_boundedSearchText (msgPrefix body : Bytes) :
    storable (boundedSearchText msgPrefix body) = true := storable_toValidUTF8 _

theorem length_boundedSearchText_le (msgPrefix body : Bytes) :
    (boundedSearchText msgPrefix body).length ≤ maxSearchTextBytes := by
  refine Nat.le_trans (length_toValidUTF8_le) ?_
  refine Nat.le_trans (length_toValid_le (by decide)) ?_
  split
  · exact length_take_le _ _
  · rename_i short
    exact Nat.not_lt.mp short

theorem boundedSearchText_of_storable {msgPrefix body : Bytes}
    (sound : storable (msgPrefix ++ body) = true)
    (short : (msgPrefix ++ body).length ≤ maxSearchTextBytes) :
    boundedSearchText msgPrefix body = msgPrefix ++ body := by
  rw [boundedSearchText, if_neg (Nat.not_lt.mpr short),
    toValid_of_valid (storable_iff.mp sound).1, toValidUTF8_of_storable sound]

/-- Octets are dropped from the end until what is left is valid. -/
def shorten (s : Bytes) : Bytes := shortenFrom s.length s
where
  shortenFrom : Nat → Bytes → Bytes
    | 0, _ => []
    | n + 1, s => if valid (s.take (n + 1)) then s.take (n + 1) else shortenFrom n s

theorem shorten_valid (s : Bytes) : valid (shorten s) = true ∧ shorten s <+: s := by
  have general : ∀ n, valid (shorten.shortenFrom n s) = true ∧ shorten.shortenFrom n s <+: s := by
    intro n
    induction n with
    | zero => exact ⟨rfl, nil_prefix⟩
    | succ n ih =>
      rw [shorten.shortenFrom]
      split
      · rename_i sound
        exact ⟨sound, take_prefix _ _⟩
      · exact ih
  exact general _

/-! ### Parsed messages -/

structure Address where
  name : Bytes
  user : Bytes
  host : Bytes

structure Envelope where
  subject : Bytes
  from_ : List Address
  to_ : List Address
  cc : List Address
  bcc : List Address

/-- What is read of a part beside the parts in it. -/
structure PartInfo where
  envelope : Option Envelope
  mediaType : Bytes
  mediaSubType : Bytes
  header : Bytes
  filename : Bytes
  /-- `ReaderUTF8OrBinary`, which may be nil. -/
  reader : Option Bytes
  /-- `mailcontent.ReaderUTF8`. -/
  readerUTF8 : Bytes

/-- A part has parts, or it may be a message. -/
inductive Part where
  | mk (info : PartInfo) (parts : List Part) (message : Option Part)

def Part.info : Part → PartInfo
  | mk info _ _ => info

def Part.parts : Part → List Part
  | mk _ parts _ => parts

structure Library where
  /-- `message.EnsurePart`, with whether it failed. -/
  ensurePart : Bytes → Part × Bool
  equalFold : Bytes → Bytes → Bool
  /-- `mail.ReadMessage`: the values of header fields by name. -/
  readMessage : Bytes → Option (String → Bytes)
  messageIDCanonical : Bytes → Option Bytes

def ascii (text : String) : Bytes := encodeAll text.toList

def space : Bytes := [0x20]

def addrDisplay (as : List Address) : Bytes :=
  space.intercalate (as.map (fun a => a.user ++ ascii "@" ++ a.host))

def addrSearch (as : List Address) : Bytes :=
  space.intercalate (as.map (fun a =>
    let s := a.user ++ ascii "@" ++ a.host
    if a.name = [] then s else a.name ++ space ++ s))

/-- The characters that stand in no tag, from a depth. -/
def outsideTags : Nat → List Char → List Char
  | _, [] => []
  | depth, r :: rest =>
      if r = '<' then outsideTags (depth + 1) rest
      else if r = '>' then outsideTags (depth - 1) rest
      else if depth = 0 then r :: outsideTags depth rest
      else outsideTags depth rest

def stripHTMLTags (s : Bytes) : Bytes := encodeAll (outsideTags 0 ((pieces s).map Piece.rune))

section Extraction

variable (library : Library)

/-- A part whose media type is another one than text. -/
def PartInfo.skipped (info : PartInfo) : Bool :=
  !library.equalFold info.mediaType (ascii "TEXT") && info.mediaType != []

def PartInfo.isHTML (info : PartInfo) : Bool := library.equalFold info.mediaSubType (ascii "HTML")

/-! ### The text of a search -/

/-- As much of a value as there is room for. -/
def cutText (value : Bytes) (remaining : Nat) : Bytes :=
  let value := toValidUTF8 value
  if remaining < value.length then shorten (value.take remaining) else value

/-- `appendText` of `extractSearchText`. -/
def appendText (data value : Bytes) : Bytes :=
  if maxSearchTextBytes ≤ data.length then data
  else
    let data := data ++ cutText value (maxSearchTextBytes - data.length)
    if data.length < maxSearchTextBytes then data ++ ascii "\n" else data

/-- Text that can be stored, within the limit. -/
structure Indexed where
  text : Bytes
  stored : storable text = true
  fits : text.length ≤ maxSearchTextBytes

theorem storable_append {first second : Bytes} (left : storable first = true)
    (right : storable second = true) : storable (first ++ second) = true := by
  obtain ⟨sound, free⟩ := storable_iff.mp left
  obtain ⟨sound', free'⟩ := storable_iff.mp right
  refine storable_iff.mpr ⟨valid_append sound sound', fun inside => ?_⟩
  exact (mem_append.mp inside).elim free free'

theorem cutText_storable (value : Bytes) (remaining : Nat) :
    storable (cutText value remaining) = true ∧ (cutText value remaining).length ≤ remaining := by
  have stored := storable_toValidUTF8 value
  unfold cutText
  simp only
  split
  · obtain ⟨sound, before⟩ := shorten_valid ((toValidUTF8 value).take remaining)
    refine ⟨storable_iff.mpr ⟨sound, fun inside => ?_⟩, ?_⟩
    · exact (storable_iff.mp stored).2 (mem_of_mem_take (before.subset inside))
    · exact Nat.le_trans before.length_le (length_take_le _ _)
  · rename_i short
    exact ⟨stored, Nat.not_lt.mp short⟩

theorem appendText_indexed {data : Bytes} (stored : storable data = true)
    (fits : data.length ≤ maxSearchTextBytes) (value : Bytes) :
    storable (appendText data value) = true ∧
      (appendText data value).length ≤ maxSearchTextBytes := by
  have newline : storable (ascii "\n") = true ∧ (ascii "\n").length = 1 := by decide
  obtain ⟨cutStored, cutFits⟩ := cutText_storable value (maxSearchTextBytes - data.length)
  have both := storable_append stored cutStored
  unfold appendText
  simp only
  split
  · exact ⟨stored, fits⟩
  split
  · rename_i room
    refine ⟨storable_append both newline.1, ?_⟩
    rw [length_append, newline.2]
    exact room
  · refine ⟨both, ?_⟩
    rw [length_append]
    omega

def Indexed.append (data : Indexed) (value : Bytes) : Indexed where
  text := appendText data.text value
  stored := (appendText_indexed data.stored data.fits value).1
  fits := (appendText_indexed data.stored data.fits value).2

def Indexed.remaining (data : Indexed) : Nat := maxSearchTextBytes - data.text.length

def appendBody (info : PartInfo) (data : Indexed) : Indexed :=
  if info.skipped library then data
  else
    match info.reader with
    | none => data
    | some content =>
        let decoded := content.take (data.remaining + 1)
        data.append (if info.isHTML library then stripHTMLTags decoded else decoded)

mutual

/-- `walk` of `extractSearchText`. -/
def walk : Part → Indexed → Indexed
  | .mk info parts message, data =>
      if maxSearchTextBytes ≤ data.text.length then data
      else
        let data := data.append (info.header.take (data.remaining + 1))
        let data := data.append info.filename
        if parts.isEmpty then walkMessage info message data else walkParts parts data

def walkParts : List Part → Indexed → Indexed
  | [], data => data
  | part :: rest, data => walkParts rest (walk part data)

def walkMessage (info : PartInfo) : Option Part → Indexed → Indexed
  | some inner, data => walk inner data
  | none, data => appendBody library info data

end

def rawMessageBody (raw : Bytes) : Bytes :=
  (raw.dropInfix? [13, 10, 13, 10]).elim
    ((raw.dropInfix? [10, 10]).elim raw (fun found => found.2)) (fun found => found.2)

def Envelope.texts (env : Envelope) : List Bytes :=
  [env.subject, addrSearch env.from_, addrSearch env.to_, addrSearch env.cc, addrSearch env.bcc]

/-- The text collected from the parts, and from the source where parsing failed. -/
def collectText (raw : Bytes) (part : Part) (failed : Bool) : Indexed :=
  let data : Indexed := ⟨[], by decide, Nat.zero_le _⟩
  let data := (part.info.envelope.elim [] Envelope.texts).foldl Indexed.append data
  let data := walk library part data
  if failed ∧ 0 < data.remaining then data.append ((rawMessageBody raw).take data.remaining)
  else data

def extractSearchText (raw : Bytes) : Bytes :=
  let (part, failed) := library.ensurePart raw
  if failed ∧ part.info.envelope.isNone ∧ part.parts.isEmpty then boundedSearchText [] raw
  else
    let data := collectText library raw part failed
    if data.text = [] then boundedSearchText [] raw else boundedSearchText [] data.text

/-- The text built by the walk is passed on as it is. -/
theorem Indexed.bounded (data : Indexed) : boundedSearchText [] data.text = data.text :=
  boundedSearchText_of_storable data.stored data.fits

theorem extractSearchText_indexed (raw : Bytes) :
    storable (extractSearchText library raw) = true ∧
      (extractSearchText library raw).length ≤ maxSearchTextBytes := by
  have fallback : storable (boundedSearchText [] raw) = true ∧
      (boundedSearchText [] raw).length ≤ maxSearchTextBytes :=
    ⟨storable_boundedSearchText [] raw, length_boundedSearchText_le [] raw⟩
  unfold extractSearchText
  simp only
  split
  · exact fallback
  · split
    · exact fallback
    · rw [Indexed.bounded]
      exact ⟨Indexed.stored _, Indexed.fits _⟩

/-! ### The columns of a message list -/

mutual

/-- `walk` of `previewOf`: the first text found and the first HTML. -/
def previewWalk : Part → Bytes × Bytes → Bytes × Bytes
  | .mk info parts _, (text, html) =>
      if !parts.isEmpty then previewWalkParts parts (text, html)
      else if info.skipped library then (text, html)
      else
        let body := toValid [] info.readerUTF8
        if info.isHTML library then (text, if html = [] then body else html)
        else (if text = [] then body else text, html)

def previewWalkParts : List Part → Bytes × Bytes → Bytes × Bytes
  | [], found => found
  | part :: rest, found => previewWalkParts rest (previewWalk part found)

end

def previewOf (part : Part) : Bytes :=
  let (text, html) := previewWalk library part ([], [])
  let s := if text = [] then stripHTMLTags html else text
  let s := space.intercalate (fields s)
  if 140 < s.length then shorten (s.take 140) else s

structure MsgSummary where
  subject : Bytes := []
  from_ : Bytes := []
  to_ : Bytes := []
  fromSearch : Bytes := []
  toSearch : Bytes := []
  preview : Bytes := []

/-- The texts of the UPDATE. -/
def MsgSummary.texts (sum : MsgSummary) : List Bytes :=
  [sum.subject, sum.from_, sum.to_, sum.fromSearch, sum.toSearch, sum.preview]

/-- `splitIDs`, with the token that is open. -/
def splitIDs : Option Bytes → Bytes → List Bytes
  | _, [] => []
  | none, o :: rest => splitIDs (if o = 0x3C then some [o] else none) rest
  | some token, o :: rest =>
      if o = 0x3E then (token ++ [o]) :: splitIDs none rest else splitIDs (some (token ++ [o])) rest

/-- The references of one header value that were not seen before. -/
def addReferences (refs : List Bytes) (raw : Bytes) : List Bytes :=
  ((splitIDs none raw).filterMap library.messageIDCanonical).foldl (fun refs c =>
    if c = [] ∨ c ∈ refs then refs else refs ++ [c]) refs

/-- Why a body was not read: it is missing or its name is bad, or reading failed. -/
inductive BlobError where
  | permanent
  | transient
deriving DecidableEq, Repr

def summaryOf (full : Bytes) : MsgSummary :=
  let (part, failed) := library.ensurePart full
  if !failed ∨ part.info.envelope.isSome then
    let sum : MsgSummary := part.info.envelope.elim {} (fun env =>
      { subject := env.subject, from_ := addrDisplay env.from_, to_ := addrDisplay env.to_
        fromSearch := addrSearch env.from_, toSearch := addrSearch env.to_ })
    { sum with preview := previewOf library part }
  else {}

def parseMessage (blob : Except BlobError Bytes) (msgPrefix : Bytes) :
    Except BlobError (List Bytes × MsgSummary) := do
  let body ← blob
  let full := msgPrefix ++ body
  let refs := (library.readMessage full).elim [] (fun get =>
    [get "Message-Id", get "In-Reply-To", get "References"].foldl (addReferences library) [])
  let sum := summaryOf library full
  return (refs, {
    subject := toValidUTF8 sum.subject, from_ := toValidUTF8 sum.from_, to_ := toValidUTF8 sum.to_
    fromSearch := toValidUTF8 sum.fromSearch, toSearch := toValidUTF8 sum.toSearch
    preview := toValidUTF8 sum.preview })

theorem parseMessage_storable {blob : Except BlobError Bytes} {msgPrefix : Bytes}
    {refs : List Bytes} {sum : MsgSummary}
    (parsed : parseMessage library blob msgPrefix = .ok (refs, sum)) :
    ∀ text ∈ sum.texts, storable text = true := by
  cases blob with
  | error failure => cases parsed
  | ok body =>
    obtain ⟨_, rfl⟩ := Prod.mk.inj (Except.ok.inj parsed)
    simp only [MsgSummary.texts, forall_mem_cons, storable_toValidUTF8, true_and]
    exact fun _ none_ => absurd none_ not_mem_nil

/-! ### The workers -/

structure Row where
  seq : Nat
  blob : Except BlobError Bytes
  msgPrefix : Bytes

/-- What the workers' statements depend on beside the octets of a text: the lexemes that
`to_tsvector('simple', _)` finds in it, each with the number of its positions, and the octets that
an index row of `thread_refs` needs for a reference. -/
structure Postgres where
  lexemes : Bytes → List (Bytes × Nat)
  indexRow : Bytes → Nat

/-- The octets of a tsvector. Behind each lexeme, aligned at two octets, stand the number of its
positions and the positions, two octets each. -/
def tsvectorSize (lexemes : List (Bytes × Nat)) : Nat :=
  lexemes.foldl (fun size lexeme => (size + lexeme.1.length + 1) / 2 * 2 + 2 + 2 * lexeme.2) 0

def maxTsvector : Nat := 1048575

def maxIndexRow : Nat := 2704

/-- The statements with texts in them. The UPDATE that merges threads has numbers only. -/
inductive Statement where
  | upsertText (text : Bytes)
  | selectThreads (refs : List Bytes)
  | insertRef (ref : Bytes)
  | updateSummary (sum : MsgSummary)

def Postgres.accepts (db : Postgres) : Statement → Bool
  | .upsertText text => storable text && decide (tsvectorSize (db.lexemes text) ≤ maxTsvector)
  | .selectThreads refs => refs.all storable
  | .insertRef ref => storable ref && decide (db.indexRow ref ≤ maxIndexRow)
  | .updateSummary sum => sum.texts.all storable

/-- Where a batch leaves the cursor: at its highest position. -/
def highest (cursor : Nat) (rows : List Row) : Nat := (rows.map Row.seq).foldl max cursor

/-- A batch: every message is read, then one transaction executes the statements for what was read
and moves the cursor. Without a result the cursor stays where it is. -/
def foldBatch (db : Postgres) (read : Row → Except BlobError (List Statement)) (cursor : Nat)
    (rows : List Row) : Option Nat :=
  match rows.mapM read with
  | .error _ => none
  | .ok items => if items.flatten.all db.accepts then some (highest cursor rows) else none

def readText (maxMessageSize : Int) (row : Row) : Except BlobError Bytes :=
  match row.blob with
  | .error .permanent => .ok (boundedSearchText row.msgPrefix [])
  | .error .transient => .error .transient
  | .ok body =>
      let maxSource := if maxMessageSize ≤ 0 then 50 * 1024 * 1024 else maxMessageSize
      .ok (extractSearchText library (row.msgPrefix ++ body.take maxSource.toNat))

def indexFTSBatch (db : Postgres) (maxMessageSize : Int) : Nat → List Row → Option Nat :=
  foldBatch db (fun row =>
    (readText library maxMessageSize row).map (fun text => [.upsertText text]))

/-- The threads that share a reference are looked up, and the references are recorded. -/
def assignThread (refs : List Bytes) : List Statement :=
  (if refs.isEmpty then [] else [.selectThreads refs]) ++ refs.map .insertRef

/-- What the thread worker executes for a message. One whose body is gone gets an empty summary. -/
def readItem (row : Row) : Except BlobError (List Statement) :=
  match parseMessage library row.blob row.msgPrefix with
  | .ok (refs, sum) => .ok (assignThread refs ++ [.updateSummary sum])
  | .error .permanent => .ok [.updateSummary {}]
  | .error .transient => .error .transient

/-- `RunOnceAccount` of the thread worker. -/
def runOnceAccount (db : Postgres) : Nat → List Row → Option Nat := foldBatch db (readItem library)

variable {cursor : Nat} {db : Postgres} {rows : List Row}

/-- The cursor moves exactly if every message can be read and its statements are accepted. -/
theorem foldBatch_iff {read : Row → Except BlobError (List Statement)} :
    foldBatch db read cursor rows = some (highest cursor rows) ↔
      ∀ row ∈ rows, ∃ statements, read row = .ok statements ∧
        statements.all db.accepts = true := by
  have all : (∃ items, rows.mapM read = .ok items ∧ items.flatten.all db.accepts = true) ↔
      ∀ row ∈ rows, ∃ statements, read row = .ok statements ∧
        statements.all db.accepts = true := by
    induction rows with
    | nil => exact ⟨fun _ _ member => absurd member not_mem_nil, fun _ => ⟨[], rfl, rfl⟩⟩
    | cons row rest ih =>
      rw [forall_mem_cons, ← ih, mapM_cons]
      cases read row with
      | error failure => simp [bind, Except.bind]
      | ok statements => cases rest.mapM read <;> simp [bind, Except.bind, pure, Except.pure]
  rw [← all, foldBatch]
  cases rows.mapM read with
  | error failure | ok items => simp

theorem readText_storable {maxMessageSize : Int} {row : Row}
    (found : readText library maxMessageSize row = .ok text) : storable text = true := by
  unfold readText at found
  split at found
  · obtain rfl := Except.ok.inj found
    exact storable_boundedSearchText _ _
  · cases found
  · obtain rfl := Except.ok.inj found
    exact (extractSearchText_indexed library _).1

/-- The search worker: the columns take every text, and so a batch depends on tsvectors only. -/
theorem indexFTSBatch_iff {maxMessageSize : Int}
    (readable : ∀ row ∈ rows, row.blob ≠ .error .transient) :
    indexFTSBatch library db maxMessageSize cursor rows = some (highest cursor rows) ↔
      ∀ row ∈ rows, ∀ text, readText library maxMessageSize row = .ok text →
        tsvectorSize (db.lexemes text) ≤ maxTsvector := by
  rw [indexFTSBatch, foldBatch_iff]
  refine forall₂_congr fun row member => ?_
  cases found : readText library maxMessageSize row with
  | error failure =>
    refine absurd ?_ (readable row member)
    unfold readText at found
    split at found <;> simp_all
  | ok text =>
    simp [Except.map, Postgres.accepts, readText_storable library found]

theorem assignThread_accepted {refs : List Bytes} :
    (assignThread refs).all db.accepts = true ↔
      ∀ ref ∈ refs, storable ref = true ∧ db.indexRow ref ≤ maxIndexRow := by
  have recorded : (refs.map Statement.insertRef).all db.accepts = true ↔
      ∀ ref ∈ refs, storable ref = true ∧ db.indexRow ref ≤ maxIndexRow := by
    simp [Postgres.accepts]
  rw [assignThread, all_append, Bool.and_eq_true, recorded]
  refine ⟨And.right, fun fit => ⟨?_, fit⟩⟩
  split
  · rfl
  · simpa [Postgres.accepts] using fun ref member => (fit ref member).1

/-- The thread worker: a batch depends on the references only. -/
theorem runOnceAccount_iff (readable : ∀ row ∈ rows, row.blob ≠ .error .transient) :
    runOnceAccount library db cursor rows = some (highest cursor rows) ↔
      ∀ row ∈ rows, ∀ refs sum, parseMessage library row.blob row.msgPrefix = .ok (refs, sum) →
        ∀ ref ∈ refs, storable ref = true ∧ db.indexRow ref ≤ maxIndexRow := by
  rw [runOnceAccount, foldBatch_iff]
  refine forall₂_congr fun row member => ?_
  cases parsed : parseMessage library row.blob row.msgPrefix with
  | error failure =>
    cases failure with
    | permanent => simp [readItem, parsed, Postgres.accepts, MsgSummary.texts, show
        storable [] = true from rfl]
    | transient =>
      refine absurd ?_ (readable row member)
      cases blob : row.blob with
      | error failure =>
        rw [blob] at parsed
        rw [Except.error.inj parsed]
      | ok body =>
        rw [blob] at parsed
        cases parsed
  | ok found =>
    obtain ⟨refs, sum⟩ := found
    have texts : sum.texts.all storable = true :=
      all_eq_true.mpr (parseMessage_storable library parsed)
    simp only [readItem, parsed, Except.ok.injEq, exists_eq_left', all_append,
      all_cons, all_nil, Bool.and_true, assignThread_accepted, Postgres.accepts, texts,
      Prod.mk.injEq, and_imp]
    exact ⟨fun fit _ _ same _ => same ▸ fit, fun fit => fit refs sum rfl rfl⟩

/-- Whatever the parser makes of a message, the text indexed for it can be stored and is within
the limit, and so can be the columns of its summary. Where the bodies can be read, the search worker
moves its cursor exactly if the lexemes of every text fit a tsvector, and the thread worker exactly
if every reference can be stored and fits an index row. -/
theorem indexed_text_storable (library : Library) :
    (∀ raw, storable (extractSearchText library raw) = true ∧
      (extractSearchText library raw).length ≤ maxSearchTextBytes) ∧
    (∀ msgPrefix body, storable (msgPrefix ++ body) = true →
      (msgPrefix ++ body).length ≤ maxSearchTextBytes →
      boundedSearchText msgPrefix body = msgPrefix ++ body) ∧
    (∀ blob msgPrefix refs sum, parseMessage library blob msgPrefix = .ok (refs, sum) →
      ∀ text ∈ sum.texts, storable text = true) ∧
    ∀ db cursor rows, (∀ row ∈ rows, row.blob ≠ .error .transient) →
      (∀ maxMessageSize,
        indexFTSBatch library db maxMessageSize cursor rows = some (highest cursor rows) ↔
          ∀ row ∈ rows, ∀ text, readText library maxMessageSize row = .ok text →
            tsvectorSize (db.lexemes text) ≤ maxTsvector) ∧
      (runOnceAccount library db cursor rows = some (highest cursor rows) ↔
        ∀ row ∈ rows, ∀ refs sum, parseMessage library row.blob row.msgPrefix = .ok (refs, sum) →
          ∀ ref ∈ refs, storable ref = true ∧ db.indexRow ref ≤ maxIndexRow) :=
  ⟨extractSearchText_indexed library, fun _ _ => boundedSearchText_of_storable,
    fun _ _ _ _ => parseMessage_storable library, fun _ _ _ readable =>
      ⟨fun _ => indexFTSBatch_iff library readable, runOnceAccount_iff library readable⟩⟩

end Extraction

/-! ### A message that stops a cursor -/

/-- A parser that finds no parts, and one header field. -/
def headLibrary : Library where
  ensurePart raw := (.mk ⟨none, [], [], [], [], some raw, raw⟩ [] none, true)
  equalFold first second := first == second
  readMessage raw := some (fun name =>
    ((raw.dropPrefix? (ascii (name ++ ": "))).map (·.takeWhile (· != 13))).getD [])
  messageIDCanonical token := some (token.drop 1).dropLast

/-- The words of a text of small letters, hyphens and blanks; a compound comes with its parts. -/
def wordsOf (text : Bytes) : List Bytes :=
  ((text.splitOn 0x20).filter (· != [])).flatMap (fun word =>
    if word.contains 0x2D then word :: word.splitOn 0x2D else [word])

/-- The `simple` configuration for such texts. References are kept as they are. -/
def simple : Postgres where
  lexemes text := (wordsOf text).dedup.map (fun word => (word, min 255 ((wordsOf text).count word)))
  indexRow ref := 20 + ref.length

/-- A reference with a NUL in it stops the thread worker. -/
theorem cursor_stopped :
    runOnceAccount headLibrary simple 0
      [⟨1, .ok (ascii "Message-Id: <a\x00b>\r\n\r\n"), []⟩] = none := by
  decide +kernel

/-- Characters of several octets are kept, and a reference without NUL is folded. -/
theorem several_octets_kept :
    boundedSearchText [] (ascii "né à Łódź") = ascii "né à Łódź" ∧
      runOnceAccount headLibrary simple 0 [⟨1, .ok (ascii "Message-Id: <é@x>\r\n\r\n"), []⟩] =
        some 1 := by
  have storing := indexed_text_storable headLibrary
  refine ⟨storing.2.1 [] _ (by decide +kernel) (by decide +kernel), ?_⟩
  refine (storing.2.2.2 simple 0 [⟨1, .ok (ascii "Message-Id: <é@x>\r\n\r\n"), []⟩]
    (by simp)).2.mpr ?_
  intro row member refs sum parsed
  obtain rfl := mem_singleton.mp member
  have here : (parseMessage headLibrary (.ok (ascii "Message-Id: <é@x>\r\n\r\n")) []).toOption.map
      Prod.fst = some [ascii "é@x"] := by decide +kernel
  rw [parsed] at here
  cases here
  decide +kernel

end OctoMail.Projection
