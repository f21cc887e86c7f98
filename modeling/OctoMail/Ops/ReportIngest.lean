import Mathlib.Algebra.Group.Nat.Defs
import OctoMail.TextLines

/-!
# Ingesting reports

`ops/reportdb`: a report arrives as an attachment of a message. `IngestMessage` walks the MIME tree,
decompresses each leaf under a budget of octets and streams for the whole message, and stores the
first payload that is a report about an owned domain. Parsing a message and a report, gzip and zip
are the library's; a stream is the octets it decodes to and whether it then breaks. An INSERT may
fail, and stores nothing then.

What is read, held and stored is kept in a log. The walk is compared with the list of its steps
(`steps`): a step fails or succeeds for itself, but a stream that breaks ends the walk as an
exceeded budget does.
-/

namespace OctoMail.Ops.ReportIngest

open List TextLines Function

abbrev Bytes := TextLines.Bytes

def maxReportBytes : Nat := 50 * 2 ^ 20

def maxTotalReportBytes : Nat := 100 * 2 ^ 20

def maxReportMembers : Nat := 128

/-! ### Messages and reports -/

structure Stream where
  data : Bytes
  broken : Bool := false
deriving DecidableEq, Repr

/-- A part of a message: its decoded body, and the parts within it. -/
inductive Part where
  | mk (reader : Stream) (parts : List Part)

/-- A member of an archive; opening it may fail. -/
structure Member where
  directory : Bool
  name : Bytes
  content : Option Stream

inductive Kind where
  | dmarc
  | tlsrpt
deriving DecidableEq, Repr

structure Record where
  count : Int
  dkimPass : Bool
  spfPass : Bool

structure Feedback where
  domain : String
  orgName : String
  reportID : String
  begin_ : Int
  end_ : Int
  records : List Record

structure Policy where
  domain : String
  successful : Int
  failed : Int

structure TLSReport where
  orgName : String
  reportID : String
  policies : List Policy

/-- A row of one of the two tables; the dates are those of a DMARC report. -/
structure Row where
  kind : Kind
  domain : String
  orgName : String
  reportID : String
  dates : Option (Int × Int)
  passed : Int
  failed : Int
deriving DecidableEq, Repr

structure Library where
  /-- `EnsurePart`; nothing if there is not even a media type. -/
  ensurePart : Bytes → Option Part
  /-- `gzip.NewReader`. -/
  gunzip : Bytes → Option Stream
  /-- `zip.NewReader`. -/
  unzip : Bytes → Option (List Member)
  parseDMARC : Bytes → Option Feedback
  parseTLSRPT : Bytes → Option TLSReport

inductive Failure where
  | unparsed
  | tooLarge
  | unreadable
  | badReport
  | notOwned
  | notStored
  | empty
  | unrecognized (first : UInt8)
  | noReport
deriving DecidableEq, Repr

/-! ### The state of a call -/

/-- A leaf's body, or what one gzip stream or one member of an archive holds. -/
inductive Place where
  | leaf
  | stream
deriving DecidableEq, Repr

inductive Event where
  /-- So many octets were taken from a stream, and it was returned or refused. -/
  | read (place : Place) (taken : Nat) (returned : Bool)
  /-- The octets of a stream that was returned are no longer held. -/
  | dropped (place : Place)
  | stored (row : Row)
deriving DecidableEq, Repr

structure State where
  bytesLeft : Nat := maxTotalReportBytes
  membersLeft : Nat := maxReportMembers
  firstErr : Option Failure := none
  rows : List Row
  /-- The number of INSERTs that were tried. -/
  inserts : Nat := 0
  log : List Event := []
deriving DecidableEq, Repr

def State.record (st : State) (event : Event) : State := { st with log := st.log ++ [event] }

/-- The node: whether it serves a domain, where that is checked, and which INSERTs fail. -/
structure Node where
  owned : Option (String → Bool)
  insertFails : Nat → Bool

abbrev Outcome := Except Failure (Option Kind)

/-! ### Reports -/

/-- A sum in an int64, which wraps. -/
def sum64 (counts : List Int) : Int := counts.foldl (fun sum n => (sum + n).bmod (2 ^ 64)) 0

def dmarcRow (fb : Feedback) : Row :=
  let count (passes : Bool) : Int :=
    sum64 ((fb.records.filter (fun rec_ => (rec_.dkimPass || rec_.spfPass) == passes)).map
      Record.count)
  ⟨.dmarc, fb.domain, fb.orgName, fb.reportID, some (fb.begin_, fb.end_), count true, count false⟩

def tlsRow (report : TLSReport) : Row :=
  ⟨.tlsrpt, ((report.policies.map Policy.domain).find? (· != "")).getD "", report.orgName,
    report.reportID, none, sum64 (report.policies.map Policy.successful),
    sum64 (report.policies.map Policy.failed)⟩

/-- `ON CONFLICT (org_name, report_id) DO NOTHING`, in the table of the kind. -/
def Row.sameKey (first second : Row) : Bool :=
  first.kind == second.kind && first.orgName == second.orgName && first.reportID == second.reportID

def insertRow (rows : List Row) (row : Row) : List Row :=
  if rows.any (fun other => other.sameKey row) then rows else rows ++ [row]

section Ingest

variable (lib : Library) (node : Node)

/-- The rest of `ingestDMARC` and of `ingestTLSRPT` once the report is parsed. -/
def ingestRow (parsed : Option Row) (st : State) : Except Failure Kind × State :=
  match parsed with
  | none => (.error .badReport, st)
  | some row =>
      if node.owned.any (fun owned => !owned row.domain) then (.error .notOwned, st)
      else if node.insertFails st.inserts then
        (.error .notStored, { st with inserts := st.inserts + 1 })
      else
        (.ok row.kind, { st with
          inserts := st.inserts + 1, rows := insertRow st.rows row,
          log := st.log ++ [.stored row] })

def ingestDMARC (xml : Bytes) : State → Except Failure Kind × State :=
  ingestRow node ((lib.parseDMARC xml).map dmarcRow)

def ingestTLSRPT (json : Bytes) : State → Except Failure Kind × State :=
  ingestRow node ((lib.parseTLSRPT json).map tlsRow)

/-- The payload without a byte order mark and blanks in front of it. -/
def trimmed (body : Bytes) : Bytes :=
  (if [0xEF, 0xBB, 0xBF].isPrefixOf body then body.drop 3 else body).dropWhile
    (fun c => c == 32 || c == 9 || c == cr || c == lf)

def ingestPayload (body : Bytes) (st : State) : Except Failure Kind × State :=
  match trimmed body with
  | [] => (.error .empty, st)
  | first :: _ =>
      if first = 60 then ingestDMARC lib node body st
      else if first = 123 then ingestTLSRPT lib node body st
      else (.error (.unrecognized first), st)

/-- The closure `try` of `ingestCandidates`: only a success ends the walk. -/
def tryPayload (payload : Bytes) (st : State) : Outcome × State :=
  match ingestPayload lib node payload st with
  | (.ok kind, st) => (.ok (some kind), st)
  | (.error err, st) => (.ok none, { st with firstErr := st.firstErr <|> some err })

/-! ### Streams -/

def readCapped (place : Place) (r : Stream) (st : State) : Except Failure Bytes × State :=
  if st.membersLeft = 0 then (.error .tooLarge, st)
  else
    let limit := min maxReportBytes st.bytesLeft
    -- The limited reader stops one octet behind the limit, before it sees that the stream breaks.
    let data := r.data.take (limit + 1)
    let st := { st with membersLeft := st.membersLeft - 1 }
    if limit < data.length then (.error .tooLarge, st.record (.read place data.length false))
    else if r.broken then (.error .unreadable, st.record (.read place data.length false))
    else
      (.ok data, { st with
        bytesLeft := st.bytesLeft - data.length
        log := st.log ++ [.read place data.length true] })

/-- Read a stream, use its octets unless there are none, and drop them. -/
def withStream (place : Place) (r : Stream) (use : Bytes → State → Outcome × State) (st : State) :
    Outcome × State :=
  match readCapped place r st with
  | (.error err, st) => (.error err, st)
  | (.ok data, st) =>
      match (if data.isEmpty then (.ok none, st) else use data st) with
      | (.ok none, st) => (.ok none, st.record (.dropped place))
      | result => result

/-- One decompressed stream. -/
def ingestStream (r : Stream) : State → Outcome × State :=
  withStream .stream r (tryPayload lib node)

/-- The loop over the members of an archive. -/
def ingestMembers : List Member → State → Outcome × State
  | [], st => (.ok none, st)
  | f :: files, st =>
      if f.directory || f.name.getLast? == some 47 then ingestMembers files st
      else
        match f.content with
        | none => ingestMembers files st
        | some rc =>
            match ingestStream lib node rc st with
            | (.ok none, st) => ingestMembers files st
            | result => result

def isGzip (body : Bytes) : Bool := [0x1f, 0x8b].isPrefixOf body

def isZip (body : Bytes) : Bool := [80, 75, 3, 4].isPrefixOf body

def ingestCandidates (body : Bytes) (st : State) : Outcome × State :=
  if isGzip body then
    match lib.gunzip body with
    | none => (.ok none, st)
    | some zr => ingestStream lib node zr st
  else if isZip body then
    match lib.unzip body with
    | none => (.ok none, st)
    | some files => ingestMembers lib node files st
  else tryPayload lib node body st

/-- `walkPayloads` for a part without parts. -/
def walkLeaf (reader : Stream) : State → Outcome × State :=
  withStream .leaf reader (ingestCandidates lib node)

mutual

def walkPayloads : Part → State → Outcome × State
  | .mk reader [], st => walkLeaf lib node reader st
  | .mk _ (part :: parts), st =>
      match walkPayloads part st with
      | (.ok none, st) => walkParts parts st
      | result => result

def walkParts : List Part → State → Outcome × State
  | [], st => (.ok none, st)
  | part :: parts, st =>
      match walkPayloads part st with
      | (.ok none, st) => walkParts parts st
      | result => result

end

def ingestMessage (raw : Bytes) (rows : List Row) : Except Failure Kind × State :=
  match lib.ensurePart raw with
  | none => (.error .unparsed, { rows := rows })
  | some part =>
      match walkPayloads lib node part { rows := rows } with
      | (.error err, st) => (.error err, st)
      | (.ok (some kind), st) => (.ok kind, st)
      | (.ok none, st) => (.error (st.firstErr.getD .noReport), st)

end Ingest

/-! ### Acceptable reports -/

section Accepted

variable (lib : Library) (node : Node)

/-- The report that a payload holds. -/
def reportRow (body : Bytes) : Option Row :=
  match trimmed body with
  | [] => none
  | first :: _ =>
      if first = 60 then (lib.parseDMARC body).map dmarcRow
      else if first = 123 then (lib.parseTLSRPT body).map tlsRow
      else none

/-- The report that a payload holds, if it is about an owned domain. -/
def accepted (body : Bytes) : Option Row :=
  (reportRow lib body).filter (fun row => !node.owned.any (fun owned => !owned row.domain))

variable {lib node}

theorem ingestPayload_eq {body : Bytes} {row : Row} (holds : reportRow lib body = some row)
    (st : State) : ingestPayload lib node body st = ingestRow node (some row) st := by
  unfold reportRow at holds
  unfold ingestPayload
  split at holds
  · cases holds
  split at holds
  · rw [if_pos ‹_›, ingestDMARC, holds]
  · rw [if_neg ‹_›]
    split at holds
    · rw [if_pos ‹_›, ingestTLSRPT, holds]
    · cases holds

theorem ingestPayload_none {body : Bytes} (none_ : reportRow lib body = none) (st : State) :
    ∃ err, ingestPayload lib node body st = (.error err, st) := by
  unfold reportRow at none_
  unfold ingestPayload
  split at none_
  · exact ⟨_, rfl⟩
  split at none_
  · rw [if_pos ‹_›, ingestDMARC, none_]
    exact ⟨_, rfl⟩
  rw [if_neg ‹_›]
  split at none_
  · rw [if_pos ‹_›, ingestTLSRPT, none_]
    exact ⟨_, rfl⟩
  · rw [if_neg ‹_›]
    exact ⟨_, rfl⟩

/-- A payload that is not accepted leaves the walk as it was, but for the first error. -/
theorem tryPayload_refused {payload : Bytes} (refused : accepted lib node payload = none)
    (st : State) :
    ∃ first, tryPayload lib node payload st = (.ok none, { st with firstErr := first }) := by
  cases holds : reportRow lib payload with
  | none =>
    obtain ⟨err, failed⟩ := @ingestPayload_none lib node payload holds st
    rw [tryPayload, failed]
    exact ⟨_, rfl⟩
  | some row =>
    rw [accepted, holds, Option.filter_some, ite_eq_right_iff] at refused
    have foreign : node.owned.any (fun owned => !owned row.domain) = true := by
      by_contra other
      exact absurd (refused (by simpa using other)) (Option.some_ne_none row)
    rw [tryPayload, ingestPayload_eq holds, ingestRow, if_pos foreign]
    exact ⟨_, rfl⟩

theorem tryPayload_accepted {payload : Bytes} {row : Row}
    (found : accepted lib node payload = some row) (st : State) :
    tryPayload lib node payload st =
      if node.insertFails st.inserts then
        (.ok none, { st with
          inserts := st.inserts + 1, firstErr := st.firstErr <|> some .notStored })
      else
        (.ok (some row.kind), { st with
          inserts := st.inserts + 1, rows := insertRow st.rows row
          log := st.log ++ [.stored row] }) := by
  rw [accepted, Option.filter_eq_some_iff] at found
  obtain ⟨holds, own⟩ := found
  rw [Bool.not_eq_true'] at own
  rw [tryPayload, ingestPayload_eq holds, ingestRow, own, if_neg Bool.false_ne_true]
  by_cases fails : node.insertFails st.inserts = true
  · rw [if_pos fails, if_pos fails]
  · rw [if_neg fails, if_neg fails]

end Accepted

/-! ### The steps of a walk -/

inductive Step where
  | read (place : Place) (r : Stream)
  | attempt (payload : Bytes)
  | drop (place : Place)
deriving DecidableEq, Repr

variable {r : Stream} {st : State}

section Steps

variable (lib : Library) (node : Node)

/-- The steps of a stream whose octets are used in some steps. -/
def streamSteps (place : Place) (r : Stream) (use : List Step) : List Step :=
  .read place r ::
    if r.broken then [] else (if r.data.isEmpty then [] else use) ++ [.drop place]

def candidateSteps (r : Stream) : List Step := streamSteps .stream r [.attempt r.data]

def memberSteps (f : Member) : List Step :=
  if f.directory || f.name.getLast? == some 47 then [] else f.content.elim [] candidateSteps

def bodySteps (body : Bytes) : List Step :=
  if isGzip body then (lib.gunzip body).elim [] candidateSteps
  else if isZip body then (lib.unzip body).elim [] (fun files => files.flatMap memberSteps)
  else [.attempt body]

def leafSteps (reader : Stream) : List Step :=
  streamSteps .leaf reader (bodySteps lib reader.data)

mutual

def steps : Part → List Step
  | .mk reader [] => leafSteps lib reader
  | .mk _ (part :: parts) => steps part ++ partsSteps parts

def partsSteps : List Part → List Step
  | [] => []
  | part :: parts => steps part ++ partsSteps parts

end

/-- The steps one after another, until one ends the walk. -/
def runSteps : List Step → State → Outcome × State
  | [], st => (.ok none, st)
  | .read place r :: rest, st =>
      match readCapped place r st with
      | (.error err, st) => (.error err, st)
      | (.ok _, st) => runSteps rest st
  | .attempt payload :: rest, st =>
      match tryPayload lib node payload st with
      | (.ok none, st) => runSteps rest st
      | result => result
  | .drop place :: rest, st => runSteps rest (st.record (.dropped place))

variable {lib node}

/-- What is done next, unless the walk has ended. -/
def andThen (result : Outcome × State) (next : State → Outcome × State) : Outcome × State :=
  match result with
  | (.ok none, st) => next st
  | result => result

theorem runSteps_append (front back : List Step) (st : State) :
    runSteps lib node (front ++ back) st =
      andThen (runSteps lib node front st) (runSteps lib node back) := by
  induction front generalizing st with
  | nil => rfl
  | cons step front ih =>
    cases step with
    | read =>
      rw [cons_append, runSteps, runSteps]
      split
      · rfl
      · exact ih _
    | attempt payload =>
      rw [cons_append, runSteps, runSteps]
      rcases tryPayload lib node payload st with ⟨_ | _ | _, _⟩
      · rfl
      · exact ih _
      · rfl
    | drop => exact ih _

/-- What is returned is the whole stream, and it does not break. -/
theorem readCapped_ok {place : Place} {next : State} {data : Bytes}
    (read : readCapped place r st = (.ok data, next)) : data = r.data ∧ r.broken = false := by
  unfold readCapped at read
  dsimp only at read
  split at read
  · cases read
  split at read
  · cases read
  split at read
  · cases read
  rename_i small whole
  refine ⟨?_, by simpa using whole⟩
  rw [← Except.ok.inj (Prod.mk.inj read).1]
  rw [length_take] at small
  exact take_of_length_le (by omega)

theorem withStream_eq {place : Place} {use : Bytes → State → Outcome × State}
    {inner : List Step} (same : ∀ st, use r.data st = runSteps lib node inner st) (st : State) :
    withStream place r use st = runSteps lib node (streamSteps place r inner) st := by
  rw [withStream, streamSteps, runSteps]
  cases read : readCapped place r st with
  | mk result next =>
    cases result with
    | error err => rfl
    | ok data =>
      obtain ⟨rfl, whole⟩ := readCapped_ok read
      have inside : (if r.data.isEmpty then (.ok none, next) else use r.data next) =
          runSteps lib node (if r.data.isEmpty then [] else inner) next := by
        split
        · rfl
        · exact same next
      dsimp only
      rw [whole, if_neg Bool.false_ne_true, runSteps_append, inside]
      rfl

theorem ingestStream_eq (r : Stream) (st : State) :
    ingestStream lib node r st = runSteps lib node (candidateSteps r) st := by
  refine withStream_eq (fun st => ?_) st
  rw [runSteps]
  rcases tryPayload lib node r.data st with ⟨_ | _ | _, _⟩ <;> rfl

theorem ingestMembers_eq (files : List Member) (st : State) :
    ingestMembers lib node files st = runSteps lib node (files.flatMap memberSteps) st := by
  induction files generalizing st with
  | nil => rfl
  | cons f files ih =>
    rw [ingestMembers, flatMap_cons, memberSteps]
    split
    · exact ih st
    cases f.content with
    | none => exact ih st
    | some rc =>
      rw [Option.elim_some, runSteps_append, ← ingestStream_eq]
      dsimp only
      rcases ingestStream lib node rc st with ⟨_ | _ | _, _⟩
      · rfl
      · exact ih _
      · rfl

theorem ingestCandidates_eq (body : Bytes) (st : State) :
    ingestCandidates lib node body st = runSteps lib node (bodySteps lib body) st := by
  rw [ingestCandidates, bodySteps]
  split
  · cases lib.gunzip body with
    | none => rfl
    | some zr => exact ingestStream_eq zr st
  split
  · cases lib.unzip body with
    | none => rfl
    | some files => exact ingestMembers_eq files st
  · rw [runSteps]
    rcases tryPayload lib node body st with ⟨_ | _ | _, _⟩ <;> rfl

mutual

/-- The walk over a part takes the steps of the part. -/
theorem walkPayloads_eq (part : Part) (st : State) :
    walkPayloads lib node part st = runSteps lib node (steps lib part) st := by
  cases part with
  | mk reader parts =>
    cases parts with
    | nil =>
      rw [walkPayloads, steps]
      exact withStream_eq (fun st => ingestCandidates_eq reader.data st) st
    | cons part parts =>
      rw [walkPayloads, steps, runSteps_append, walkPayloads_eq part st]
      rcases runSteps lib node (steps lib part) st with ⟨_ | _ | _, _⟩
      · rfl
      · exact walkParts_eq parts
      · rfl

theorem walkParts_eq (parts : List Part) {st : State} :
    walkParts lib node parts st = runSteps lib node (partsSteps lib parts) st := by
  cases parts with
  | nil => rw [walkParts, partsSteps, runSteps]
  | cons part parts =>
    rw [walkParts, partsSteps, runSteps_append, walkPayloads_eq part st]
    rcases runSteps lib node (steps lib part) st with ⟨_ | _ | _, _⟩
    · rfl
    · exact walkParts_eq parts
    · rfl

end

end Steps

/-! ### The budget of a message -/

def Event.returned : Event → Bool
  | .read _ _ returned => returned
  | _ => false

def Event.isStored : Event → Bool
  | .stored _ => true
  | _ => false

/-- The octets of the streams that were returned. -/
def returnedOctets : List Event → Nat
  | [] => 0
  | .read _ taken true :: rest => taken + returnedOctets rest
  | _ :: rest => returnedOctets rest

def Event.acquires (place : Place) : Event → Bool
  | .read other _ true => other == place
  | _ => false

/-- How many streams of a place are held. -/
def held (place : Place) (log : List Event) : Nat :=
  log.countP (Event.acquires place) - log.countP (· == .dropped place)

/-- What may still be read of one stream. -/
def allowance (log : List Event) : Nat :=
  min maxReportBytes (maxTotalReportBytes - returnedOctets log)

/-- What a call reads, holds and stores is bounded. Each member and all of them together have a
limit, which a read may pass by the one octet that shows it; at every moment at most one stream of
a place is held, and at most one row is written. -/
structure Bounded (log : List Event) : Prop where
  members : log.countP Event.returned ≤ maxReportMembers
  each : ∀ place taken, .read place taken true ∈ log → taken ≤ maxReportBytes
  total : returnedOctets log ≤ maxTotalReportBytes
  taken : ∀ front place taken returned, front ++ [.read place taken returned] <+: log →
    taken ≤ allowance front + 1
  once : ∀ front, front <+: log → ∀ place, held place front ≤ 1
  stored : log.countP Event.isStored ≤ 1

/-- A log to which each event was added within the bounds. -/
inductive Legal : List Event → Prop
  | nil : Legal []
  | refused (legal : Legal log) (within : taken ≤ allowance log + 1) :
      Legal (log ++ [.read place taken false])
  | returned (legal : Legal log) (left : log.countP Event.returned < maxReportMembers)
      (within : taken ≤ allowance log) (free : held place log = 0) :
      Legal (log ++ [.read place taken true])
  | dropped (legal : Legal log) : Legal (log ++ [.dropped place])
  | stored (legal : Legal log) (first : log.countP Event.isStored = 0) :
      Legal (log ++ [.stored row])

theorem returnedOctets_concat (log : List Event) (event : Event) :
    returnedOctets (log ++ [event]) = returnedOctets log + returnedOctets [event] := by
  induction log with
  | nil => simp [returnedOctets]
  | cons first log ih =>
    rcases first with ⟨_, _, _ | _⟩ | _ | _ <;>
      simp only [cons_append, returnedOctets, ih]
    omega

theorem held_read_le (place other : Place) (log : List Event) (taken : Nat) :
    held other (log ++ [.read place taken true]) ≤
      held other log + if place = other then 1 else 0 := by
  simp only [held, countP_append, countP_singleton, Event.acquires, beq_iff_eq, reduceCtorEq]
  split <;> omega

theorem held_dropped (place other : Place) (log : List Event) :
    held other (log ++ [.dropped place]) = held other log - if place = other then 1 else 0 := by
  simp [held, countP_append, Event.acquires, countP_singleton, Nat.sub_sub]

theorem Bounded.concat {log : List Event} {event : Event} (bounded : Bounded log)
    (members : (log ++ [event]).countP Event.returned ≤ maxReportMembers)
    (each : ∀ place taken, event = .read place taken true → taken ≤ maxReportBytes)
    (total : returnedOctets (log ++ [event]) ≤ maxTotalReportBytes)
    (taken : ∀ place taken returned, event = .read place taken returned → taken ≤ allowance log + 1)
    (once : ∀ place, held place (log ++ [event]) ≤ 1)
    (stored : (log ++ [event]).countP Event.isStored ≤ 1) : Bounded (log ++ [event]) where
  members := members
  each := by
    intro place taken member
    rcases mem_append.mp member with before | last
    · exact bounded.each place taken before
    · exact each place taken (mem_singleton.mp last).symm
  total := total
  taken := by
    intro front place octets returned begins
    rcases prefix_concat_iff.mp begins with whole | before
    · obtain ⟨rfl, same⟩ := append_inj' whole rfl
      exact taken place octets returned (singleton_inj.mp same).symm
    · exact bounded.taken front place octets returned before
  once := by
    intro front begins
    rcases prefix_concat_iff.mp begins with rfl | before
    · exact once
    · exact bounded.once front before
  stored := stored

theorem Legal.bounded {log : List Event} (legal : Legal log) : Bounded log := by
  induction legal with
  | nil =>
    constructor
    · simp
    · simp
    · simp [returnedOctets]
    · simp
    · intro front begins place
      rw [prefix_nil.mp begins]
      simp [held]
    · simp
  | refused _ within bounded =>
    refine bounded.concat ?_ (by simp) ?_ ?_ (fun place => ?_) ?_
    · simpa [countP_append, Event.returned] using bounded.members
    · simpa [returnedOctets_concat, returnedOctets] using bounded.total
    · intro place taken returned same
      cases same
      exact within
    · have before := bounded.once _ (prefix_refl _) place
      simpa [held, countP_append, Event.acquires] using before
    · simpa [countP_append, Event.isStored] using bounded.stored
  | @returned log taken place legal left within free bounded =>
    refine bounded.concat ?_ ?_ ?_ ?_ (fun other => ?_) ?_
    · simp only [countP_append, countP_singleton, Event.returned, if_true]
      omega
    · intro place taken same
      cases same
      exact le_trans within (min_le_left _ _)
    · have fits := le_trans within (min_le_right _ _)
      have total := bounded.total
      rw [returnedOctets_concat]
      simp only [returnedOctets]
      omega
    · intro place taken returned same
      cases same
      omega
    · have before := bounded.once _ (prefix_refl _) other
      have after := held_read_le place other log taken
      split at after
      · subst other
        omega
      · omega
    · simpa [countP_append, Event.isStored] using bounded.stored
  | @dropped log place legal bounded =>
    refine bounded.concat ?_ (by simp) ?_ (by simp) (fun other => ?_) ?_
    · simpa [countP_append, Event.returned] using bounded.members
    · simpa [returnedOctets_concat, returnedOctets] using bounded.total
    · rw [held_dropped]
      exact le_trans (Nat.sub_le _ _) (bounded.once _ (prefix_refl _) other)
    · simpa [countP_append, Event.isStored] using bounded.stored
  | stored _ first bounded =>
    refine bounded.concat ?_ (by simp) ?_ (by simp) (fun other => ?_) ?_
    · simpa [countP_append, Event.returned] using bounded.members
    · simpa [returnedOctets_concat, returnedOctets] using bounded.total
    · have before := bounded.once _ (prefix_refl _) other
      simpa [held, countP_append, Event.acquires] using before
    · simp only [countP_append, countP_singleton, first]
      split <;> omega

/-! ### Runs of steps -/

/-- Which places are held. -/
abbrev Flags := Place → Bool

/-- What is held after a step; nothing if the step would read into a place that is held. A stream
that breaks is not held. -/
def Step.after (flags : Flags) : Step → Option Flags
  | .read place r => if flags place then none else some (update flags place (!r.broken))
  | .attempt _ => some flags
  | .drop place => some (update flags place false)

def flagsAfter : Flags → List Step → Option Flags
  | flags, [] => some flags
  | flags, step :: rest => (step.after flags).bind (fun next => flagsAfter next rest)

theorem flagsAfter_append (flags : Flags) (front back : List Step) :
    flagsAfter flags (front ++ back) =
      (flagsAfter flags front).bind (fun next => flagsAfter next back) := by
  induction front generalizing flags with
  | nil => rfl
  | cons step front ih =>
    rw [cons_append, flagsAfter, flagsAfter]
    cases step.after flags with
    | none => rfl
    | some next => exact ih next

/-- The state between two steps. -/
structure Running (flags : Flags) (st : State) : Prop where
  legal : Legal st.log
  bytes : st.bytesLeft + returnedOctets st.log = maxTotalReportBytes
  members : st.membersLeft + st.log.countP Event.returned ≤ maxReportMembers
  held : ∀ place, held place st.log ≤ (flags place).toNat
  stored : st.log.countP Event.isStored = 0

/-- What a run of steps comes to: it goes on with the flags, or the walk has ended. -/
def Reached (flags : Flags) : Outcome × State → Prop
  | (.ok none, st) => Running flags st
  | (_, st) => Legal st.log

section Runs

variable {lib : Library} {node : Node} {flags : Flags} {st : State}

theorem Running.allowance (running : Running flags st) :
    allowance st.log = min maxReportBytes st.bytesLeft := by
  have bytes := running.bytes
  rw [ReportIngest.allowance]
  congr 1
  omega

theorem readCapped_running (running : Running flags st) {place : Place} {r : Stream}
    (free : flags place = false) :
    match readCapped place r st with
    | (.error _, next) => Legal next.log
    | (.ok _, next) => Running (update flags place true) next := by
  have limit := running.allowance
  have empty : ReportIngest.held place st.log = 0 := by
    have most := running.held place
    rw [free] at most
    exact Nat.le_zero.mp most
  unfold readCapped
  by_cases none_ : st.membersLeft = 0
  · rw [if_pos none_]
    exact running.legal
  rw [if_neg none_]
  dsimp only
  by_cases large : min maxReportBytes st.bytesLeft < (r.data.take
      (min maxReportBytes st.bytesLeft + 1)).length
  · rw [if_pos large]
    refine running.legal.refused ?_
    rw [limit, length_take]
    exact min_le_left _ _
  rw [if_neg large]
  have within : (r.data.take (min maxReportBytes st.bytesLeft + 1)).length ≤
      ReportIngest.allowance st.log := by
    rw [limit]
    exact not_lt.mp large
  by_cases broken : r.broken = true
  · rw [if_pos broken]
    exact running.legal.refused (by omega)
  rw [if_neg broken]
  have members := running.members
  refine ⟨running.legal.returned (by omega) within empty, ?_, ?_, fun other => ?_, ?_⟩
  · have bytes := running.bytes
    have fits := le_trans (limit ▸ within) (min_le_right _ _)
    rw [returnedOctets_concat]
    simp only [returnedOctets]
    omega
  · simp only [countP_append, countP_singleton, Event.returned, if_true]
    omega
  · refine le_trans (held_read_le place other _ _) ?_
    split
    · subst other
      rw [empty, update_self]
      rfl
    · rw [update_of_ne (Ne.symm ‹_›)]
      exact running.held other
  · simpa [countP_append, Event.isStored] using running.stored

theorem tryPayload_running (running : Running flags st) (payload : Bytes) :
    Reached flags (tryPayload lib node payload st) := by
  cases found : accepted lib node payload with
  | none =>
    obtain ⟨first, refused⟩ := tryPayload_refused found st
    rw [refused]
    exact ⟨running.legal, running.bytes, running.members, running.held, running.stored⟩
  | some row =>
    rw [tryPayload_accepted found st]
    split
    · exact ⟨running.legal, running.bytes, running.members, running.held, running.stored⟩
    · exact running.legal.stored running.stored

theorem drop_running (running : Running flags st) (place : Place) :
    Running (update flags place false) (st.record (.dropped place)) := by
  refine ⟨running.legal.dropped, ?_, ?_, fun other => ?_, ?_⟩
  · have bytes := running.bytes
    rw [State.record, returnedOctets_concat]
    simpa [returnedOctets] using bytes
  · have members := running.members
    simpa [State.record, countP_append, Event.returned] using members
  · have before := running.held other
    rw [State.record, held_dropped]
    split
    · subst other
      rw [update_self]
      exact Nat.sub_le_of_le_add (le_trans before (Bool.toNat_le _))
    · rwa [update_of_ne (Ne.symm ‹_›)]
  · simpa [State.record, countP_append, Event.isStored] using running.stored

/-- A run of steps stays within the bounds. -/
theorem runSteps_running {flags next : Flags} {steps : List Step}
    (brackets : flagsAfter flags steps = some next) {st : State} (running : Running flags st) :
    Reached next (runSteps lib node steps st) := by
  induction steps generalizing flags st with
  | nil =>
    cases brackets
    exact running
  | cons step steps ih =>
    obtain ⟨middle, here, later⟩ := Option.bind_eq_some_iff.mp brackets
    cases step with
    | read place r =>
      rw [Step.after] at here
      split at here
      · cases here
      rename_i free
      have read := @readCapped_running flags st running place r (by simpa using free)
      rw [runSteps]
      cases result : readCapped place r st with
      | mk outcome =>
        rw [result] at read
        cases outcome with
        | error err => exact read
        | ok data =>
          rw [(readCapped_ok result).2] at here
          cases here
          exact ih later read
    | attempt payload =>
      cases here
      have tried := @tryPayload_running lib node flags st running payload
      rw [runSteps]
      generalize tryPayload lib node payload st = result at tried
      rcases result with ⟨_ | _ | _, _⟩
      · exact tried
      · exact ih later tried
      · exact tried
    | drop place =>
      cases here
      exact ih later (drop_running running place)

/-! ### The steps of a message -/

/-- Steps that hold nothing more behind them than in front of them. -/
def Level (flags : Flags) (steps : List Step) : Prop := flagsAfter flags steps = some flags

theorem Level.append {front back : List Step} (first : Level flags front)
    (second : Level flags back) : Level flags (front ++ back) := by
  rw [Level, flagsAfter_append, first]
  exact second

theorem level_flatMap {α : Type} {items : List α} {each : α → List Step}
    (level : ∀ item ∈ items, Level flags (each item)) : Level flags (items.flatMap each) := by
  induction items with
  | nil => rfl
  | cons item items ih =>
    obtain ⟨here, later⟩ := forall_mem_cons.mp level
    exact Level.append here (ih later)

theorem level_streamSteps {place : Place} {use : List Step}
    (free : flags place = false) (inner : Level (update flags place true) use) :
    Level flags (streamSteps place r use) := by
  have back : update (update flags place true) place false = flags := by
    rw [update_idem, ← free, update_eq_self]
  rw [Level, streamSteps, flagsAfter, Step.after, if_neg (by simp [free])]
  cases broken : r.broken with
  | true =>
    rw [Bool.not_true, ← free, update_eq_self]
    rfl
  | false =>
    have used : Level (update flags place true)
        (if r.data.isEmpty then [] else use) := by
      split
      · rfl
      · exact inner
    rw [Option.bind_some, Bool.not_false, if_neg Bool.false_ne_true, flagsAfter_append, used]
    exact congrArg some back

/-- Nothing is held. -/
def idle : Flags := fun _ => false

theorem level_candidateSteps (r : Stream) :
    Level (update idle .leaf true) (candidateSteps r) :=
  level_streamSteps rfl rfl

theorem level_bodySteps (lib : Library) (body : Bytes) :
    Level (update idle .leaf true) (bodySteps lib body) := by
  unfold bodySteps
  split
  · cases lib.gunzip body with
    | none => rfl
    | some zr => exact level_candidateSteps zr
  split
  · cases lib.unzip body with
    | none => rfl
    | some files =>
      refine level_flatMap fun f _ => ?_
      unfold memberSteps
      split
      · rfl
      · cases f.content with
        | none => rfl
        | some rc => exact level_candidateSteps rc
  · rfl

mutual

theorem level_steps (lib : Library) (part : Part) : Level idle (steps lib part) := by
  cases part with
  | mk reader parts =>
    cases parts with
    | nil =>
      rw [steps]
      exact level_streamSteps rfl (level_bodySteps lib reader.data)
    | cons part parts =>
      rw [steps]
      exact (level_steps lib part).append (level_partsSteps lib parts)

theorem level_partsSteps (lib : Library) (parts : List Part) :
    Level idle (partsSteps lib parts) := by
  cases parts with
  | nil =>
    rw [partsSteps]
    rfl
  | cons part parts =>
    rw [partsSteps]
    exact (level_steps lib part).append (level_partsSteps lib parts)

end

end Runs

/-- For every message, what one call reads, holds and stores is bounded. -/
theorem ingestMessage_bounded (lib : Library) (node : Node) (raw : Bytes) (rows : List Row) :
    Bounded (ingestMessage lib node raw rows).2.log := by
  have start : Running idle { rows := rows } := by
    refine ⟨.nil, ?_, ?_, fun place => ?_, rfl⟩
    · exact Nat.add_zero maxTotalReportBytes
    · exact Nat.le_of_eq (Nat.add_zero maxReportMembers)
    · simp [held]
  apply Legal.bounded
  rw [ingestMessage]
  cases lib.ensurePart raw with
  | none => exact .nil
  | some part =>
    have reached := @runSteps_running lib node idle idle (steps lib part) (level_steps lib part)
      _ start
    dsimp only
    rw [walkPayloads_eq]
    generalize runSteps lib node (steps lib part) { rows := rows } = result at reached
    rcases result with ⟨_ | _ | _, _⟩
    · exact reached
    · exact reached.legal
    · exact reached

/-! ### A good report behind bad ones -/

def Step.octets : Step → Nat
  | .read _ r => r.data.length
  | _ => 0

def stepOctets (steps : List Step) : Nat := (steps.map Step.octets).foldr (· + ·) 0

def Step.isRead : Step → Bool
  | .read _ _ => true
  | _ => false

/-- The step reads a stream that breaks. -/
def Step.breaks : Step → Bool
  | .read _ r => r.broken
  | _ => false

/-- No budget is exceeded by what the steps read. -/
structure Within (steps : List Step) (st : State) : Prop where
  members : steps.countP Step.isRead ≤ st.membersLeft
  each : ∀ step ∈ steps, step.octets ≤ maxReportBytes
  total : stepOctets steps ≤ st.bytesLeft

section Behind

variable {lib : Library} {node : Node}

/-- Within the budget a stream is read whole, or breaks. -/
theorem readCapped_within {place : Place} (some_ : st.membersLeft ≠ 0)
    (each : r.data.length ≤ maxReportBytes) (total : r.data.length ≤ st.bytesLeft) :
    readCapped place r st =
      if r.broken then
        (.error .unreadable, { st with
          membersLeft := st.membersLeft - 1
          log := st.log ++ [.read place r.data.length false] })
      else
        (.ok r.data, { st with
          membersLeft := st.membersLeft - 1, bytesLeft := st.bytesLeft - r.data.length
          log := st.log ++ [.read place r.data.length true] }) := by
  have limit : r.data.length ≤ min maxReportBytes st.bytesLeft := le_min each total
  have whole : r.data.take (min maxReportBytes st.bytesLeft + 1) = r.data :=
    take_of_length_le (by omega)
  unfold readCapped
  rw [if_neg some_]
  dsimp only
  rw [whole, if_neg (not_lt.mpr limit)]
  rfl

/-- Beyond a budget the stream is refused. -/
theorem readCapped_beyond {place : Place} {r : Stream} {st : State}
    (beyond : ¬(st.membersLeft ≠ 0 ∧ r.data.length ≤ maxReportBytes ∧
      r.data.length ≤ st.bytesLeft)) :
    ∃ next, readCapped place r st = (.error .tooLarge, next) := by
  unfold readCapped
  by_cases none_ : st.membersLeft = 0
  · exact ⟨_, if_pos none_⟩
  have cut : min maxReportBytes st.bytesLeft <
      (r.data.take (min maxReportBytes st.bytesLeft + 1)).length := by
    rw [length_take]
    omega
  rw [if_neg none_]
  dsimp only
  rw [if_pos cut]
  exact ⟨_, rfl⟩

/-- Steps that read within the budget and store nothing either all succeed or end with the first
stream that breaks. -/
theorem runSteps_front {front : List Step} (rest : List Step) (within : Within front st)
    (others : ∀ other, .attempt other ∈ front → accepted lib node other = none) :
    ∃ last : State, last.rows = st.rows ∧
      runSteps lib node (front ++ rest) st =
        if front.any Step.breaks then (.error .unreadable, last)
        else runSteps lib node rest last := by
  induction front generalizing st with
  | nil => exact ⟨st, rfl, rfl⟩
  | cons step front ih =>
    obtain ⟨members, each, total⟩ := within
    obtain ⟨here, later⟩ := forall_mem_cons.mp each
    have refused : ∀ other, .attempt other ∈ front → accepted lib node other = none :=
      fun other member => others other (mem_cons_of_mem _ member)
    have all : stepOctets (step :: front) = step.octets + stepOctets front := rfl
    rw [all] at total
    cases step with
    | read place r =>
      simp only [countP_cons, Step.isRead, if_true] at members
      simp only [Step.octets] at here total
      rw [cons_append, runSteps, readCapped_within (by omega) here (by omega), any_cons,
        Step.breaks]
      cases broken : r.broken with
      | true =>
        exact ⟨{ st with
          membersLeft := st.membersLeft - 1
          log := st.log ++ [.read place r.data.length false] }, rfl, rfl⟩
      | false =>
        obtain ⟨last, same, ran⟩ := @ih { st with
            membersLeft := st.membersLeft - 1, bytesLeft := st.bytesLeft - r.data.length
            log := st.log ++ [.read place r.data.length true] }
          ⟨by simp only; omega, later, by simp only; omega⟩ refused
        exact ⟨last, same, ran⟩
    | attempt payload =>
      simp only [Step.octets, Nat.zero_add] at total
      obtain ⟨first, tried⟩ := tryPayload_refused (others payload mem_cons_self) st
      obtain ⟨last, same, ran⟩ := @ih { st with firstErr := first }
        ⟨by simpa [Step.isRead] using members, later, total⟩ refused
      refine ⟨last, same, ?_⟩
      rw [cons_append, runSteps, tried]
      exact ran
    | drop place =>
      simp only [Step.octets, Nat.zero_add] at total
      have count : front.countP Step.isRead ≤ st.membersLeft := by
        simpa [Step.isRead] using members
      obtain ⟨last, same, ran⟩ := @ih (st.record (.dropped place))
        ⟨count, later, total⟩ refused
      exact ⟨last, same, ran⟩

/-- Steps that end in an error came to a stream that breaks, or exceed a budget. -/
theorem runSteps_error {steps : List Step} {final : State} {err : Failure}
    (failed : runSteps lib node steps st = (.error err, final)) :
    err = .unreadable ∧ steps.any Step.breaks = true ∨ err = .tooLarge ∧ ¬Within steps st := by
  induction steps generalizing st with
  | nil => cases failed
  | cons step rest ih =>
    -- What is left for the rest is what the step leaves.
    have behind {next : State} (failed : runSteps lib node rest next = (.error err, final))
        (members : next.membersLeft + [step].countP Step.isRead = st.membersLeft)
        (octets : next.bytesLeft + step.octets = st.bytesLeft) :
        err = .unreadable ∧ (step :: rest).any Step.breaks = true ∨
          err = .tooLarge ∧ ¬Within (step :: rest) st := by
      refine (ih failed).imp (fun broken => ⟨broken.1, by simp [broken.2]⟩)
        (fun large => ⟨large.1, fun within => large.2 ⟨?_, ?_, ?_⟩⟩)
      · have all := within.members
        rw [countP_cons] at all
        simp only [countP_cons, countP_nil] at members
        omega
      · exact (forall_mem_cons.mp within.each).2
      · have all : step.octets + stepOctets rest ≤ st.bytesLeft := within.total
        omega
    cases step with
    | read place r =>
      rw [runSteps] at failed
      by_cases within : st.membersLeft ≠ 0 ∧ r.data.length ≤ maxReportBytes ∧
          r.data.length ≤ st.bytesLeft
      · obtain ⟨some_, each, total⟩ := within
        rw [readCapped_within some_ each total] at failed
        cases broken : r.broken with
        | true =>
          rw [broken] at failed
          cases failed
          exact .inl ⟨rfl, by simp [Step.breaks, broken]⟩
        | false =>
          rw [broken] at failed
          refine behind failed ?_ ?_
          · simp [Step.isRead]
            omega
          · simp [Step.octets]
            omega
      · obtain ⟨next, beyond⟩ := @readCapped_beyond place r st within
        rw [beyond] at failed
        cases failed
        refine .inr ⟨rfl, fun whole => within ⟨?_, whole.each _ mem_cons_self, ?_⟩⟩
        · have some_ := whole.members
          simp only [countP_cons, Step.isRead, if_true] at some_
          omega
        · exact Nat.le_trans (Nat.le_add_right _ _) whole.total
    | attempt payload =>
      rw [runSteps] at failed
      cases found : accepted lib node payload with
      | none =>
        obtain ⟨first, refused⟩ := tryPayload_refused found st
        rw [refused] at failed
        exact behind failed rfl rfl
      | some row =>
        rw [tryPayload_accepted found] at failed
        cases fails : node.insertFails st.inserts with
        | true =>
          rw [fails] at failed
          exact behind failed rfl rfl
        | false =>
          rw [fails] at failed
          cases failed
    | drop => exact behind failed rfl rfl

end Behind

theorem insertRow_concat_iff (rows : List Row) (row : Row) :
    insertRow rows row = rows ++ [row] ↔ rows.any (fun other => other.sameKey row) = false := by
  unfold insertRow
  split
  · rename_i found
    simp [found]
  · rename_i absent
    simpa using absent

/-- Within the budget, a good report behind bad ones is stored and its kind answered exactly if no
stream in front of it breaks and no report with its key is there. A walk that ends in an error came
to a stream that breaks, or exceeds a budget. -/
theorem good_report_stored_iff (lib : Library) (node : Node) (raw : Bytes) (rows : List Row)
    (part : Part) (parsed : lib.ensurePart raw = some part) :
    (∀ front rest payload row, steps lib part = front ++ .attempt payload :: rest →
      accepted lib node payload = some row →
      (∀ other, .attempt other ∈ front → accepted lib node other = none) →
      Within front { rows := rows } → (∀ n, node.insertFails n = false) →
      ((ingestMessage lib node raw rows).1 = .ok row.kind ∧
          (ingestMessage lib node raw rows).2.rows = rows ++ [row] ↔
        front.any Step.breaks = false ∧ rows.any (fun other => other.sameKey row) = false)) ∧
    ∀ err st, walkPayloads lib node part { rows := rows } = (.error err, st) →
      err = .unreadable ∧ (steps lib part).any Step.breaks = true ∨
        err = .tooLarge ∧ ¬Within (steps lib part) { rows := rows } := by
  refine ⟨fun front rest payload row walk good others within works => ?_, fun err st failed => ?_⟩
  · obtain ⟨last, same, ran⟩ := runSteps_front (.attempt payload :: rest) within others
    rw [ingestMessage, parsed]
    dsimp only
    rw [walkPayloads_eq, walk, ran]
    cases breaks : front.any Step.breaks with
    | true =>
      refine ⟨fun stored => ?_, fun impossible => ?_⟩
      · cases stored.1
      · cases impossible.1
    | false =>
      rw [if_neg Bool.false_ne_true, runSteps, tryPayload_accepted good, works,
        if_neg Bool.false_ne_true, ← insertRow_concat_iff, same]
      exact and_congr_left fun _ => iff_of_true rfl rfl
  · rw [walkPayloads_eq] at failed
    exact runSteps_error failed

/-! ### One report or nothing -/

/-- A walk that succeeds stored a payload among its steps, any other stored nothing. -/
def StoredOne (lib : Library) (node : Node) (walk : List Step) (rows : List Row) :
    Outcome × State → Prop
  | (.ok (some kind), st) => ∃ payload row, .attempt payload ∈ walk ∧
      accepted lib node payload = some row ∧ row.kind = kind ∧ st.rows = insertRow rows row
  | (_, st) => st.rows = rows

theorem runSteps_storedOne (lib : Library) (node : Node) {walk : List Step} {rest : List Step}
    (among : rest ⊆ walk) (st : State) :
    StoredOne lib node walk st.rows (runSteps lib node rest st) := by
  induction rest generalizing st with
  | nil => exact rfl
  | cons head rest ih =>
    replace ih := ih (cons_subset.mp among).2
    cases head with
    | read place r =>
      have kept : (readCapped place r st).2.rows = st.rows := by grind [readCapped, State.record]
      rw [runSteps, ← kept]
      rcases readCapped place r st with ⟨_ | _, next⟩
      · exact rfl
      · exact ih next
    | attempt payload =>
      rw [runSteps]
      cases found : accepted lib node payload with
      | none =>
        obtain ⟨first, refused⟩ := tryPayload_refused found st
        rw [refused]
        exact ih _
      | some row =>
        rw [tryPayload_accepted found]
        cases node.insertFails st.inserts
        · exact ⟨payload, row, (cons_subset.mp among).1, found, rfl, rfl⟩
        · exact ih _
    | drop => exact ih _

/-- A message has one of its reports stored and answers its kind, or stores nothing. -/
theorem ingestMessage_stores_one (lib : Library) (node : Node) (raw : Bytes) (rows : List Row) :
    StoredOne lib node ((lib.ensurePart raw).elim [] (steps lib)) rows
      ((ingestMessage lib node raw rows).map (Except.map some) id) := by
  rw [ingestMessage]
  cases lib.ensurePart raw with
  | none => exact rfl
  | some part =>
    have stored := runSteps_storedOne lib node (List.Subset.refl (steps lib part)) { rows }
    rw [← walkPayloads_eq] at stored
    dsimp only
    split <;> rename_i walked <;> rw [walked] at stored <;> exact stored

/-! ### Samples -/

def sampleFeedback : Feedback := ⟨"x.example", "org", "r1", 0, 86400, [⟨3, true, false⟩]⟩

/-- A library for which any XML is a report, any gzip body breaks, and any archive has a member that
breaks in front of a report. -/
def sampleLibrary : Library where
  ensurePart raw := some (.mk ⟨[], false⟩ [.mk ⟨raw, false⟩ [], .mk ⟨[60], false⟩ []])
  gunzip _ := some ⟨[60], true⟩
  unzip _ := some [⟨false, [97], some ⟨[60], true⟩⟩, ⟨false, [98], some ⟨[60], false⟩⟩]
  parseDMARC _ := some sampleFeedback
  parseTLSRPT _ := none

def sampleNode : Node := ⟨some (· == "x.example"), fun _ => false⟩

/-- A leaf that is a broken gzip stream, or an archive with a corrupt member, suppresses the report
behind it. -/
theorem broken_stream_suppresses :
    (∀ raw ∈ [[0x1f, 0x8b], [80, 75, 3, 4]],
      (ingestMessage sampleLibrary sampleNode raw []).1 = .error .unreadable ∧
        (ingestMessage sampleLibrary sampleNode raw []).2.rows = []) ∧
      accepted sampleLibrary sampleNode [60] = some (dmarcRow sampleFeedback) := by
  decide +kernel

/-- Behind a leaf that is no report the report is stored. -/
theorem good_report_stored_text :
    (ingestMessage sampleLibrary sampleNode [104] []).1 = .ok .dmarc ∧
      (ingestMessage sampleLibrary sampleNode [104] []).2.rows = [dmarcRow sampleFeedback] := by
  refine ((good_report_stored_iff sampleLibrary sampleNode [104] [] _ rfl).1
    [.read .leaf ⟨[104], false⟩, .attempt [104], .drop .leaf, .read .leaf ⟨[60], false⟩]
    [.drop .leaf] [60] (dmarcRow sampleFeedback) (by decide +kernel) (by decide +kernel) ?_ ?_
    (fun _ => rfl)).mpr (by decide)
  · intro other member
    obtain rfl : other = [104] := by simpa using member
    decide +kernel
  · exact ⟨by decide, by decide, by decide⟩

end OctoMail.Ops.ReportIngest
