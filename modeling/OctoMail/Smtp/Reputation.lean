import Mathlib.Algebra.Order.Ring.Rat
import Mathlib.Data.List.Infix
import Mathlib.Logic.Function.Basic
import OctoMail.Smtp.Server

/-!
# Sender reputation

`Decide` of `mailflow/inbound/decision.go` and what the SMTP server makes of its answer, for the
deliveries to one account. A verdict of junk is to count against the sender's domain, and a domain
is trusted for what was accepted as no junk.

The server counts a message by the mailbox it is filed in. A ruleset that does not force a message
runs the checks and then sets the mailbox, also of a message that the checks found to be junk: that
message counts in favour of its sender.

Given with each message are the header fields as parsed, the rulesets, what the classifier and the
verification of a subject token answer, and which queries fail. Probabilities are rational numbers.
-/

namespace OctoMail.Smtp.Reputation

open Function

/-! ### Settings -/

/-- Functions of Go's package for text. -/
structure Text where
  toLower : Bytes → Bytes
  equalFold : Bytes → Bytes → Bool

structure Decider where
  greylistDelay : Int := 0
  greylistEnabled : Bool := false
  junkThreshold : Rat := 0
  rejectThreshold : Rat := 0
  trustedHamCount : Int := 0
  /-- There is a `SubjectPassKey`. -/
  subjectPass : Bool := false

namespace Decider

variable (decider : Decider)

/-- In nanoseconds. -/
def greylistDelay_ : Int :=
  if 0 < decider.greylistDelay then decider.greylistDelay else 300000000000

def junkThreshold_ : Rat := if 0 < decider.junkThreshold then decider.junkThreshold else 95 / 100

def rejectThreshold_ : Rat :=
  if 0 < decider.rejectThreshold then decider.rejectThreshold else 999 / 1000

def trustedHam : Int := if 0 < decider.trustedHamCount then decider.trustedHamCount else 3

def adaptiveJunkThreshold (ham junk : Nat) : Rat :=
  let base := decider.junkThreshold_
  if ham + junk < 5 then base
  else
    let thr := base + ((ham : Rat) / ((ham + junk : Nat) : Rat) - 1 / 2) * (1 / 5)
    let thr := if thr < 1 / 2 then 1 / 2 else thr
    let hi := decider.rejectThreshold_ - 1 / 1000
    if hi < thr then hi else thr

end Decider

/-! ### A message and the tables -/

structure Rule where
  name : Bytes
  substr : Bytes
  mailbox : String
  force : Bool
  forward : Bool
deriving DecidableEq, Repr

/-- A message for the account. -/
structure Arrival where
  /-- The domain of the envelope sender. -/
  domain : Bytes
  /-- The domain that passed SPF. -/
  spf : Option Bytes := none
  subnet : Bytes := []
  now : Int := 0
  /-- The fields by their names in lower case, the first of a name. -/
  headers : List (Bytes × Bytes) := []
  /-- The rulesets in their order, if they can be read. -/
  rules : Option (List Rule) := some []
  /-- The counters can be read. -/
  counted : Bool := true
  /-- The greylist can be read, and written. -/
  greyRead : Bool := true
  greyWritten : Bool := true
  /-- What a classifier that answers says: the probability, and whether it is significant. -/
  classified : Option (Rat × Bool) := none
  /-- The subject has a valid token. -/
  token : Bool := false
  challenge : Bytes := []
  delivery : Delivery := .delivered
  /-- The outcome can be written. -/
  recorded : Bool := true

/-- A row of `inbound_reputation`. -/
structure Counts where
  ham : Nat := 0
  junk : Nat := 0
deriving DecidableEq, Repr

structure Grey where
  firstSeen : Int
  allowed : Bool := false
deriving DecidableEq, Repr

/-- What became of a message. -/
structure Fact where
  domain : Bytes
  authed : Bool
  verdict : Verdict
  delivered : Bool
deriving DecidableEq, Repr

structure State where
  counts : Bytes → Counts := fun _ => {}
  grey : Bytes × Bytes → Option Grey := fun _ => none
  past : List Fact := []

section Decide

variable (text : Text) (decider : Decider)

/-- The sender's domain is itself authenticated. -/
def repAuthed (arrival : Arrival) : Bool :=
  arrival.spf.any (fun domain =>
    !arrival.domain.isEmpty && text.equalFold domain arrival.domain)

def matchRuleset (arrival : Arrival) : Option Rule :=
  (arrival.rules.getD []).find? (fun rule =>
    let value := (arrival.headers.lookup (text.toLower rule.name)).getD []
    !value.isEmpty && ((text.toLower value).dropInfix? (text.toLower rule.substr)).isSome)

/-- The counters of the sender, or zeros. -/
def reputation (st : State) (arrival : Arrival) : Counts :=
  if arrival.counted then st.counts arrival.domain else {}

/-- Whether the message is put off, and the greylist after it. -/
def greylist (st : State) (arrival : Arrival) : Bool × (Bytes × Bytes → Option Grey) :=
  let key := (arrival.domain, arrival.subnet)
  let write := fun row : Grey =>
    if arrival.greyWritten then update st.grey key (some row) else st.grey
  if !arrival.greyRead then (false, st.grey)
  else
    match st.grey key with
    | none => (true, write ⟨arrival.now, false⟩)
    | some row =>
        if row.allowed then (false, st.grey)
        else if decider.greylistDelay_ ≤ arrival.now - row.firstSeen then
          (false, write { row with allowed := true })
        else (true, st.grey)

def trustedSender : Bytes := octets "trusted-sender".toList

def maybeSubjectPass (arrival : Arrival) (reject : Decision) : Decision :=
  if !decider.subjectPass then reject
  else if arrival.token then { verdict := .accept, reason := octets "subjectpass-verified".toList }
  else { verdict := .defer_, reason := octets "subjectpass-challenge".toList,
         challenge := arrival.challenge }

/-- The check of the content. -/
def contentDecision (arrival : Arrival) (counts : Counts) : Decision :=
  let clean : Decision := { verdict := .accept, reason := octets "clean".toList }
  match arrival.classified with
  | some (prob, true) =>
      if decider.rejectThreshold_ ≤ prob then
        maybeSubjectPass decider arrival
          { verdict := .reject, reason := octets "junk-content-strict".toList }
      else if decider.adaptiveJunkThreshold counts.ham counts.junk ≤ prob then
        { verdict := .acceptJunk, reason := octets "junk-content".toList }
      else clean
  | _ => clean

def decideCore (st : State) (arrival : Arrival) : Decision × (Bytes × Bytes → Option Grey) :=
  let authed := repAuthed text arrival
  let counts := reputation st arrival
  let content := contentDecision decider arrival (if authed then counts else {})
  if authed = true ∧ decider.trustedHam ≤ counts.ham ∧ counts.junk = 0 then
    ({ verdict := .accept, reason := trustedSender }, st.grey)
  else if 3 ≤ counts.junk ∧ counts.ham = 0 then
    (maybeSubjectPass decider arrival
      { verdict := .reject, reason := octets "known-bad-sender".toList }, st.grey)
  else if decider.greylistEnabled then
    let (deferred, grey) := greylist decider st arrival
    if deferred then ({ verdict := .defer_, reason := octets "greylisted".toList }, grey)
    else (content, grey)
  else (content, st.grey)

/-- `Decide`, and the greylist after it. -/
def decide_ (st : State) (arrival : Arrival) : Decision × (Bytes × Bytes → Option Grey) :=
  match matchRuleset text arrival with
  | none => decideCore text decider st arrival
  | some rule =>
      if rule.force then
        ({ verdict := .accept, reason := octets "ruleset".toList, mailbox := rule.mailbox },
          st.grey)
      else if rule.forward then
        ({ verdict := .accept, reason := octets "forwarded".toList, mailbox := rule.mailbox },
          st.grey)
      else
        let (dec, grey) := decideCore text decider st arrival
        if dec.verdict = .accept ∨ dec.verdict = .acceptJunk then
          ({ dec with mailbox := rule.mailbox }, grey)
        else (dec, grey)

/-! ### Deliveries -/

/-- The mailbox that the server files a message in. -/
def filed (dec : Decision) : Option String :=
  match dec.verdict with
  | .accept => some (if dec.mailbox = "" then "Inbox" else dec.mailbox)
  | .acceptJunk => some (if dec.mailbox = "" then "Junk" else dec.mailbox)
  | _ => none

def Counts.bump (counts : Counts) (ham : Bool) : Counts :=
  if ham then { counts with ham := counts.ham + 1 } else { counts with junk := counts.junk + 1 }

/-- `RecordOutcome`, where it succeeds. -/
def recordOutcome (counts : Bytes → Counts) (domain : Bytes) (authed ham : Bool) : Bytes → Counts :=
  if authed then update counts domain ((counts domain).bump ham) else counts

/-- The message was delivered to a mailbox. -/
def deliveredTo (dec : Decision) (arrival : Arrival) : Option String :=
  if arrival.delivery = .delivered then filed dec else none

/-- One message, from the decision to the record. -/
def receive (st : State) (arrival : Arrival) : State :=
  let (dec, grey) := decide_ text decider st arrival
  let authed := repAuthed text arrival
  { counts := match deliveredTo dec arrival with
      | none => st.counts
      | some mailbox =>
          if arrival.domain ≠ [] ∧ arrival.recorded = true then
            recordOutcome st.counts arrival.domain authed (mailbox != "Junk")
          else st.counts
    grey := grey
    past := st.past ++ [⟨arrival.domain, authed, dec.verdict, (deliveredTo dec arrival).isSome⟩] }

def receiveAll (arrivals : List Arrival) : State := arrivals.foldl (receive text decider) {}

end Decide

/-! ### Trust is earned -/

/-- The message is of the domain, authenticated and delivered. -/
def Fact.counts (fact : Fact) (domain : Bytes) : Bool :=
  fact.domain == domain && fact.authed && fact.delivered

/-- Accepted as not junk. -/
def Fact.good (domain : Bytes) (fact : Fact) : Bool :=
  fact.counts domain && fact.verdict == .accept

def Fact.bad (domain : Bytes) (fact : Fact) : Bool :=
  fact.counts domain && fact.verdict == .acceptJunk

/-- What a message does to the counters, and what trust in its sender rests on. -/
structure Earned (text : Text) (decider : Decider) (st : State) (arrival : Arrival) : Prop where
  never : (decide_ text decider st arrival).1.verdict = .acceptJunk →
    ((receive text decider st arrival).counts arrival.domain).ham = (st.counts arrival.domain).ham
  always : (decide_ text decider st arrival).1.verdict = .acceptJunk →
    repAuthed text arrival = true → arrival.delivery = .delivered →
      ((receive text decider st arrival).counts arrival.domain).junk =
        (st.counts arrival.domain).junk + 1
  once : (∃ ham, (receive text decider st arrival).counts = update st.counts
      arrival.domain ((st.counts arrival.domain).bump ham)) ∨
    (receive text decider st arrival).counts = st.counts
  trusted : (decide_ text decider st arrival).1.reason = trustedSender →
    decider.trustedHam ≤ st.past.countP (Fact.good arrival.domain) ∧
      st.past.countP (Fact.bad arrival.domain) = 0

/-- For a message that is delivered as junk of an authenticated sender the outcome is written, and
the ruleset that matched it, if any, names Junk or no mailbox. -/
def Kept (text : Text) (decider : Decider) (st : State) (arrival : Arrival) : Prop :=
  (decide_ text decider st arrival).1.verdict = .acceptJunk → repAuthed text arrival = true →
    arrival.delivery = .delivered → arrival.recorded = true ∧
      ∀ rule, matchRuleset text arrival = some rule → rule.mailbox = "" ∨ rule.mailbox = "Junk"

section Steps

variable {text : Text} {decider : Decider} {st : State} {arrival : Arrival}

theorem trustedHam_pos (decider : Decider) : 0 < decider.trustedHam := by
  rw [Decider.trustedHam]
  split <;> omega

theorem maybeSubjectPass_reason {reject : Decision} (other : reject.reason ≠ trustedSender) :
    (maybeSubjectPass decider arrival reject).reason ≠ trustedSender := by
  rw [maybeSubjectPass]
  split
  · exact other
  · split
    · decide
    · exact (by decide : octets "subjectpass-challenge".toList ≠ trustedSender)

theorem contentDecision_reason {counts : Counts} :
    (contentDecision decider arrival counts).reason ≠ trustedSender := by
  simp only [contentDecision]
  split
  · split
    · exact maybeSubjectPass_reason (by decide)
    · split <;> decide
  · decide

theorem decideCore_trusted
    (trusted : (decideCore text decider st arrival).1.reason = trustedSender) :
    decider.trustedHam ≤ (reputation st arrival).ham ∧ (reputation st arrival).junk = 0 := by
  simp only [decideCore] at trusted
  split at trusted
  · rename_i earned
    exact earned.2
  split at trusted
  · exact absurd trusted (maybeSubjectPass_reason (by decide))
  · split at trusted
    · split at trusted
      · exact absurd trusted (by decide : octets "greylisted".toList ≠ trustedSender)
      · exact absurd trusted (contentDecision_reason)
    · exact absurd trusted (contentDecision_reason)

/-- Trust is given by the counters. -/
theorem decide_trusted (trusted : (decide_ text decider st arrival).1.reason = trustedSender) :
    decider.trustedHam ≤ (st.counts arrival.domain).ham ∧
      (st.counts arrival.domain).junk = 0 := by
  have core : (decideCore text decider st arrival).1.reason = trustedSender := by
    simp only [decide_] at trusted
    split at trusted
    · exact trusted
    · split at trusted
      · exact absurd trusted (by decide : octets "ruleset".toList ≠ trustedSender)
      · split at trusted
        · exact absurd trusted (by decide : octets "forwarded".toList ≠ trustedSender)
        · split at trusted <;> exact trusted
  obtain ⟨ham, junk⟩ := decideCore_trusted core
  cases readable : arrival.counted with
  | true =>
    simp only [reputation, readable, if_true] at ham junk
    exact ⟨ham, junk⟩
  | false =>
    have positive := trustedHam_pos decider
    simp only [reputation, readable, Bool.false_eq_true, if_false] at ham
    exact absurd (Int.lt_of_lt_of_le positive ham) (by decide)

theorem repAuthed_domain (authed : repAuthed text arrival = true) : arrival.domain ≠ [] := by
  rintro empty
  cases spf : arrival.spf <;> simp [repAuthed, spf, empty] at authed

/-- The counters after a message. -/
theorem receive_counts :
    (receive text decider st arrival).counts =
      match deliveredTo (decide_ text decider st arrival).1 arrival with
      | none => st.counts
      | some mailbox =>
          if repAuthed text arrival = true ∧ arrival.recorded = true then
            update st.counts arrival.domain
              ((st.counts arrival.domain).bump (mailbox != "Junk"))
          else st.counts := by
  simp only [receive]
  split
  · rfl
  · cases authed : repAuthed text arrival with
    | false => simp [recordOutcome]
    | true =>
      have named := repAuthed_domain authed
      simp [recordOutcome, named]

theorem deliveredTo_junk (junk : (decide_ text decider st arrival).1.verdict = .acceptJunk)
    (delivered : arrival.delivery = .delivered) :
    deliveredTo (decide_ text decider st arrival).1 arrival =
      some (if (decide_ text decider st arrival).1.mailbox = "" then "Junk"
        else (decide_ text decider st arrival).1.mailbox) := by
  rw [deliveredTo, if_pos delivered, filed, junk]

/-- The decision itself names no mailbox. -/
theorem decideCore_mailbox : (decideCore text decider st arrival).1.mailbox = "" := by
  have pass (reject : Decision) (none_ : reject.mailbox = "") :
      (maybeSubjectPass decider arrival reject).mailbox = "" := by
    rw [maybeSubjectPass]
    split
    · exact none_
    · split <;> rfl
  have content (counts : Counts) : (contentDecision decider arrival counts).mailbox = "" := by
    simp only [contentDecision]
    split
    · split
      · exact pass _ rfl
      · split <;> rfl
    · rfl
  simp only [decideCore]
  split
  · rfl
  split
  · exact pass _ rfl
  · split
    · split
      · rfl
      · exact content _
    · exact content _

/-- Junk goes to the mailbox of the ruleset that matched. -/
theorem junk_mailbox (junk : (decide_ text decider st arrival).1.verdict = .acceptJunk) :
    ((decide_ text decider st arrival).1.mailbox = "" ∨
        (decide_ text decider st arrival).1.mailbox = "Junk") ↔
      ∀ rule, matchRuleset text arrival = some rule → rule.mailbox = "" ∨ rule.mailbox = "Junk" := by
  cases matched : matchRuleset text arrival with
  | none => simp [decide_, matched, decideCore_mailbox]
  | some rule =>
    simp only [decide_, matched] at junk ⊢
    split at junk
    · cases junk
    split at junk
    · cases junk
    rename_i unforced unforwarded
    have filed : (decideCore text decider st arrival).1.verdict = .accept ∨
        (decideCore text decider st arrival).1.verdict = .acceptJunk := by
      by_contra neither
      rw [if_neg neither] at junk
      exact neither (.inr junk)
    simp [unforced, unforwarded, if_pos filed]

theorem bump_junk (counts : Counts) (ham : Bool) :
    (counts.bump ham).junk = counts.junk + 1 ↔ ham = false := by
  cases ham <;> simp [Counts.bump]

theorem Earned.kept (earned : Earned text decider st arrival) : Kept text decider st arrival := by
  intro junk authed delivered
  have counted := earned.always junk authed delivered
  rw [receive_counts, deliveredTo_junk junk delivered] at counted
  dsimp only at counted
  by_cases written : repAuthed text arrival = true ∧ arrival.recorded = true
  · rw [if_pos written, update_self, bump_junk] at counted
    refine ⟨written.2, (junk_mailbox junk).mp ?_⟩
    by_cases plain : (decide_ text decider st arrival).1.mailbox = ""
    · exact Or.inl plain
    · rw [if_neg plain] at counted
      exact Or.inr (by simpa using counted)
  · rw [if_neg written] at counted
    omega

/-- A message delivered as junk of an authenticated sender counts as junk. -/
theorem receive_junk (kept : Kept text decider st arrival)
    (junk : (decide_ text decider st arrival).1.verdict = .acceptJunk)
    (authed : repAuthed text arrival = true) (delivered : arrival.delivery = .delivered) :
    (receive text decider st arrival).counts =
      update st.counts arrival.domain ((st.counts arrival.domain).bump false) := by
  obtain ⟨recorded, mailbox⟩ := kept junk authed delivered
  rw [receive_counts, deliveredTo_junk junk delivered]
  dsimp only
  rw [if_pos (And.intro authed recorded)]
  rcases (junk_mailbox junk).mpr mailbox with plain | named
  · simp [plain]
  · simp [named]

/-- What the counters of every domain rest on. -/
def Backed (st : State) : Prop :=
  ∀ domain, (st.counts domain).ham ≤ st.past.countP (Fact.good domain) ∧
    st.past.countP (Fact.bad domain) ≤ (st.counts domain).junk

theorem receive_past : (receive text decider st arrival).past = st.past ++
    [⟨arrival.domain, repAuthed text arrival, (decide_ text decider st arrival).1.verdict,
      (deliveredTo (decide_ text decider st arrival).1 arrival).isSome⟩] := rfl

/-- Other domains keep their counters. -/
theorem receive_counts_ne {domain : Bytes} (other : domain ≠ arrival.domain) :
    (receive text decider st arrival).counts domain = st.counts domain := by
  rw [receive_counts]
  split
  · rfl
  · split
    · rw [update_of_ne other]
    · rfl

theorem receive_once : (∃ ham, (receive text decider st arrival).counts = update st.counts
      arrival.domain ((st.counts arrival.domain).bump ham)) ∨
    (receive text decider st arrival).counts = st.counts := by
  rw [receive_counts]
  split
  · exact Or.inr rfl
  · split
    · exact Or.inl ⟨_, rfl⟩
    · exact Or.inr rfl

/-- A message that is not delivered, or whose sender is not authenticated, counts for nothing. -/
theorem receive_uncounted (uncounted : repAuthed text arrival = false ∨
      deliveredTo (decide_ text decider st arrival).1 arrival = none) :
    (receive text decider st arrival).counts = st.counts := by
  rw [receive_counts]
  rcases uncounted with unknown | undelivered
  · split <;> simp [unknown]
  · rw [undelivered]

theorem Backed.receive (backed : Backed st) (kept : Kept text decider st arrival) :
    Backed (receive text decider st arrival) := by
  intro domain
  obtain ⟨ham, junk⟩ := backed domain
  rw [receive_past, List.countP_append, List.countP_append, List.countP_singleton,
    List.countP_singleton]
  by_cases own : domain = arrival.domain
  · subst own
    cases authed : repAuthed text arrival with
    | false =>
      rw [receive_uncounted (Or.inl authed)]
      simpa [Fact.good, Fact.bad, Fact.counts] using ⟨ham, junk⟩
    | true =>
      cases to_ : deliveredTo (decide_ text decider st arrival).1 arrival with
      | none =>
        rw [receive_uncounted (Or.inr to_)]
        simpa [Fact.good, Fact.bad, Fact.counts] using ⟨ham, junk⟩
      | some mailbox =>
        have delivered : arrival.delivery = .delivered := by
          rw [deliveredTo] at to_
          split at to_
          · assumption
          · cases to_
        cases verdict : (decide_ text decider st arrival).1.verdict with
        | acceptJunk =>
          rw [receive_junk kept verdict authed delivered, update_self]
          simpa [Fact.good, Fact.bad, Fact.counts, Counts.bump] using ⟨ham, junk⟩
        | accept =>
          rcases receive_once with ⟨isHam, same⟩ | same
          · rw [same, update_self]
            cases isHam <;> simp [Fact.good, Fact.bad, Fact.counts, Counts.bump] <;> omega
          · rw [same]
            simp [Fact.good, Fact.bad, Fact.counts]
            omega
        | defer_ | reject => simp [deliveredTo, delivered, filed, verdict] at to_
  · rw [receive_counts_ne own]
    have apart : (arrival.domain == domain) = false := by simpa using Ne.symm own
    simp only [Fact.good, Fact.bad, Fact.counts, apart, Bool.false_and]
    exact ⟨ham, junk⟩

theorem Kept.earned (kept : Kept text decider st arrival) (backed : Backed st) :
    Earned text decider st arrival where
  never := by
    intro junk
    by_cases counted : repAuthed text arrival = true ∧ arrival.delivery = .delivered
    · rw [receive_junk kept junk counted.1 counted.2, update_self]
      rfl
    · rw [receive_uncounted]
      cases authed : repAuthed text arrival with
      | false => exact Or.inl rfl
      | true => exact Or.inr (if_neg (fun delivered => counted ⟨authed, delivered⟩))
  always := by
    intro junk authed delivered
    rw [receive_junk kept junk authed delivered, update_self]
    rfl
  once := receive_once
  trusted := by
    intro trusted
    obtain ⟨ham, junk⟩ := decide_trusted trusted
    obtain ⟨backedHam, backedJunk⟩ := backed arrival.domain
    constructor
    · exact Int.le_trans ham (Int.ofNat_le.mpr backedHam)
    · omega

theorem receiveAll_concat (arrivals : List Arrival) (arrival : Arrival) :
    receiveAll text decider (arrivals ++ [arrival]) =
      receive text decider (receiveAll text decider arrivals) arrival := by
  rw [receiveAll, List.foldl_append]
  rfl

/-- The counters are backed after every message that is kept to. -/
theorem backed_receiveAll (arrivals : List Arrival)
    (kept : ∀ before arrival after, arrivals = before ++ arrival :: after →
      Kept text decider (receiveAll text decider before) arrival) :
    Backed (receiveAll text decider arrivals) := by
  induction arrivals using List.reverseRecOn with
  | nil =>
    intro domain
    exact ⟨Nat.le_refl 0, Nat.le_refl 0⟩
  | append_singleton arrivals arrival ih =>
    rw [receiveAll_concat]
    refine Backed.receive (ih ?_) (kept arrivals arrival [] rfl)
    intro before other after shape
    apply kept before other (after ++ [arrival])
    rw [shape, List.append_assoc, List.cons_append]

end Steps

/-- For every sequence of messages: junk never earns trust exactly if every message delivered as
junk of an authenticated sender is filed in Junk and its outcome is written. -/
theorem junk_earns_no_trust_iff (text : Text) (decider : Decider) (arrivals : List Arrival) :
    (∀ before arrival after, arrivals = before ++ arrival :: after →
        Earned text decider (receiveAll text decider before) arrival) ↔
      ∀ before arrival after, arrivals = before ++ arrival :: after →
        Kept text decider (receiveAll text decider before) arrival := by
  constructor
  · intro earned before arrival after shape
    exact (earned before arrival after shape).kept
  · intro kept before arrival after shape
    apply (kept before arrival after shape).earned
    apply backed_receiveAll
    intro earlier other later split
    apply kept earlier other (later ++ arrival :: after)
    rw [shape, split, List.append_assoc, List.cons_append]

/-- Letters of the alphabet as they are. -/
def plainText : Text := ⟨id, fun one other => one == other⟩

/-- A list that is sorted away but not let through, and its mail, which is found to be junk. -/
def listMail : Arrival where
  domain := octets "list.example".toList
  spf := some (octets "list.example".toList)
  headers := [(octets "list-id".toList, octets "news".toList)]
  rules := some [⟨octets "list-id".toList, octets "news".toList, "Lists", false, false⟩]
  classified := some (97 / 100, true)

/-- Three messages of junk make their sender a trusted one. -/
theorem junk_trusted :
    (∀ before ∈ [[], [listMail], [listMail, listMail]],
      (decide_ plainText {} (receiveAll plainText {} before) listMail).1.verdict = .acceptJunk) ∧
    (receiveAll plainText {} [listMail, listMail, listMail]).counts listMail.domain = ⟨3, 0⟩ ∧
    (decide_ plainText {} (receiveAll plainText {} [listMail, listMail, listMail])
      listMail).1.reason = trustedSender ∧
    ¬ ∀ before arrival after,
      [listMail, listMail, listMail, listMail] = before ++ arrival :: after →
        Earned plainText {} (receiveAll plainText {} before) arrival := by
  have junk : (decide_ plainText {} (receiveAll plainText {} []) listMail).1.verdict =
      .acceptJunk := by decide +kernel
  refine ⟨by decide +kernel, by decide +kernel, by decide +kernel, ?_⟩
  intro earned
  have never := (earned [] listMail [listMail, listMail, listMail] rfl).never junk
  revert never
  decide +kernel

end OctoMail.Smtp.Reputation
