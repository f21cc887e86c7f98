import OctoMail.Smtp.Transactions

/-!
# Processing a message

`processData` hands a message to the bounce handler, to the report handler, to the queue, or
to the local recipients one after the other. A recipient is served when its verdict lets the
message in and its delivery succeeds; the first that is not ends the loop, with a reply of
its own or, when the delivery failed, with a panic: the reply names an element of a slice
that was cleared just before.
-/

namespace OctoMail.Smtp

open List

/-- A reply that ends a command: neither the go-ahead of DATA nor a challenge. -/
def Event.isFinal : Event → Bool
  | .replied reply => decide (reply.code < 300 ∨ 400 ≤ reply.code)
  | _ => false

/-- A reply that tells the client the message was taken. -/
def Event.isSuccess : Event → Bool
  | .replied reply => decide (200 ≤ reply.code ∧ reply.code < 300)
  | _ => false

/-- A message was added to an account. -/
def Event.isDelivered : Event → Bool
  | .delivered _ _ _ => true
  | _ => false

/-- What receiving a message does: it is checked, and for each recipient it gets a header and is
delivered, with what follows. -/
def Event.isLocal : Event → Bool
  | .checked _ _ => true
  | .prefixed _ _ _ => true
  | .delivered _ _ _ => true
  | .vacation _ _ _ => true
  | .rules _ => true
  | _ => false

/-- Only checks, deliveries and what follows them. -/
def Local (events : List Event) : Prop := ∀ event ∈ events, event.isLocal = true

theorem Local.append {first second : List Event} (one : Local first) (other : Local second) :
    Local (first ++ second) := by
  intro event found
  rcases mem_append.mp found with found | found
  · exact one event found
  · exact other event found

/-- No message was added to an account. -/
def AddsNothing (events : List Event) : Prop := ∀ event ∈ events, event.isDelivered = false

theorem AddsNothing.append {first second : List Event} (one : AddsNothing first)
    (other : AddsNothing second) : AddsNothing (first ++ second) := by
  intro event found
  rcases mem_append.mp found with found | found
  · exact one event found
  · exact other event found

section Process

variable (go : Go) (server : Server) (world : World)

/-- The recipient's verdict lets the message in. -/
def LetIn (i : Nat) : Prop :=
  server.decider = true →
    (world.decide i).verdict = .accept ∨ (world.decide i).verdict = .acceptJunk

instance (i : Nat) : Decidable (LetIn server world i) :=
  inferInstanceAs (Decidable (_ → _))

/-- The message is let in and its delivery succeeds. -/
def Served (i : Nat) : Prop := LetIn server world i ∧ world.deliver i = .delivered

instance (i : Nat) : Decidable (Served server world i) :=
  inferInstanceAs (Decidable (_ ∧ _))

variable {server world}

/-- A message is filed somewhere exactly when no verdict keeps it out. -/
theorem route_filed_iff (i : Nat) :
    (∃ mailbox junk, route server world i = .filed mailbox junk) ↔ LetIn server world i := by
  unfold route LetIn
  cases server.decider with
  | false =>
    cases server.junk && world.classify i <;> simp
  | true => cases verdict : (world.decide i).verdict <;> simp [verdict]

variable (server world) (conn : Conn) (checked : Option (InboundSession × AuthResult))

/-- How the loop over the recipients ends: with all of them served, or at the first that is
not. Only a failed delivery panics. A loop that stops has added nothing if it stops at its first
recipient, unless the delivery there failed after it was committed. -/
inductive Looped (i : Nat) (rest : List Nat) (events : List Event) : Processed → Prop
  | all (more : List Event) (only : Local more)
      (every : ∀ j, i ≤ j → j < i + rest.length → Served server world j)
      (delivered : ∀ account ∈ rest, ∃ mailbox junk, .delivered account mailbox junk ∈ more) :
      Looped i rest events (.final conn (events ++ more) 250 "2.0.0 accepted")
  | refused (k : Nat) (more : List Event) (only : Local more)
      (earlier : ∀ j, i ≤ j → j < k → Served server world j) (within : k < i + rest.length)
      (out : ¬ LetIn server world k) (code : Nat) (format : String) (args : List Arg)
      (failure : 400 ≤ code) (first : AddsNothing more ↔ k = i) :
      Looped i rest events (.final conn (events ++ more) code format args)
  | failed (k : Nat) (more : List Event) (only : Local more)
      (earlier : ∀ j, i ≤ j → j < k → Served server world j) (within : k < i + rest.length)
      (letIn : LetIn server world k) (failure : world.deliver k ≠ .delivered)
      (first : AddsNothing more ↔ k = i ∧ world.deliver k ≠ .failed true) :
      Looped i rest events ⟨conn.reset, events ++ more, true⟩

variable {go server world conn checked}

variable {i account : Nat} {events : List Event} {processed : Processed} {rest : List Nat}

/-- The loop went on from a later recipient: those before it were served, which adds messages if
there are any. -/
theorem Looped.after {j : Nat} {others : List Nat} (before : List Event) (only : Local before)
    (served : ∀ k, i ≤ k → k < j → Served server world k) (start : i ≤ j)
    (length : j + others.length = i + rest.length) (nothing : AddsNothing before ↔ j = i)
    (handed : ∀ account ∈ rest, account ∈ others ∨
      ∃ mailbox junk, .delivered account mailbox junk ∈ before)
    (looped : Looped server world conn j others (events ++ before) processed) :
    Looped server world conn i rest events processed := by
  have all {k : Nat} (later : ∀ m, j ≤ m → m < k → Served server world m) :
      ∀ m, i ≤ m → m < k → Served server world m := fun m first last =>
    (Nat.lt_or_ge m j).elim (served m first) fun more => later m more last
  have adds {more : List Event} : AddsNothing (before ++ more) ↔ j = i ∧ AddsNothing more := by
    simp only [← nothing, AddsNothing, forall_mem_append]
  have first {k : Nat} (unserved : ¬ Served server world k) : j = i ∧ k = j ↔ k = i := by
    refine ⟨by omega, fun same => ?_⟩
    have : j = i := by
      by_contra apart
      exact unserved (served k (by omega) (by omega))
    omega
  cases looped with
  | all more onlyMore every delivered =>
    rw [append_assoc]
    refine .all (before ++ more) (only.append onlyMore) (length ▸ all every) fun account found => ?_
    rcases handed account found with later | ⟨mailbox, junk, stored⟩
    · obtain ⟨mailbox, junk, stored⟩ := delivered account later
      exact ⟨mailbox, junk, mem_append_right _ stored⟩
    · exact ⟨mailbox, junk, mem_append_left _ stored⟩
  | refused k more onlyMore earlier within out code format args failure nothingMore =>
    rw [append_assoc]
    exact .refused k (before ++ more) (only.append onlyMore) (all earlier) (length ▸ within) out code
      format args failure (by rw [adds, nothingMore, first fun here => out here.1])
  | failed k more onlyMore earlier within letIn failure nothingMore =>
    rw [append_assoc]
    exact .failed k (before ++ more) (only.append onlyMore) (all earlier) (length ▸ within) letIn
      failure (by rw [adds, nothingMore, ← and_assoc, first fun here => failure here.2])

/-- The events before those of the loop, where nothing was delivered yet. -/
theorem Looped.before (before : List Event) (only : Local before) (nothing : AddsNothing before) :
    Looped server world conn i rest (events ++ before) processed →
      Looped server world conn i rest events processed :=
  Looped.after before only (fun k _ _ => by omega) le_rfl rfl (iff_of_true nothing rfl)
    fun _ => .inl

/-- After a delivery the loop goes on. -/
theorem afterDelivery_continues (server : Server) (i accountId : Nat) (mailbox : String)
    (processed : List Nat) (events : List Event) (next : List Nat → List Event → Processed)
    (addressed : i < conn.rcptAddrs.length) :
    ∃ more later, Local more ∧
      afterDelivery server conn i accountId mailbox processed events next =
        next later (events ++ more) := by
  have inRange : conn.rcptAddrs[i]? = some conn.rcptAddrs[i] :=
    getElem?_eq_getElem addressed
  unfold afterDelivery
  simp only [Processed.at, inRange]
  split <;> split
  · exact ⟨[.vacation accountId conn.mailFrom conn.rcptAddrs[i], .rules accountId],
      accountId :: processed, by simp [Local, Event.isLocal], by simp⟩
  · exact ⟨[.vacation accountId conn.mailFrom conn.rcptAddrs[i]], processed,
      by simp [Local, Event.isLocal], rfl⟩
  · exact ⟨[.rules accountId], accountId :: processed, by simp [Local, Event.isLocal], rfl⟩
  · exact ⟨[], processed, by simp [Local], by simp⟩

/-- All that handing over does is call the handler. -/
theorem handled_calls {event : Bytes → Event} {seen localparts : List Bytes} {entry : Event}
    (found : entry ∈ handled event seen localparts) : ∃ localpart, entry = event localpart := by
  induction localparts generalizing seen with
  | nil => simp [handled] at found
  | cons localpart rest ih =>
    unfold handled at found
    split at found
    · exact ih found
    · rcases mem_cons.mp found with rfl | found
      · exact ⟨localpart, rfl⟩
      · exact ih found

/-- However the loop ends, the transaction is cleared. -/
theorem Looped.conn_eq (looped : Looped server world conn i rest events processed) :
    processed.conn = conn.reset := by
  cases looped <;> rfl

/-- The loop stops at its next recipient with a reply. -/
theorem looped_refused {code : Nat} {format : String} {args : List Arg} (failure : 400 ≤ code)
    (out : ¬ LetIn server world i) :
    Looped server world conn i (account :: rest) events (.final conn events code format args) := by
  have ended : Looped server world conn i (account :: rest) events
      (.final conn (events ++ []) code format args) :=
    .refused i [] (by simp [Local]) (fun j start before => by omega) (by simp) out code
      format args failure (by simp [AddsNothing])
  simpa using ended

/-- The loop stops at its next recipient without a reply. -/
theorem looped_failed (letIn : LetIn server world i) (failure : world.deliver i ≠ .delivered)
    (uncommitted : world.deliver i ≠ .failed true) :
    Looped server world conn i (account :: rest) events ⟨conn.reset, events, true⟩ := by
  have stuck : Looped server world conn i (account :: rest) events
      ⟨conn.reset, events ++ [], true⟩ :=
    .failed i [] (by simp [Local]) (fun j start before => by omega) (by simp) letIn failure
      (by simp [AddsNothing, uncommitted])
  simpa using stuck

/-- The loop serves one recipient and goes on, or stops there. -/
theorem deliverOne_looped {accountId : Nat} {processed : List Nat}
    {next : List Nat → List Event → Processed} (addressed : i < conn.rcptAddrs.length)
    (others : ∀ processed events, Looped server world conn (i + 1) rest events
      (next processed events)) :
    Looped server world conn i (accountId :: rest) events
      (deliverOne server world conn i accountId processed events next) := by
  have inRange : conn.rcptAddrs[i]? = some conn.rcptAddrs[i] :=
    getElem?_eq_getElem addressed
  have cleared : conn.reset.rcptAddrs[i]? = none := rfl
  simp only [deliverOne, Processed.at, inRange, cleared]
  cases routed : route server world i with
  | deferred =>
    have out : ¬ LetIn server world i := by simp [← route_filed_iff, routed]
    dsimp only
    split
    · exact looped_refused (by decide) out
    · exact looped_refused (by decide) out
  | rejected =>
    exact looped_refused (by decide) (by simp [← route_filed_iff, routed])
  | filed mailbox junk =>
    have letIn : LetIn server world i := (route_filed_iff i).mp ⟨mailbox, junk, routed⟩
    dsimp only
    cases ended : world.deliver i with
    | delivered =>
      obtain ⟨more, later, only, continued⟩ := afterDelivery_continues server i
        accountId mailbox processed (events ++ [.delivered accountId mailbox junk]) next addressed
      dsimp only
      rw [continued, append_assoc]
      have delivery : Local [.delivered accountId mailbox junk] := by
        simp [Local, Event.isLocal]
      refine Looped.after _ (delivery.append only) (fun k first last => ?_) (Nat.le_succ i)
        (by simp; omega) (by simp [AddsNothing, Event.isDelivered]) (fun account found => ?_)
        (others later _)
      · obtain rfl : k = i := by omega
        exact ⟨letIn, ended⟩
      · rcases mem_cons.mp found with rfl | found
        · exact .inr ⟨mailbox, junk, by simp⟩
        · exact .inl found
    | overQuota => exact looped_failed letIn (by simp [ended]) (by simp [ended])
    | failed committed =>
      cases committed with
      | false => exact looped_failed letIn (by simp [ended]) (by simp [ended])
      | true =>
        exact .failed i [.delivered accountId mailbox junk] (by simp [Local, Event.isLocal])
          (fun j start before => by omega) (by simp) letIn (by simp [ended])
          (by simp [AddsNothing, Event.isDelivered, ended])

/-- The loop over recipients whose addresses are known. -/
theorem deliverAll_looped (rest : List Nat) (i : Nat) (processed : List Nat)
    (events : List Event) (addressed : i + rest.length ≤ conn.rcptAddrs.length) :
    Looped server world conn i rest events
      (deliverAll server world conn checked i rest processed events) := by
  induction rest generalizing i processed events with
  | nil =>
    have ended : Looped server world conn i [] events
        (.final conn (events ++ []) 250 "2.0.0 accepted") :=
      .all [] (by simp [Local]) (fun j start within => by simp at within; omega) (by simp)
    simpa [deliverAll] using ended
  | cons accountId rest ih =>
    have here : i < conn.rcptAddrs.length := by simp at addressed; omega
    have others := fun processed events =>
      ih (i + 1) processed events (by simp at addressed; omega)
    cases checked with
    | none => exact deliverOne_looped here others
    | some found =>
      have inRange : conn.rcptAddrs[i]? = some conn.rcptAddrs[i] :=
        getElem?_eq_getElem here
      simp only [deliverAll, Processed.at, inRange]
      exact Looped.before [.prefixed found.1 found.2 conn.rcptAddrs[i]]
        (by simp [Local, Event.isLocal]) (by simp [AddsNothing, Event.isDelivered])
        (deliverOne_looped here others)

/-- What a message comes to: it is refused as a whole, handed to the handlers, submitted, or
taken through the loop over the local recipients. -/
inductive Settled (server : Server) (world : World) (conn : Conn) (data : Bytes) :
    Processed → Prop
  | refused (checks : List Event) (only : Local checks) (nothing : AddsNothing checks)
      (code : Nat) (format : String) (args : List Arg) (failure : 400 ≤ code) :
      Settled server world conn data (.final conn ([.content data] ++ checks) code format args)
  | bounces (some_ : conn.bounceRcpts ≠ []) :
      Settled server world conn data (.final conn
        ([.content data] ++ handled .bounceHandled [] conn.bounceRcpts) 250 "2.0.0 accepted")
  | reports (none_ : conn.bounceRcpts = [] ∨ server.bounceHandler = false)
      (some_ : conn.reportRcpts ≠ []) :
      Settled server world conn data (.final conn
        ([.content data] ++ handled .reportHandled [] conn.reportRcpts) 250 "2.0.0 accepted")
  | submitted (submission : server.submission = true) (code : Nat) (format : String)
      (final : code = 250 ∨ code = 451) :
      Settled server world conn data (.final conn ([.content data] ++ [.submitted ⟨conn.authTenant,
        conn.authAccount, conn.mailFrom, conn.subRcpts, data, conn.holdUntil,
        dsnParams conn data⟩]) code format)
  | looped (mx : server.submission = false)
      (noBounces : conn.bounceRcpts = [] ∨ server.bounceHandler = false)
      (noReports : conn.reportRcpts = [] ∨ server.reportHandler = false) {processed : Processed}
      (loops : conn.rcpts.length ≤ conn.rcptAddrs.length →
        Looped server world conn 0 conn.rcpts [.content data] processed) :
      Settled server world conn data processed

/-- A message is refused before it is checked. -/
theorem settled_refused {data : Bytes} {code : Nat} {format : String} {args : List Arg}
    (failure : 400 ≤ code) :
    Settled server world conn data (.final conn [.content data] code format args) :=
  .refused [] (by simp [Local]) (by simp [AddsNothing]) code format args failure

theorem receive_settled (data : Bytes) (mx : server.submission = false)
    (noBounces : conn.bounceRcpts = [] ∨ server.bounceHandler = false)
    (noReports : conn.reportRcpts = [] ∨ server.reportHandler = false) :
    Settled server world conn data
      (receive go server world conn data [.content data]) := by
  have asked : Local [.checked conn.inboundSession data] := by simp [Local, Event.isLocal]
  have nothing : AddsNothing [.checked conn.inboundSession data] := by
    simp [AddsNothing, Event.isDelivered]
  have looped (checked : Option (InboundSession × AuthResult)) : Settled server world conn data
      (deliverAll server world conn checked 0 conn.rcpts []
        ([.content data] ++ [.checked conn.inboundSession data])) :=
    .looped mx noBounces noReports fun addressed =>
      Looped.before _ asked nothing (deliverAll_looped conn.rcpts 0 [] _ (by omega))
  unfold receive
  split
  · exact settled_refused (by decide)
  split
  · exact .looped mx noBounces noReports fun addressed =>
      deliverAll_looped conn.rcpts 0 [] _ (by omega)
  dsimp only
  split
  · exact looped none
  split
  · exact .refused _ asked nothing _ _ _ (by decide)
  split
  · exact .refused _ asked nothing _ _ _ (by decide)
  · exact looped _

theorem processData_settled (data : Bytes) :
    Settled server world conn data
      (processData go server world conn data) := by
  unfold processData
  dsimp only
  split
  · exact settled_refused (by decide)
  split
  · next bounces => exact .bounces (by simp_all)
  next noBounces =>
  have noBounces : conn.bounceRcpts = [] ∨ server.bounceHandler = false := by
    rcases bounces : conn.bounceRcpts with _ | _ <;> simp_all
  split
  · next reports => exact .reports noBounces (by simp_all)
  next noReports =>
  have noReports : conn.reportRcpts = [] ∨ server.reportHandler = false := by
    rcases reports : conn.reportRcpts with _ | _ <;> simp_all
  split
  · next submission =>
    split
    · exact .submitted submission _ _ (.inl rfl)
    · exact .submitted submission _ _ (.inr rfl)
  · exact receive_settled data (by simp_all) noBounces noReports

/-- With an address for each recipient, processing always clears the transaction. -/
theorem settled_conn {data : Bytes} (paired : conn.rcptAddrs.length = conn.rcpts.length)
    (settled : Settled server world conn data processed) : processed.conn = conn.reset := by
  cases settled with
  | looped _ _ _ loops => exact (loops (by omega)).conn_eq
  | _ => rfl

end Process

end OctoMail.Smtp
