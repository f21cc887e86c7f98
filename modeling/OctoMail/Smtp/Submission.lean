import OctoMail.Smtp.Replies

/-!
# Submissions

A connection authenticates, names a sender and submits by separate commands, which a client
may interleave as it likes. What the connection stands for at a moment is read off its
trace alone: the login of the last successful AUTH, unless TLS was started after it, and the
sender of the last MAIL accepted after both. Every submission is made by that login, for
that sender, whose address belonged to the account of the login when it was accepted.
-/

namespace OctoMail.Smtp

open OctoMail.Transition

/-- What a connection stands for: the tenant and account it is logged in to, and the sender
of its transaction with the account the address resolved to. -/
structure Standing where
  login : Option (Nat × Nat) := none
  sender : Option (Bytes × Option Nat) := none
deriving DecidableEq, Repr

/-- Logging in and securing the connection both end a transaction, and the second also the
login. -/
def Standing.after (standing : Standing) : Event → Standing
  | .authenticated tenant account => ⟨some (tenant, account), none⟩
  | .startedTLS => ⟨none, none⟩
  | .mail address owner => { standing with sender := some (address, owner) }
  | _ => standing

def standingAfter (standing : Standing) (events : List Event) : Standing :=
  events.foldl Standing.after standing

/-- A submission is on behalf of the login, for a sender of its account. -/
def Standing.Allows (standing : Standing) (submission : Submitted) : Prop :=
  standing.login = some (submission.tenant, submission.account) ∧
    standing.sender = some (submission.mailFrom, some submission.account)

/-- Every submission among the events is allowed where it is made. -/
def Attributed : Standing → List Event → Prop
  | _, [] => True
  | standing, event :: rest =>
      (∀ submission, event = .submitted submission → standing.Allows submission) ∧
        Attributed (standing.after event) rest

theorem attributed_append (standing : Standing) (first second : List Event) :
    Attributed standing (first ++ second) ↔
      Attributed standing first ∧ Attributed (standingAfter standing first) second := by
  induction first generalizing standing with
  | nil => simp [Attributed, standingAfter]
  | cons event rest ih =>
    simp only [List.cons_append, Attributed, ih, standingAfter, List.foldl_cons]
    tauto

theorem standingAfter_append (standing : Standing) (first second : List Event) :
    standingAfter standing (first ++ second) =
      standingAfter (standingAfter standing first) second :=
  List.foldl_append

/-- The events that neither submit nor change what the connection stands for. -/
def Event.isIdle : Event → Bool
  | .authenticated _ _ => false
  | .startedTLS => false
  | .mail _ _ => false
  | .submitted _ => false
  | _ => true

/-- Idle events leave the standing alone and need none. -/
theorem idle_attributed {events : List Event} (idle : ∀ event ∈ events, event.isIdle = true)
    (standing : Standing) :
    standingAfter standing events = standing ∧ Attributed standing events := by
  induction events with
  | nil => exact ⟨rfl, trivial⟩
  | cons event rest ih =>
    obtain ⟨same, attributed⟩ := ih fun other found => idle other (by simp [found])
    have here := idle event (by simp)
    have kept : standing.after event = standing := by
      cases event <;> simp_all [Event.isIdle, Standing.after]
    refine ⟨?_, ?_, ?_⟩
    · rw [standingAfter, List.foldl_cons, kept]
      exact same
    · rintro submission rfl
      simp [Event.isIdle] at here
    · rwa [kept]

section Marks

/-- Replies are idle, so only the marks of events count. -/
theorem marks_attributed (standing : Standing) (events : List Event) :
    standingAfter standing events = standingAfter standing (marks events) ∧
      (Attributed standing events ↔ Attributed standing (marks events)) := by
  induction events generalizing standing with
  | nil => exact ⟨rfl, Iff.rfl⟩
  | cons event rest ih =>
    obtain ⟨same, attributed⟩ := ih (standing.after event)
    cases replies : event.isReply with
    | false =>
      have shown : marks (event :: rest) = event :: marks rest := by simp [marks, replies]
      rw [shown]
      exact ⟨same, and_congr_right fun _ => attributed⟩
    | true =>
      have hidden : marks (event :: rest) = marks rest := by simp [marks, replies]
      have kept : standing.after event = standing := by
        cases event <;> simp_all [Event.isReply, Standing.after]
      have unsubmitted : ∀ submission, event ≠ .submitted submission := by
        rintro submission rfl
        simp [Event.isReply] at replies
      rw [hidden]
      rw [kept] at same attributed
      refine ⟨?_, ?_⟩
      · rw [standingAfter, List.foldl_cons, kept]
        exact same
      · rw [Attributed, kept, attributed]
        simp [unsubmitted]

end Marks

/-! ### What a message does -/

variable {events : List Event}

section Process

variable {go : Go} {server : Server} {world : World} {conn : Conn}

theorem Local.idle (only : Local events) : ∀ event ∈ events, event.isIdle = true := by
  intro event found
  have doing := only event found
  cases event <;> simp_all [Event.isLocal, Event.isIdle]

theorem handled_idle {event : Bytes → Event} (idle : ∀ text, (event text).isIdle = true)
    {seen localparts : List Bytes} :
    ∀ entry ∈ handled event seen localparts, entry.isIdle = true := by
  intro entry found
  obtain ⟨localpart, rfl⟩ := handled_calls found
  exact idle localpart

theorem content_idle {data : Bytes} (idle : ∀ event ∈ events, event.isIdle = true) :
    ∀ event ∈ [.content data] ++ events, event.isIdle = true := by
  simpa [Event.isIdle] using idle

theorem final_idle {code : Nat} {format : String} {args : List Arg}
    (idle : ∀ event ∈ events, event.isIdle = true) :
    ∀ event ∈ (Processed.final conn events code format args).events, event.isIdle = true := by
  intro event found
  rcases List.mem_append.mp found with found | found
  · exact idle event found
  · obtain rfl := List.mem_singleton.mp found
    rfl

theorem looped_idle {data : Bytes} {processed : Processed}
    (looped : Looped server world conn 0 conn.rcpts [.content data] processed) :
    ∀ event ∈ processed.events, event.isIdle = true := by
  cases looped with
  | all _ only | refused _ _ only => exact final_idle (content_idle only.idle)
  | failed _ _ only => exact content_idle only.idle

/-- A processed message leaves the standing alone, and submits only for a sender of the
login. -/
theorem settled_attributed {data : Bytes} {processed : Processed} {standing : Standing}
    (paired : Paired conn)
    (allowed : server.submission = true → standing.login = some (conn.authTenant,
      conn.authAccount) ∧
      standing.sender = some (conn.mailFrom, some conn.authAccount))
    (settled : Settled server world conn data processed) :
    standingAfter standing processed.events = standing ∧
      Attributed standing processed.events := by
  cases settled with
  | refused _ only =>
    exact idle_attributed (final_idle (content_idle only.idle)) standing
  | bounces | reports =>
    exact idle_attributed (final_idle (content_idle (handled_idle (fun _ => rfl)))) standing
  | submitted submission =>
    refine ⟨rfl, by simp, ?_, by simp [reply], trivial⟩
    rintro made same
    obtain rfl := Event.submitted.inj same
    exact allowed submission
  | looped _ _ _ loops =>
    exact idle_attributed (looped_idle (loops paired.symm.le)) standing

end Process

/-! ### Connections -/

/-- What the connection remembers is what it stands for. -/
structure Remembers (server : Server) (conn : Conn) (standing : Standing) : Prop where
  login : conn.authed = true → standing.login = some (conn.authTenant, conn.authAccount)
  sender : server.submission = true → conn.haveFrom = true →
    conn.authed = true ∧ standing.sender = some (conn.mailFrom, some conn.authAccount)

section Steps

variable {go : Go} {server : Server} {world : World} {conn after : Conn} {standing : Standing}

/-- Without a transaction only the login is remembered. -/
theorem remembers_closed (closed : conn.haveFrom = false)
    (login : conn.authed = true → standing.login = some (conn.authTenant, conn.authAccount)) :
    Remembers server conn standing :=
  ⟨login, fun _ sender => absurd sender (by simp [closed])⟩

/-- An effect with idle marks on a connection that remembers the same. -/
theorem remembers_idle (idle : ∀ event ∈ marks events, event.isIdle = true)
    (remembers : Remembers server after standing) :
    Remembers server after (standingAfter standing events) ∧ Attributed standing events := by
  obtain ⟨same, attributed⟩ := idle_attributed idle standing
  obtain ⟨shown, iff⟩ := marks_attributed standing events
  rw [shown, same]
  exact ⟨remembers, iff.mpr attributed⟩

/-- Every effect keeps what is remembered, and submits only on behalf of it. -/
theorem effect_remembers {verb : Option Verb} (paired : Paired conn)
    (remembers : Remembers server conn standing)
    (effect : Effect go server world verb conn after events) :
    Remembers server after (standingAfter standing events) ∧ Attributed standing events := by
  cases effect with
  | kept _ did => exact remembers_idle (by simp [did]) ⟨remembers.1, remembers.2⟩
  | cleared did => exact remembers_idle (by simp [did]) (remembers_closed rfl remembers.1)
  | chunked _ _ _ did => exact remembers_idle (by simp [did]) ⟨remembers.1, remembers.2⟩
  | relayed _ _ _ _ _ did =>
    exact remembers_idle (by simp [did, Event.isIdle]) ⟨remembers.1, remembers.2⟩
  | bounced _ _ _ _ _ _ did | reported _ _ _ _ _ _ did | resolved _ _ _ _ _ _ did =>
    exact remembers_idle (by simp [did, Event.isIdle]) ⟨remembers.1, remembers.2⟩
  | secured did =>
    obtain ⟨shown, iff⟩ := marks_attributed standing events
    rw [shown, iff, did]
    exact ⟨remembers_closed rfl Bool.noConfusion, by simp [Attributed]⟩
  | loggedIn _ _ did =>
    obtain ⟨shown, iff⟩ := marks_attributed standing events
    rw [shown, iff, did]
    exact ⟨remembers_closed rfl (fun _ => rfl), by simp [Attributed]⟩
  | begun _ _ _ _ _ _ owned did =>
    obtain ⟨shown, iff⟩ := marks_attributed standing events
    rw [shown, iff, did]
    refine ⟨⟨remembers.1, fun submission _ => ?_⟩, by simp [Attributed]⟩
    obtain ⟨authed, resolved⟩ := owned submission
    exact ⟨authed, by simp [standingAfter, Standing.after, submission, resolved, Conn.reset]⟩
  | processed before inBDAT buffer data _ sender did =>
    obtain ⟨same, attributed⟩ := @idle_attributed (marks before) (by simp [did]) standing
    obtain ⟨shown, iff⟩ := marks_attributed standing before
    have settled : Settled server world (conn.buffered inBDAT buffer) data _ :=
      @processData_settled go _ _ _ data
    obtain ⟨kept, made⟩ := @settled_attributed _ _ _ _ _ standing (by exact paired)
      (fun submission => by
        obtain ⟨authed, sent⟩ := remembers.sender submission sender
        exact ⟨remembers.login authed, sent⟩) settled
    rw [settled_conn (by exact paired) settled, standingAfter_append, attributed_append, shown,
      same, kept]
    exact ⟨remembers_closed rfl remembers.1, iff.mpr attributed, made⟩

end Steps

/-- In every trace of a connection, each submission is made with the tenant and account of
the last successful AUTH, on the state of TLS it was made on, and for the sender of the last
MAIL after it, whose address resolved to that account at the time. -/
theorem submissions_attributed (go : Go) (server : Server) (stream : Bytes)
    (worlds : List World) (session : Session)
    (reached : run (step go server) (accepted server stream) worlds = some session)
    (before after : List Event) (submission : Submitted)
    (made : session.trace = before ++ .submitted submission :: after) :
    (standingAfter {} before).Allows submission := by
  have holds : Paired session.conn ∧
      Remembers server session.conn (standingAfter {} session.trace) ∧
      Attributed {} session.trace := by
    refine always
      (fun session : Session => Paired session.conn ∧
        Remembers server session.conn (standingAfter {} session.trace) ∧
        Attributed {} session.trace)
      ?_ ⟨by rfl, ?_, ?_⟩ reached
    · rintro earlier world next ⟨paired, remembers, attributed⟩ moved
      obtain ⟨-, rfl⟩ := step_serve moved
      have effect : Effect go server world _ earlier.conn _ _ := serve_effect earlier.input
      obtain ⟨kept, made⟩ := effect_remembers paired remembers effect
      rw [Session.after_trace, standingAfter_append, attributed_append]
      exact ⟨effect_paired effect paired, kept, attributed, made⟩
    · exact remembers_closed rfl Bool.noConfusion
    · simp [accepted, Attributed, reply]
  have attributed := holds.2.2
  rw [made, attributed_append] at attributed
  exact attributed.2.1 submission rfl

/-- A listener for submissions. -/
def submissionServer : Server := { hostname := octets ['m', 'x'], submission := true }

/-- A login with PLAIN, and a message of one line. -/
def oneSubmission : Bytes :=
  sent ['A', 'U', 'T', 'H', ' ', 'P', 'L', 'A', 'I', 'N', ' ', 'A', 'G', 'F', 'A', 'e', 'Q', 'B',
    'w'] ++
  sent ['M', 'A', 'I', 'L', ' ', 'F', 'R', 'O', 'M', ':', '<', 'a', '@', 'y', '>'] ++
  sent ['R', 'C', 'P', 'T', ' ', 'T', 'O', ':', '<', 'b', '@', 'z', '>'] ++
  sent ['D', 'A', 'T', 'A'] ++ sent ['h', 'i'] ++ sent ['.']

/-- The message is submitted for the account that logged in. -/
theorem oneSubmission_attributed :
    ∃ session before after,
      run (step ascii submissionServer) (accepted submissionServer oneSubmission)
        [obliging, obliging, obliging, obliging] = some session ∧
      session.trace = before ++ .submitted ⟨1, 97, octets ['a', '@', 'y'],
        [octets ['b', '@', 'z']], sent ['h', 'i'], none, {}⟩ :: after ∧
      (standingAfter {} before).Allows ⟨1, 97, octets ['a', '@', 'y'],
        [octets ['b', '@', 'z']], sent ['h', 'i'], none, {}⟩ := by
  have ended : ((run (step ascii submissionServer) (accepted submissionServer oneSubmission)
      [obliging, obliging, obliging, obliging]).map (fun session : Session => decide
        (session.trace = session.trace.take 9 ++ .submitted ⟨1, 97, octets ['a', '@', 'y'],
          [octets ['b', '@', 'z']], sent ['h', 'i'], none, {}⟩ :: session.trace.drop 10))) =
      some true := by decide +kernel
  obtain ⟨session, reached, seen⟩ := Option.map_eq_some_iff.mp ended
  have made := of_decide_eq_true seen
  exact ⟨session, _, _, reached, made,
    submissions_attributed ascii submissionServer oneSubmission _ session reached _ _ _ made⟩

end OctoMail.Smtp
