import OctoMail.Smtp.Replies

/-!
# Accepted recipients

A recipient that RCPT accepts is of one of four kinds and is kept in the list of its kind.
When the message is taken, only one of the lists is served: bounces before reports, both
before submissions and local deliveries. That none of the others is forgotten rests on the
lists excluding each other, which holds in every state of every connection.
-/

namespace OctoMail.Smtp

open OctoMail.Transition

/-! ### The recipients since the last MAIL -/

/-- The recipients accepted in the transaction, after one more event. -/
def afterEvent (rcpts : List Recipient) : Event → List Recipient
  | .mail _ _ => []
  | .rcpt recipient => rcpts ++ [recipient]
  | _ => rcpts

/-- The recipients accepted since the last MAIL that was. -/
def openRcpts (trace : List Event) : List Recipient := trace.foldl afterEvent []

/-- Replies do not count. -/
theorem foldl_afterEvent_marks (rcpts : List Recipient) (events : List Event) :
    events.foldl afterEvent rcpts = (marks events).foldl afterEvent rcpts := by
  induction events generalizing rcpts with
  | nil => rfl
  | cons event rest ih =>
    cases event <;>
      simpa [marks, Event.isReply, afterEvent] using ih _

theorem openRcpts_append (trace events : List Event) :
    openRcpts (trace ++ events) = (marks events).foldl afterEvent (openRcpts trace) := by
  rw [openRcpts, List.foldl_append, foldl_afterEvent_marks, openRcpts]

/-! ### The lists -/

/-- At most one of the lists of a receiving connection has an element. -/
def Exclusive (conn : Conn) : Prop :=
  (conn.bounceRcpts = [] ∧ conn.reportRcpts = []) ∨ (conn.rcpts = [] ∧ conn.reportRcpts = []) ∨
    (conn.rcpts = [] ∧ conn.bounceRcpts = [])

/-- The recipient is in the list of its kind. -/
def Listed (conn : Conn) : Recipient → Prop
  | .bounce localpart => localpart ∈ conn.bounceRcpts
  | .report localpart => localpart ∈ conn.reportRcpts
  | .local_ accountId => accountId ∈ conn.rcpts
  | .relay address => address ∈ conn.subRcpts

/-- The lists of a connection exclude each other, have elements only where the listener
serves them, and hold every recipient of an open transaction. -/
structure Enveloped (server : Server) (conn : Conn) (rcpts : List Recipient) : Prop where
  exclusive : Exclusive conn
  bounces : conn.bounceRcpts ≠ [] → server.bounceHandler = true ∧ server.submission = false
  reports : conn.reportRcpts ≠ [] → server.reportHandler = true ∧ server.submission = false
  locals : conn.rcpts ≠ [] → server.submission = false
  relays : conn.subRcpts ≠ [] → server.submission = true
  listed : conn.haveFrom = true → ∀ recipient ∈ rcpts, Listed conn recipient

variable {events : List Event}

section Steps

variable {go : Go} {server : Server} {world : World} {conn after : Conn}
  {rcpts : List Recipient}

/-- Without a transaction there are no recipients. -/
theorem enveloped_cleared {rcpts : List Recipient} (bounces : conn.bounceRcpts = [])
    (reports : conn.reportRcpts = []) (locals : conn.rcpts = []) (relays : conn.subRcpts = [])
    (closed : conn.haveFrom = true → rcpts = []) : Enveloped server conn rcpts where
  exclusive := .inl ⟨bounces, reports⟩
  bounces := fun some_ => absurd bounces some_
  reports := fun some_ => absurd reports some_
  locals := fun some_ => absurd locals some_
  relays := fun some_ => absurd relays some_
  listed := fun sender recipient found => by simp [closed sender] at found

variable {recipient : Recipient}

/-- A recipient of any kind is found in the lists that one more was added to. -/
theorem listed_concat (enveloped : Enveloped server conn rcpts) (sender : conn.haveFrom = true)
    (grown : ∀ other, Listed conn other → Listed after other) (added : Listed after recipient) :
    ∀ other ∈ rcpts ++ [recipient], Listed after other := by
  intro other found
  rcases List.mem_append.mp found with found | found
  · exact grown other (enveloped.listed sender other found)
  · obtain rfl : other = recipient := by simpa using found
    exact added

/-- Chunks do not matter to the lists. -/
theorem Enveloped.buffered {inBDAT : Bool} {buffer : Bytes}
    (enveloped : Enveloped server conn rcpts) :
    Enveloped server (conn.buffered inBDAT buffer) rcpts :=
  ⟨enveloped.1, enveloped.2, enveloped.3, enveloped.4, enveloped.5, fun sender recipient found =>
    by cases recipient <;> exact enveloped.6 sender _ found⟩

/-- Every effect keeps the lists in order. -/
theorem effect_enveloped {verb : Option Verb} (paired : Paired conn)
    (enveloped : Enveloped server conn rcpts)
    (effect : Effect go server world verb conn after events) :
    Enveloped server after ((marks events).foldl afterEvent rcpts) := by
  cases effect with
  | kept _ did =>
    rw [did]
    exact ⟨enveloped.1, enveloped.2, enveloped.3, enveloped.4, enveloped.5, enveloped.6⟩
  | chunked _ _ _ did =>
    rw [did]
    exact enveloped.buffered
  | cleared | secured | loggedIn => exact enveloped_cleared rfl rfl rfl rfl Bool.noConfusion
  | begun _ _ _ _ _ _ _ did =>
    rw [did]
    exact enveloped_cleared rfl rfl rfl rfl (fun _ => rfl)
  | processed _ _ _ data =>
    rw [settled_conn (by exact paired) (processData_settled data)]
    exact enveloped_cleared rfl rfl rfl rfl Bool.noConfusion
  | relayed _ _ _ sender submission did =>
    rw [did]
    refine ⟨enveloped.1, enveloped.2, enveloped.3, enveloped.4, fun _ => submission, fun _ =>
      listed_concat enveloped sender (fun other listed => ?_) (by simp [Listed])⟩
    cases other <;> simp_all [Listed]
  | bounced _ sender mx handler locals reports did =>
    rw [did]
    refine ⟨.inr (.inl ⟨locals, reports⟩), fun _ => ⟨handler, mx⟩, enveloped.3, enveloped.4,
      enveloped.5, fun _ =>
      listed_concat enveloped sender (fun other listed => ?_) (by simp [Listed])⟩
    cases other <;> simp_all [Listed]
  | reported _ sender mx handler locals bounces did =>
    rw [did]
    refine ⟨.inr (.inr ⟨locals, bounces⟩), enveloped.2, fun _ => ⟨handler, mx⟩, enveloped.4,
      enveloped.5, fun _ =>
      listed_concat enveloped sender (fun other listed => ?_) (by simp [Listed])⟩
    cases other <;> simp_all [Listed]
  | resolved _ _ sender mx bounces reports did =>
    rw [did]
    refine ⟨.inl ⟨bounces, reports⟩, enveloped.2, enveloped.3, fun _ => mx, enveloped.5,
      fun _ => listed_concat enveloped sender (fun other listed => ?_) (by simp [Listed])⟩
    cases other <;> simp_all [Listed]

/-! ### Handing over -/

/-- The recipient has been served: its handler was called, its account has the message, or
the message was submitted for it. -/
def Handed (events : List Event) : Recipient → Prop
  | .bounce localpart => .bounceHandled localpart ∈ events
  | .report localpart => .reportHandled localpart ∈ events
  | .local_ accountId => ∃ mailbox junk, .delivered accountId mailbox junk ∈ events
  | .relay address => ∃ submission, .submitted submission ∈ events ∧ address ∈ submission.rcptTo

/-- The message was taken. -/
def Accepts (events : List Event) : Prop := ∃ format args, reply 250 format args ∈ events

theorem accepts_append {before : List Event} (asked : ¬ Accepts before)
    (accepts : Accepts (before ++ events)) : Accepts events := by
  obtain ⟨format, args, found⟩ := accepts
  rcases List.mem_append.mp found with found | found
  · exact absurd ⟨format, args, found⟩ asked
  · exact ⟨format, args, found⟩

theorem handed_append {before : List Event}
    (handed : Handed events recipient) : Handed (before ++ events) recipient := by
  cases recipient with
  | bounce | report => exact List.mem_append_right _ handed
  | local_ =>
    obtain ⟨mailbox, junk, stored⟩ := handed
    exact ⟨mailbox, junk, List.mem_append_right _ stored⟩
  | relay =>
    obtain ⟨submission, found, named⟩ := handed
    exact ⟨submission, List.mem_append_right _ found, named⟩

/-- Every local part is handed over, though only once. -/
theorem mem_handled (event : Bytes → Event) (seen : List Bytes) {localparts : List Bytes} :
    ∀ localpart ∈ localparts, localpart ∈ seen ∨ event localpart ∈ handled event seen localparts := by
  induction localparts generalizing seen with
  | nil => simp
  | cons first rest ih =>
    intro localpart found
    unfold handled
    split
    · next known =>
      rcases List.mem_cons.mp found with rfl | found
      · exact .inl (by simpa using known)
      · exact ih seen localpart found
    · rcases List.mem_cons.mp found with rfl | found
      · exact .inr (by simp)
      · rcases ih (first :: seen) localpart found with known | handed
        · rcases List.mem_cons.mp known with rfl | known
          · exact .inr (by simp)
          · exact .inl known
        · exact .inr (List.mem_cons_of_mem _ handed)

/-- A final reply after silent events accepts only with 250. -/
theorem accepts_final {code : Nat} {format : String} {args : List Arg}
    (silent : ∀ event ∈ events, event.isReply = false)
    (accepts : Accepts (Processed.final conn events code format args).events) : code = 250 := by
  obtain ⟨format, args, found⟩ := accepts
  rcases List.mem_append.mp found with found | found
  · exact absurd (silent _ found) (by simp [reply, Event.isReply])
  · simp [reply] at found
    exact found.1.symm

theorem looped_handed {data : Bytes} {processed : Processed}
    (looped : Looped server world conn 0 conn.rcpts [.content data] processed)
    (accepts : Accepts processed.events) :
    ∀ accountId ∈ conn.rcpts, Handed processed.events (.local_ accountId) := by
  cases looped with
  | all _ _ _ delivered =>
    intro accountId found
    obtain ⟨mailbox, junk, stored⟩ := delivered accountId found
    exact ⟨mailbox, junk, by simp [Processed.final, stored]⟩
  | refused _ _ only =>
    have taken := accepts_final (content_silent only.silent) accepts
    omega
  | failed _ _ only =>
    obtain ⟨format, args, found⟩ := accepts
    exact absurd (content_silent only.silent _ found) (by simp [reply, Event.isReply])

/-- A listener of the other kind has no recipients of this one. -/
theorem Enveloped.no_relays (enveloped : Enveloped server conn rcpts)
    (mx : server.submission = false) : conn.subRcpts = [] := by
  by_contra some_
  simpa [mx] using enveloped.relays some_

theorem Enveloped.no_bounces (enveloped : Enveloped server conn rcpts)
    (unserved : conn.bounceRcpts = [] ∨ server.bounceHandler = false) : conn.bounceRcpts = [] := by
  by_contra some_
  simp [some_, (enveloped.bounces some_).1] at unserved

theorem Enveloped.no_reports (enveloped : Enveloped server conn rcpts)
    (unserved : conn.reportRcpts = [] ∨ server.reportHandler = false) : conn.reportRcpts = [] := by
  by_contra some_
  simp [some_, (enveloped.reports some_).1] at unserved

/-- A submitting connection has no recipients but relayed ones. -/
theorem Enveloped.only_relays (enveloped : Enveloped server conn rcpts)
    (submission : server.submission = true) :
    conn.bounceRcpts = [] ∧ conn.reportRcpts = [] ∧ conn.rcpts = [] := by
  refine ⟨?_, ?_, ?_⟩
  · by_contra some_
    simpa [submission] using (enveloped.bounces some_).2
  · by_contra some_
    simpa [submission] using (enveloped.reports some_).2
  · by_contra some_
    simpa [submission] using enveloped.locals some_

/-- A message that is taken is handed over for every listed recipient. -/
theorem settled_handed {data : Bytes} {processed : Processed} (paired : Paired conn)
    (enveloped : Enveloped server conn rcpts)
    (settled : Settled server world conn data processed) (accepts : Accepts processed.events)
    (listed : Listed conn recipient) :
    Handed processed.events recipient := by
  cases settled with
  | refused _ only =>
    have taken := accepts_final (content_silent only.silent) accepts
    omega
  | bounces some_ =>
    obtain ⟨noReports, noLocals⟩ : conn.reportRcpts = [] ∧ conn.rcpts = [] := by
      rcases enveloped.exclusive with none_ | none_ | none_ <;> simp_all
    have noRelays := enveloped.no_relays (enveloped.bounces some_).2
    cases recipient with
    | bounce localpart =>
      rcases mem_handled .bounceHandled [] localpart listed with seen | handed
      · cases seen
      · simp [Handed, Processed.final, handed]
    | _ => simp_all [Listed]
  | reports none_ some_ =>
    have noBounces := enveloped.no_bounces none_
    have noLocals : conn.rcpts = [] := by
      rcases enveloped.exclusive with none_ | none_ | none_ <;> simp_all
    have noRelays := enveloped.no_relays (enveloped.reports some_).2
    cases recipient with
    | report localpart =>
      rcases mem_handled .reportHandled [] localpart listed with seen | handed
      · cases seen
      · simp [Handed, Processed.final, handed]
    | _ => simp_all [Listed]
  | submitted submission =>
    obtain ⟨noBounces, noReports, noLocals⟩ := enveloped.only_relays submission
    cases recipient with
    | relay =>
      refine ⟨⟨conn.authTenant, conn.authAccount, conn.mailFrom, conn.subRcpts, data,
        conn.holdUntil, dsnParams conn data⟩, by simp [Processed.final], listed⟩
    | _ => simp_all [Listed]
  | looped mx noBounces noReports loops =>
    have noBounces := enveloped.no_bounces noBounces
    have noReports := enveloped.no_reports noReports
    have noRelays := enveloped.no_relays mx
    cases recipient with
    | local_ accountId =>
      exact looped_handed (loops paired.symm.le) accepts accountId listed
    | _ => simp_all [Listed]

end Steps

/-! ### Commands that send a message -/

section Commands

variable {go : Go} {server : Server} {world : World} {conn : Conn}

/-- The next command sends the last of a message: it is a DATA, or a BDAT with LAST. -/
def SendsMessage (go : Go) (session : Session) : Prop :=
  ∃ verb arg rest, command go session.input = some (some verb, arg, rest) ∧
    (verb = .data ∨ (verb = .bdat ∧ isLast go (go.fields arg) = true))

/-- A reply with another code accepts nothing. -/
theorem say_accepts {after : Conn} {input : Bytes} {code : Nat}
    {format : String} {args : List Arg} (other : code ≠ 250) (asked : ¬ Accepts events) :
    ¬ Accepts (Turn.say after input events code format args).events := by
  rintro ⟨format, args, found⟩
  rcases List.mem_append.mp found with found | found
  · exact asked ⟨format, args, found⟩
  · simp [reply] at found
    exact other found.1.symm

theorem accepts_nil : ¬ Accepts [] := by simp [Accepts]

/-- The events of a command are those of a processed message, after others that accept
nothing. -/
def Processes (go : Go) (server : Server) (world : World) (conn : Conn)
    (events : List Event) : Prop :=
  conn.haveFrom = true ∧ ∃ before inBDAT buffer data, ¬ Accepts before ∧
    events = before ++ (processData go server world (conn.buffered inBDAT buffer) data).events

/-- A DATA is accepted only as a processed message. -/
theorem cmdData_processes (input : Bytes)
    (accepts : Accepts (cmdData go server world conn input).events) :
    Processes go server world conn (cmdData go server world conn input).events := by
  have asked : ¬ Accepts [reply 354 "start mail input; end with <CRLF>.<CRLF>"] := by
    simp [Accepts, reply]
  revert accepts
  unfold cmdData
  split
  · exact fun accepts => absurd accepts (say_accepts (by decide) accepts_nil)
  next allowed =>
  dsimp only
  split
  · exact fun accepts => absurd accepts (say_accepts (by decide) asked)
  split
  · exact fun accepts => absurd accepts (say_accepts (by decide) asked)
  · exact fun _ => ⟨by simp_all [dataAllowed], _, conn.inBDAT, conn.bdatBuf, _, asked, rfl⟩

/-- The last chunk is accepted only as part of a processed message. -/
theorem cmdBDAT_processes {input rest : Bytes} (last : isLast go (go.fields rest) = true)
    (accepts : Accepts (cmdBDAT go server world conn input rest).events) :
    Processes go server world conn (cmdBDAT go server world conn input rest).events := by
  revert accepts
  unfold cmdBDAT
  split
  · exact fun accepts => absurd accepts (say_accepts (by decide) accepts_nil)
  split
  · exact fun accepts => absurd accepts (say_accepts (by decide) accepts_nil)
  unfold takeChunk
  split
  · exact fun accepts => absurd accepts (say_accepts (by decide) accepts_nil)
  next allowed =>
  split
  · exact fun accepts => absurd accepts (say_accepts (by decide) accepts_nil)
  split
  · exact fun accepts => absurd accepts accepts_nil
  split
  · exact fun accepts => absurd accepts (say_accepts (by decide) accepts_nil)
  dsimp only
  rw [last]
  exact fun _ => ⟨by simp_all [bdatAllowed], [], true, _, _, accepts_nil, rfl⟩

theorem serve_processes {session : Session} (sends : SendsMessage go session)
    (accepts : Accepts (serve go server world session.conn session.input).events) :
    Processes go server world session.conn
      (serve go server world session.conn session.input).events := by
  obtain ⟨verb, arg, rest, read, data | ⟨bdat, last⟩⟩ := sends
  · simp only [serve, read, data] at accepts ⊢
    exact cmdData_processes rest accepts
  · simp only [serve, read, bdat] at accepts ⊢
    exact cmdBDAT_processes last accepts

end Commands

/-- The lists are in order in every state of every connection. -/
theorem run_enveloped {go : Go} {server : Server} {stream : Bytes} {worlds : List World}
    {session : Session}
    (reached : run (step go server) (accepted server stream) worlds = some session) :
    Paired session.conn ∧ Enveloped server session.conn (openRcpts session.trace) := by
  refine always
    (fun session : Session =>
      Paired session.conn ∧ Enveloped server session.conn (openRcpts session.trace))
    ?_ ⟨by rfl, ?_⟩ reached
  · rintro before world next ⟨paired, enveloped⟩ moved
    obtain ⟨-, rfl⟩ := step_serve moved
    have effect : Effect go server world _ before.conn _ _ := serve_effect before.input
    rw [Session.after_trace, openRcpts_append]
    exact ⟨effect_paired effect paired, effect_enveloped paired enveloped effect⟩
  · exact enveloped_cleared rfl rfl rfl rfl Bool.noConfusion

/-- In every state of a connection at most one of the lists of local, bounce and report
recipients has an element; and when the last of a message is answered with 250, every
recipient accepted since the last MAIL has been served. -/
theorem accepted_rcpts_served (go : Go) (server : Server) (stream : Bytes)
    (worlds : List World) (session : Session)
    (reached : run (step go server) (accepted server stream) worlds = some session) :
    Exclusive session.conn ∧
      ∀ world next, SendsMessage go session → step go server session world = some next →
        ∃ events, next.trace = session.trace ++ events ∧
          (Accepts events → ∀ recipient ∈ openRcpts session.trace, Handed events recipient) := by
  obtain ⟨paired, enveloped⟩ := run_enveloped reached
  refine ⟨enveloped.exclusive, fun world next sends moved => ?_⟩
  obtain ⟨-, rfl⟩ := step_serve moved
  refine ⟨_, rfl, fun accepts recipient found => ?_⟩
  obtain ⟨sender, before, inBDAT, buffer, data, asked, ran⟩ :=
    serve_processes sends accepts
  rw [ran] at accepts ⊢
  exact handed_append (settled_handed (by exact paired) enveloped.buffered
    (processData_settled data) (accepts_append asked accepts)
    (enveloped.buffered.listed sender recipient found))

/-- Both recipients of a message that is taken have it. -/
theorem twoRecipients_served :
    ∃ session next,
      run (step ascii mx) (accepted mx twoRecipients) [obliging, obliging, obliging] =
        some session ∧
      step ascii mx session obliging = some next ∧
      openRcpts session.trace = [.local_ 97, .local_ 98] ∧ Exclusive session.conn ∧
      ∃ events, next.trace = session.trace ++ events ∧
        (Accepts events → ∀ recipient ∈ openRcpts session.trace, Handed events recipient) := by
  have ended : ((run (step ascii mx) (accepted mx twoRecipients)
      [obliging, obliging, obliging]).map (fun session : Session => decide
        (command ascii session.input = some (some .data, [], sent ['h', 'i'] ++ sent ['.']) ∧
          openRcpts session.trace = [.local_ 97, .local_ 98] ∧
          (step ascii mx session obliging).isSome = true))) = some true := by decide +kernel
  obtain ⟨session, reached, seen⟩ := Option.map_eq_some_iff.mp ended
  obtain ⟨sends, rcpts, moves⟩ := of_decide_eq_true seen
  obtain ⟨next, moved⟩ := Option.isSome_iff_exists.mp moves
  have served := accepted_rcpts_served ascii mx twoRecipients _ session reached
  exact ⟨session, next, reached, moved, rcpts, served.1,
    served.2 obliging next ⟨.data, _, _, sends, .inl rfl⟩ moved⟩

end OctoMail.Smtp
