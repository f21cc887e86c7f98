import OctoMail.Smtp.Delivery

/-!
# Replies to message content

Where mail is received for local accounts, a connection ends in a panic only through a
delivery that fails: every recipient has its address beside it, every slice of text is in
range, and a chunk that passes the size limit can be allocated. Without failing deliveries
each DATA and each BDAT is therefore answered by exactly one final reply.

The recipients of a message are decided and delivered one at a time. What a recipient that
is not served leaves behind are the messages of the recipients before it.
-/

namespace OctoMail.Smtp

open OctoMail.Transition

/-! ### Slices of text -/

section Text

variable (go : Go)

/-- A keyword that the upper case of a text starts with is no longer than the text. -/
theorem sliceFrom_keyword {text keyword : Bytes} (ascii : ∀ c ∈ keyword, c < 128)
    (starts : keyword.isPrefixOf (go.toUpper text) = true) :
    (sliceFrom text keyword.length).isSome = true := by
  simp [sliceFrom, go.upper_length keyword text ascii starts]

theorem parseAddrParam_isSome (rest : Bytes) {keyword : Bytes} (ascii : ∀ c ∈ keyword, c < 128) :
    (parseAddrParam go rest keyword).isSome = true := by
  unfold parseAddrParam
  dsimp only
  split
  · next starts => simpa using sliceFrom_keyword go ascii starts
  · rfl

theorem mailParamStr_isSome (rest key : Bytes) (upper : ∀ c ∈ key, c < 97) :
    (mailParamStr go rest key).isSome = true := by
  have ascii : ∀ c ∈ key ++ [61], c < 128 := by
    intro c found
    rcases List.mem_append.mp found with found | found
    · exact UInt8.lt_trans (upper c found) (by decide)
    · simp_all
  unfold mailParamStr
  rw [go.upper_keyword key upper]
  dsimp only
  split
  · next tok found =>
    exact sliceFrom_keyword go ascii (by simpa using List.find?_some found)
  · rfl

theorem mailParamInt_isSome (rest : Bytes) {key : Bytes} (upper : ∀ c ∈ key, c < 97) :
    (mailParamInt go rest key).isSome = true := by
  simpa [mailParamInt] using mailParamStr_isSome go rest key upper

end Text

/-- A computation that gets a value and goes on to one. -/
theorem isSome_bind {α β : Type} {first : Option α} {next : α → Option β}
    (got : first.isSome = true) (continues : ∀ value, (next value).isSome = true) :
    (first.bind next).isSome = true := by
  obtain ⟨value, rfl⟩ := Option.isSome_iff_exists.mp got
  exact continues value

variable {events : List Event} {code : Nat} {data : Bytes} {processed : Processed} {go : Go}
  {server : Server}

variable {args : List Arg} {format : String}

section Panics

variable {go : Go} {server : Server} {world : World} {conn : Conn}

theorem mailHold_isSome (rest : Bytes) : (mailHold go server rest).isSome = true := by
  unfold mailHold
  split
  · exact isSome_bind (mailParamInt_isSome go rest (by decide +kernel)) fun _ =>
      isSome_bind (mailParamStr_isSome go rest _ (by decide +kernel)) fun _ => rfl
  · rfl

/-- The command is served on and has read nothing more. -/
structure Plain (input : Bytes) (turn : Turn) : Prop where
  serving : turn.status = .serving
  unread : turn.input = input

/-- The command gets through, without a panic. -/
def Runs (input : Bytes) (turn : Option Turn) : Prop := ∃ ran, turn = some ran ∧ Plain input ran

theorem runs_say {conn : Conn} {input : Bytes} {events : List Event} {code : Nat} :
    Runs input (some (.say conn input events code format args)) :=
  ⟨_, rfl, rfl, rfl⟩

variable {input : Bytes}

theorem runs_bind {α : Type} {first : Option α} {next : α → Option Turn} (got : first.isSome = true)
    (continues : ∀ value, Runs input (next value)) : Runs input (first.bind next) := by
  obtain ⟨value, rfl⟩ := Option.isSome_iff_exists.mp got
  exact continues value

theorem beginMail_runs (input rest address : Bytes) :
    Runs input (beginMail go server world conn input rest address) := by
  refine runs_bind (mailParamStr_isSome go rest _ (by decide +kernel)) fun ret =>
    runs_bind (mailParamStr_isSome go rest _ (by decide +kernel)) fun envID =>
      runs_bind (mailParamStr_isSome go rest _ (by decide +kernel)) fun body =>
        runs_bind (mailHold_isSome rest) fun hold => ?_
  dsimp only
  split
  · exact runs_say
  · exact runs_say

theorem cmdMail_runs {input rest : Bytes} :
    Runs input (cmdMail go server world conn input rest) := by
  refine runs_bind (parseAddrParam_isSome go rest (by decide +kernel)) fun parsed => ?_
  cases parsed with
  | none => exact runs_say
  | some address =>
    refine runs_bind (mailParamInt_isSome go rest (by decide +kernel)) fun sz => ?_
    split
    · exact runs_say
    split
    · exact runs_say
    split
    · exact runs_say
    · exact beginMail_runs input rest address

theorem rcptRelay_runs (input rest address : Bytes) :
    Runs input (rcptRelay go conn input rest address) := by
  unfold rcptRelay
  split
  · exact runs_say
  · exact runs_bind (mailParamStr_isSome go rest _ (by decide +kernel)) fun notify =>
      runs_bind (mailParamStr_isSome go rest _ (by decide +kernel)) fun orcpt => runs_say

theorem rcptReceive_runs (input addrStr : Bytes) {addr : Address} :
    Runs input (some (rcptReceive go server world conn input addrStr addr)) := by
  unfold rcptReceive
  split
  · split <;> exact runs_say
  split
  · split <;> exact runs_say
  split
  · exact runs_say
  split <;> exact runs_say

theorem cmdRcpt_runs {input rest : Bytes} :
    Runs input (cmdRcpt go server world conn input rest) := by
  unfold cmdRcpt
  split
  · exact runs_say
  refine runs_bind (parseAddrParam_isSome go rest (by decide +kernel)) fun parsed => ?_
  cases parsed with
  | none => exact runs_say
  | some addrStr =>
    dsimp only
    split
    · exact runs_say
    split
    · exact runs_say
    split
    · exact rcptRelay_runs input rest addrStr
    · exact rcptReceive_runs input addrStr

theorem orPanic_plain {turn : Option Turn} (runs : Runs input turn) :
    Plain input (orPanic conn input turn) := by
  obtain ⟨ran, rfl, plain⟩ := runs
  exact plain

theorem Plain.sound {turn : Turn} (plain : Plain input turn) : turn.status ≠ .panicked := by
  rw [plain.serving]
  exact Status.noConfusion

/-! ### Answers to content -/

/-- The final replies of a command. -/
def finals (events : List Event) : List Event := events.filter Event.isFinal

@[simp] theorem finals_append (first second : List Event) :
    finals (first ++ second) = finals first ++ finals second := by
  simp [finals]

/-- What the loop does for the recipients is no reply. -/
theorem Local.silent (only : Local events) : ∀ event ∈ events, event.isReply = false := by
  intro event found
  have doing := only event found
  cases event <;> simp_all [Event.isLocal, Event.isReply]

/-- What is no reply is no final reply. -/
theorem finals_silent (silent : ∀ event ∈ events, event.isReply = false) : finals events = [] := by
  refine List.filter_eq_nil_iff.mpr fun event found => ?_
  have quiet := silent event found
  cases event <;> simp_all [Event.isReply, Event.isFinal]

/-- The message is processed to the end, and answered once. -/
structure Answered (processed : Processed) : Prop where
  sound : processed.panicked = false
  once : (finals processed.events).length = 1

theorem answered_final {conn : Conn} (silent : ∀ event ∈ events, event.isReply = false)
    (final : code < 300 ∨ 400 ≤ code) : Answered (.final conn events code format args) := by
  refine ⟨rfl, ?_⟩
  have last : finals [reply code format args] = [reply code format args] := by
    simp [finals, reply, Event.isFinal, final]
  simp only [Processed.final, finals_append, finals_silent silent, last]
  rfl

/-- Handing to a handler is no reply. -/
theorem handled_silent {event : Bytes → Event} (silent : ∀ text, (event text).isReply = false)
    {seen localparts : List Bytes} :
    ∀ entry ∈ handled event seen localparts, entry.isReply = false := by
  intro entry found
  obtain ⟨localpart, rfl⟩ := handled_calls found
  exact silent localpart

theorem content_silent {more : List Event} (silent : ∀ event ∈ more, event.isReply = false) :
    ∀ event ∈ [.content data] ++ more, event.isReply = false := by
  intro event found
  rcases List.mem_append.mp found with found | found
  · simp_all [Event.isReply]
  · exact silent event found

/-- When every delivery succeeds the loop answers once. -/
theorem looped_answered (succeed : ∀ i < conn.rcpts.length, world.deliver i = .delivered)
    (looped : Looped server world conn 0 conn.rcpts [.content data] processed) :
    Answered processed := by
  cases looped with
  | all _ only => exact answered_final (content_silent only.silent) (by decide)
  | refused _ _ only _ _ _ _ _ _ failure =>
    exact answered_final (content_silent only.silent) (.inr failure)
  | failed k _ _ _ within _ failure =>
    exact absurd (succeed k (by simpa using within)) failure

theorem settled_answered (paired : conn.rcptAddrs.length = conn.rcpts.length)
    (succeed : ∀ i < conn.rcpts.length, world.deliver i = .delivered)
    (settled : Settled server world conn data processed) : Answered processed := by
  cases settled with
  | refused _ only _ _ _ _ failure =>
    exact answered_final (content_silent only.silent) (.inr failure)
  | bounces | reports =>
    exact answered_final (content_silent (handled_silent (fun _ => rfl))) (by decide)
  | submitted _ =>
    exact answered_final (by simp [Event.isReply]) (by omega)
  | looped _ _ _ loops => exact looped_answered succeed (loops (by omega))

/-- A turn that does not panic and is answered by one final reply. -/
structure AnsweredTurn (turn : Turn) : Prop where
  sound : turn.status ≠ .panicked
  once : (finals turn.events).length = 1

theorem answeredTurn_say {conn : Conn} {input : Bytes}
    (asked : finals events = []) (final : code < 300 ∨ 400 ≤ code) :
    AnsweredTurn (.say conn input events code format args) := by
  refine ⟨Status.noConfusion, ?_⟩
  have last : finals [reply code format args] = [reply code format args] := by
    simp [finals, reply, Event.isFinal, final]
  simp only [Turn.say, finals_append, asked, last]
  rfl

theorem answeredTurn_turn {input : Bytes} (asked : finals events = [])
    (answered : Answered processed) : AnsweredTurn (processed.turn events input) := by
  refine ⟨?_, ?_⟩
  · simp [Processed.turn, answered.sound]
  · simp [Processed.turn, asked, answered.once]

theorem cmdData_answered (input : Bytes) (paired : conn.rcptAddrs.length = conn.rcpts.length)
    (succeed : ∀ i < conn.rcpts.length, world.deliver i = .delivered) :
    AnsweredTurn (cmdData go server world conn input) := by
  have asked : finals [reply 354 "start mail input; end with <CRLF>.<CRLF>"] = [] := rfl
  unfold cmdData
  split
  · exact answeredTurn_say rfl (by decide)
  dsimp only
  split
  · exact answeredTurn_say asked (by decide)
  split
  · exact answeredTurn_say asked (by decide)
  · exact answeredTurn_turn asked (settled_answered paired succeed (processData_settled _))

/-- A chunk within the size limit can be allocated. -/
theorem takeChunk_answered {input : Bytes} {n : Nat} {last : Bool}
    (sized : 0 < server.maxSize) (allocatable : server.maxSize ≤ go.maxAlloc)
    (paired : conn.rcptAddrs.length = conn.rcpts.length)
    (succeed : ∀ i < conn.rcpts.length, world.deliver i = .delivered) :
    AnsweredTurn (takeChunk go server world conn input n last) := by
  unfold takeChunk
  split
  · exact answeredTurn_say rfl (by decide)
  split
  · exact answeredTurn_say rfl (by decide)
  next fits =>
  have small : ¬ go.maxAlloc < n := by
    simp only [Server.tooLarge, sized, decide_true, Bool.true_and, decide_eq_true_eq] at fits
    omega
  rw [if_neg small]
  split
  · exact answeredTurn_say rfl (by decide)
  dsimp only
  split
  · exact answeredTurn_say rfl (by decide)
  · exact answeredTurn_turn rfl
      (settled_answered (by exact paired) (by exact succeed) (processData_settled _))

theorem cmdBDAT_answered (input rest : Bytes) (sized : 0 < server.maxSize)
    (allocatable : server.maxSize ≤ go.maxAlloc)
    (paired : conn.rcptAddrs.length = conn.rcpts.length)
    (succeed : ∀ i < conn.rcpts.length, world.deliver i = .delivered) :
    AnsweredTurn (cmdBDAT go server world conn input rest) := by
  unfold cmdBDAT
  split
  · exact answeredTurn_say rfl (by decide)
  split
  · exact answeredTurn_say rfl (by decide)
  · exact takeChunk_answered sized allocatable paired succeed

theorem cmdStartTLS_status {input : Bytes} :
    (cmdStartTLS server world conn input).status ≠ .panicked := by
  unfold cmdStartTLS
  split
  · exact Status.noConfusion
  split
  · exact Status.noConfusion
  split <;> exact Status.noConfusion

/-- A round on a listener for local accounts never panics while deliveries succeed. -/
theorem serve_sound (input : Bytes) (mx : server.submission = false) (sized : 0 < server.maxSize)
    (allocatable : server.maxSize ≤ go.maxAlloc)
    (paired : conn.rcptAddrs.length = conn.rcpts.length)
    (succeed : ∀ i < conn.rcpts.length, world.deliver i = .delivered) :
    (serve go server world conn input).status ≠ .panicked := by
  unfold serve
  split
  · exact Status.noConfusion
  split
  · exact Status.noConfusion
  · exact Status.noConfusion
  · exact cmdStartTLS_status
  · simp [cmdAuth, mx, Turn.say]
  · exact (orPanic_plain (cmdMail_runs)).sound
  · exact (orPanic_plain (cmdRcpt_runs)).sound
  · exact (cmdData_answered _ paired succeed).sound
  · exact (cmdBDAT_answered _ _ sized allocatable paired succeed).sound
  · simp [cmdBURL, mx, Turn.say]
  all_goals exact Status.noConfusion

end Panics

/-! ### Connections -/

/-- Every recipient has its address beside it. -/
def Paired (conn : Conn) : Prop := conn.rcptAddrs.length = conn.rcpts.length

theorem effect_paired {world : World} {verb : Option Verb}
    {conn after : Conn} (effect : Effect go server world verb conn after events)
    (paired : Paired conn) : Paired after := by
  unfold Paired at *
  cases effect with
  | resolved => simp [paired]
  | processed _ _ _ data =>
    rw [settled_conn (by exact paired) (processData_settled data)]
    rfl
  | _ => first | exact paired | rfl

/-- A step is a round of a connection that is served. -/
theorem step_serve {session next : Session} {world : World}
    (moved : step go server session world = some next) :
    session.status = .serving ∧
      next = session.after (serve go server world session.conn session.input) := by
  unfold step at moved
  split at moved
  · next serving => exact ⟨serving, (Option.some.inj moved).symm⟩
  · cases moved

/-- The next command sends message content: it is a DATA or a BDAT. -/
def SendsContent (go : Go) (session : Session) : Prop :=
  ∃ verb arg rest, command go session.input = some (some verb, arg, rest) ∧
    (verb = .data ∨ verb = .bdat)

/-- Every delivery of the command succeeds. -/
def DeliveriesSucceed (session : Session) (world : World) : Prop :=
  ∀ i < session.conn.rcpts.length, world.deliver i = .delivered

instance (session : Session) (world : World) : Decidable (DeliveriesSucceed session world) :=
  inferInstanceAs (Decidable (∀ i < session.conn.rcpts.length, world.deliver i = .delivered))

/-- On a listener for local accounts with a size limit that can be allocated, a connection
whose deliveries all succeed never panics, and each DATA and each BDAT is answered by exactly
one final reply. -/
theorem content_answered_once (go : Go) (server : Server) (mx : server.submission = false)
    (sized : 0 < server.maxSize) (allocatable : server.maxSize ≤ go.maxAlloc) (stream : Bytes)
    (worlds : List World) (session : Session)
    (met : Meets (step go server) DeliveriesSucceed (accepted server stream) worlds)
    (reached : run (step go server) (accepted server stream) worlds = some session) :
    session.status ≠ .panicked ∧
      ∀ world next, DeliveriesSucceed session world → SendsContent go session →
        step go server session world = some next →
        ∃ events, next.trace = session.trace ++ events ∧ (finals events).length = 1 := by
  have holds : Paired session.conn ∧ session.status ≠ .panicked := by
    refine invariant (fun session : Session => Paired session.conn ∧ session.status ≠ .panicked)
      ?_ (by exact ⟨rfl, Status.noConfusion⟩) met reached
    rintro before world next ⟨paired, -⟩ succeed moved
    obtain ⟨-, rfl⟩ := step_serve moved
    exact ⟨effect_paired (serve_effect before.input) paired,
      serve_sound before.input mx sized allocatable paired succeed⟩
  refine ⟨holds.2, ?_⟩
  rintro world next succeed ⟨verb, arg, rest, sends, content⟩ moved
  obtain ⟨-, rfl⟩ := step_serve moved
  refine ⟨_, rfl, ?_⟩
  simp only [serve, sends]
  rcases content with rfl | rfl
  · exact (cmdData_answered rest holds.1 succeed).once
  · exact (cmdBDAT_answered rest arg sized allocatable holds.1 succeed).once

/-- A listener for local accounts. -/
def mx : Server := { hostname := octets ['m', 'x'], maxSize := 1000 }

/-- A message of one line for two recipients. -/
def twoRecipients : Bytes :=
  sent ['M', 'A', 'I', 'L', ' ', 'F', 'R', 'O', 'M', ':', '<', 's', '@', 'x', '>'] ++
  sent ['R', 'C', 'P', 'T', ' ', 'T', 'O', ':', '<', 'a', '@', 'y', '>'] ++
  sent ['R', 'C', 'P', 'T', ' ', 'T', 'O', ':', '<', 'b', '@', 'y', '>'] ++
  sent ['D', 'A', 'T', 'A'] ++ sent ['h', 'i'] ++ sent ['.']

/-- The message is taken for both. -/
theorem twoRecipients_answered :
    ∃ session next,
      run (step ascii mx) (accepted mx twoRecipients) [obliging, obliging, obliging] =
        some session ∧
      step ascii mx session obliging = some next ∧ session.status ≠ .panicked ∧
      next.trace.getLast? = some (reply 250 "2.0.0 accepted") ∧
      ∃ events, next.trace = session.trace ++ events ∧ (finals events).length = 1 := by
  have ended : ((run (step ascii mx) (accepted mx twoRecipients)
      [obliging, obliging, obliging]).map (fun session => (command ascii session.input,
        (step ascii mx session obliging).map (fun next => next.trace.getLast?)))) =
      some (some (some .data, [], sent ['h', 'i'] ++ sent ['.']),
        some (some (reply 250 "2.0.0 accepted"))) := by decide +kernel
  obtain ⟨session, reached, seen⟩ := Option.map_eq_some_iff.mp ended
  obtain ⟨sends, moved⟩ := Prod.mk.inj seen
  obtain ⟨next, moved, last⟩ := Option.map_eq_some_iff.mp moved
  have met : Meets (step ascii mx) DeliveriesSucceed (accepted mx twoRecipients)
      [obliging, obliging, obliging] := by decide +kernel
  have answered := content_answered_once ascii mx rfl (by decide) (by decide) twoRecipients
    [obliging, obliging, obliging] session met reached
  exact ⟨session, next, reached, moved, answered.1, last,
    answered.2 obliging next (fun _ _ => rfl) ⟨.data, _, _, sends, .inl rfl⟩ moved⟩

/-- The mailbox of the first recipient is full: the connection has cleared the addresses when
its reply is to name one, and panics without a reply to the content. -/
theorem fullMailbox_panics :
    ((run (step ascii mx) (accepted mx twoRecipients)
      [obliging, obliging, obliging, { obliging with deliver := fun _ => .overQuota }]).map
        (fun session => (session.status, session.trace.drop 7))) =
      some (.panicked, [reply 354 "start mail input; end with <CRLF>.<CRLF>",
        .content (sent ['h', 'i'])]) := by
  decide +kernel

/-! ### All or nothing -/

section Whole

variable {go : Go} {server : Server} {world : World} {conn : Conn}

/-- The client is told that the message was taken. -/
def Succeeds (events : List Event) : Prop := ∃ event ∈ events, event.isSuccess = true

/-- Replies add nothing. -/
theorem addsNothing_of_marks (quiet : AddsNothing (marks events)) : AddsNothing events := by
  intro event found
  cases replies : event.isReply with
  | false => exact quiet event (mem_marks.mpr ⟨found, replies⟩)
  | true => cases event <;> simp_all [Event.isReply, Event.isDelivered]

/-- The final reply of a processed message is among its events. -/
theorem final_succeeds {conn : Conn} {events : List Event} (success : 200 ≤ code ∧ code < 300) :
    Succeeds (Processed.final conn events code format args).events :=
  ⟨reply code format args, by simp [Processed.final], by simp [reply, Event.isSuccess, success]⟩

/-- What is no reply tells of no success. -/
theorem silent_fails (silent : ∀ event ∈ events, event.isReply = false) : ¬ Succeeds events := by
  rintro ⟨event, found, success⟩
  have quiet := silent event found
  cases event <;> simp_all [Event.isReply, Event.isSuccess]

theorem final_fails (silent : ∀ event ∈ events, event.isReply = false) (failure : 400 ≤ code) :
    ¬ Succeeds (Processed.final conn events code format args).events := by
  rintro ⟨event, found, success⟩
  rcases List.mem_append.mp found with found | found
  · exact silent_fails silent ⟨event, found, success⟩
  · simp only [List.mem_singleton.mp found, reply, Event.isSuccess, decide_eq_true_eq] at success
    omega

/-- A message that is only checked. -/
theorem addsNothing_content {checks : List Event} :
    AddsNothing ([.content data] ++ checks) ↔ AddsNothing checks := by
  simp [AddsNothing, Event.isDelivered]

theorem addsNothing_final {checks : List Event} :
    AddsNothing (Processed.final conn ([.content data] ++ checks) code format args).events ↔
      AddsNothing checks := by
  simp [AddsNothing, Processed.final, or_imp, forall_and, reply, Event.isDelivered]

/-- All recipients are served, or the first one is not and leaves nothing behind. -/
def AllOrFirst (server : Server) (conn : Conn) (world : World) : Prop :=
  (∀ i < conn.rcpts.length, Served server world i) ∨
    (¬ Served server world 0 ∧ (LetIn server world 0 → world.deliver 0 ≠ .failed true))

/-- Where a recipient is not served, it has to be the first. -/
theorem allOrFirst_iff {k : Nat} (within : k < 0 + conn.rcpts.length)
    (earlier : ∀ j, 0 ≤ j → j < k → Served server world j) (unserved : ¬ Served server world k) :
    AllOrFirst server conn world ↔
      k = 0 ∧ (LetIn server world k → world.deliver k ≠ .failed true) := by
  constructor
  · rintro (all | ⟨first, uncommitted⟩)
    · exact absurd (all k (by omega)) unserved
    · rcases Nat.eq_zero_or_pos k with rfl | later
      · exact ⟨rfl, uncommitted⟩
      · exact absurd (earlier 0 (by omega) later) first
  · rintro ⟨rfl, uncommitted⟩
    exact .inr ⟨unserved, uncommitted⟩

/-- For the loop over the recipients the condition is exact. -/
theorem looped_whole_iff
    (looped : Looped server world conn 0 conn.rcpts [.content data] processed) :
    (¬ Succeeds processed.events → AddsNothing processed.events) ↔
      AllOrFirst server conn world := by
  cases looped with
  | all _ _ every =>
    exact iff_of_true (absurd (final_succeeds (by decide)))
      (.inl fun i within => every i (Nat.zero_le i) (by omega))
  | refused _ _ only earlier within out code _ _ failure first =>
    rw [imp_iff_right (final_fails (content_silent only.silent) failure), addsNothing_final, first,
      allOrFirst_iff within earlier fun served => out served.1]
    simp [out]
  | failed _ _ only earlier within letIn failure first =>
    rw [imp_iff_right (silent_fails (content_silent only.silent)), addsNothing_content, first,
      allOrFirst_iff within earlier fun served => failure served.2]
    simp [letIn]

theorem settled_whole (paired : conn.rcptAddrs.length = conn.rcpts.length)
    (whole : AllOrFirst server conn world) (settled : Settled server world conn data processed) :
    Succeeds processed.events ∨ AddsNothing processed.events := by
  cases settled with
  | refused _ _ nothing => exact .inr (addsNothing_final.mpr nothing)
  | bounces | reports => exact .inl (final_succeeds (by decide))
  | submitted => exact .inr (by simp [AddsNothing, Processed.final, reply, Event.isDelivered])
  | looped _ _ _ loops =>
    exact or_iff_not_imp_left.mpr ((looped_whole_iff (loops (by omega))).mpr whole)

theorem effect_whole {verb : Option Verb} {after : Conn} (paired : Paired conn)
    (whole : AllOrFirst server conn world) (effect : Effect go server world verb conn after events) :
    Succeeds events ∨ AddsNothing events := by
  cases effect with
  | processed _ inBDAT buffer data _ _ did =>
    have settled : Settled server world (conn.buffered inBDAT buffer) data _ :=
      @processData_settled go _ _ _ data
    rcases settled_whole (by exact paired) (by exact whole) settled with
      ⟨event, found, success⟩ | nothing
    · exact .inl ⟨event, List.mem_append_right _ found, success⟩
    · exact .inr ((addsNothing_of_marks (by simp [did, AddsNothing])).append nothing)
  | kept _ did | cleared did | chunked _ _ _ did | secured did | loggedIn _ _ did
  | begun _ _ _ _ _ _ _ did | relayed _ _ _ _ _ did | bounced _ _ _ _ _ _ did
  | reported _ _ _ _ _ _ did | resolved _ _ _ _ _ _ did =>
    exact .inr (addsNothing_of_marks (by simp [did, AddsNothing, Event.isDelivered]))

end Whole

/-- A connection keeps the recipients and their addresses together, whatever happens. -/
theorem run_paired {stream : Bytes} {worlds : List World} {session : Session}
    (reached : run (step go server) (accepted server stream) worlds = some session) :
    Paired session.conn := by
  refine always (fun session : Session => Paired session.conn) ?_ (by rfl) reached
  rintro before world next paired moved
  obtain ⟨-, rfl⟩ := step_serve moved
  exact effect_paired (serve_effect before.input) paired

/-- Where the recipients of a message are all served, or the first is not and leaves nothing
behind, a command that is not answered with success adds no message to any account. -/
theorem failure_adds_nothing (go : Go) (server : Server) (stream : Bytes) (worlds : List World)
    (session next : Session) (world : World)
    (reached : run (step go server) (accepted server stream) worlds = some session)
    (whole : AllOrFirst server session.conn world)
    (moved : step go server session world = some next) :
    ∃ events, next.trace = session.trace ++ events ∧ (¬ Succeeds events → AddsNothing events) := by
  have paired := run_paired reached
  obtain ⟨-, rfl⟩ := step_serve moved
  refine ⟨_, rfl, fun failure => ?_⟩
  exact (effect_whole paired whole (serve_effect session.input)).resolve_left failure

/-- A listener that decides about every message. -/
def decidingMx : Server := { mx with decider := true }

/-- Messages to the recipients from one on are to be sent again later. -/
def deferring (start : Nat) : World :=
  { obliging with decide := fun i => ⟨if i < start then .accept else .defer_, [], "", []⟩ }

/-- A message that is deferred for the first recipient adds nothing. -/
theorem deferred_adds_nothing :
    ∃ session next,
      run (step ascii decidingMx) (accepted decidingMx twoRecipients)
        [obliging, obliging, obliging] = some session ∧
      step ascii decidingMx session (deferring 0) = some next ∧
      next.trace.getLast? = some (reply 451 "4.7.1 greylisted, please retry later (%s)"
        [.str (octets ['a', '@', 'y'])]) ∧
      ∃ events, next.trace = session.trace ++ events ∧
        (¬ Succeeds events → AddsNothing events) := by
  have ended : ((run (step ascii decidingMx) (accepted decidingMx twoRecipients)
      [obliging, obliging, obliging]).bind
        (fun session => (step ascii decidingMx session (deferring 0)).map
          (fun next => next.trace.getLast?))) =
      some (some (reply 451 "4.7.1 greylisted, please retry later (%s)"
        [.str (octets ['a', '@', 'y'])])) := by decide +kernel
  obtain ⟨session, reached, ended⟩ := Option.bind_eq_some_iff.mp ended
  obtain ⟨next, moved, last⟩ := Option.map_eq_some_iff.mp ended
  exact ⟨session, next, reached, moved, last,
    failure_adds_nothing ascii decidingMx twoRecipients _ session next (deferring 0) reached
      (.inr (by decide)) moved⟩

/-- The message is delivered to the first recipient and deferred for the second: the client
is told to send it again although it was added to an account. -/
theorem deferredSecond_adds :
    ((run (step ascii decidingMx) (accepted decidingMx twoRecipients)
      [obliging, obliging, obliging, deferring 1]).map (fun session => session.trace.drop 7)) =
      some [reply 354 "start mail input; end with <CRLF>.<CRLF>", .content (sent ['h', 'i']),
        .delivered 97 "Inbox" false,
        reply 451 "4.7.1 greylisted, please retry later (%s)"
          [.str (octets ['b', '@', 'y'])]] := by
  decide +kernel

end OctoMail.Smtp
