import OctoMail.Smtp.Server
import OctoMail.Transition

/-!
# What a command does to a connection

Seen from the mail transaction, every command is one of a few effects: it leaves the
connection alone, clears the transaction, secures the connection, logs in, begins a
transaction, adds a recipient of some kind, takes a chunk, or has a message processed.
`Effect` says so with the state each needs, and `serve_effect` that the command loop does
nothing else. What holds along all connections is proved from these effects, not from the
commands.
-/

namespace OctoMail.Smtp

/-- Replies, as opposed to what the server does. -/
def Event.isReply : Event → Bool
  | .replied _ => true
  | .greeted _ => true
  | _ => false

/-- The events of a command without its replies. -/
def marks (events : List Event) : List Event := events.filter (fun event => !event.isReply)

variable {events : List Event}

theorem mem_marks {event : Event} :
    event ∈ marks events ↔ event ∈ events ∧ event.isReply = false := by
  simp [marks]

@[simp] theorem marks_nil : marks [] = [] := rfl

@[simp] theorem marks_append (first second : List Event) :
    marks (first ++ second) = marks first ++ marks second := by
  simp [marks]

@[simp] theorem marks_reply (code : Nat) (format : String) (args : List Arg) :
    marks [reply code format args] = [] := rfl

section Effects

variable (go : Go) (server : Server) (world : World)

/-- The connection after a command and the events of the command, by what it did. Only BDAT
takes chunks, and only DATA, BDAT and BURL have a message processed. -/
inductive Effect (verb : Option Verb) (conn : Conn) : Conn → List Event → Prop
  | kept {events : List Event} (helo : Bytes) (did : marks events = []) :
      Effect verb conn { conn with helo := helo } events
  | cleared {events : List Event} (did : marks events = []) : Effect verb conn conn.reset events
  | secured {events : List Event} (did : marks events = [.startedTLS])
      (configured : server.tlsConfig = true) :
      Effect verb conn { conn.reset with tls := true, authed := false } events
  | loggedIn {events : List Event} (tenant account : Nat)
      (did : marks events = [.authenticated tenant account])
      (allowed : authAllowed server conn = true) :
      Effect verb conn { conn.reset with
        authed := true, authTenant := tenant, authAccount := account
        authScope := some tenant } events
  | begun {events : List Event} (address ret envID : Bytes) (body utf8 : Bool)
      (hold : Option Int)
      (owned : server.submission = true →
        conn.authed = true ∧ resolveSender go world conn address = some conn.authAccount)
      (did : marks events =
        [.mail address (if server.submission then resolveSender go world conn address else none)]) :
      Effect verb conn { conn.reset with
        mailFrom := address, haveFrom := true, dsnRet := ret, dsnEnvID := envID
        mailBody8bitmime := body, mailSMTPUTF8 := utf8, holdUntil := hold } events
  | relayed {events : List Event} (address notify orcpt : Bytes) (sender : conn.haveFrom = true)
      (submission : server.submission = true) (did : marks events = [.rcpt (.relay address)]) :
      Effect verb conn { conn with
        subRcpts := conn.subRcpts ++ [address], subNotify := conn.subNotify ++ [notify]
        subORcpt := conn.subORcpt ++ [orcpt] } events
  | bounced {events : List Event} (localpart : Bytes) (sender : conn.haveFrom = true)
      (mx : server.submission = false) (handler : server.bounceHandler = true)
      (locals : conn.rcpts = []) (reports : conn.reportRcpts = [])
      (did : marks events = [.rcpt (.bounce localpart)]) :
      Effect verb conn { conn with bounceRcpts := conn.bounceRcpts ++ [localpart] } events
  | reported {events : List Event} (localpart : Bytes) (sender : conn.haveFrom = true)
      (mx : server.submission = false) (handler : server.reportHandler = true)
      (locals : conn.rcpts = []) (bounces : conn.bounceRcpts = [])
      (did : marks events = [.rcpt (.report localpart)]) :
      Effect verb conn { conn with reportRcpts := conn.reportRcpts ++ [localpart] } events
  | resolved {events : List Event} (accountId : Nat) (address : Bytes)
      (sender : conn.haveFrom = true) (mx : server.submission = false)
      (bounces : conn.bounceRcpts = []) (reports : conn.reportRcpts = [])
      (did : marks events = [.rcpt (.local_ accountId)]) :
      Effect verb conn { conn with
        rcpts := conn.rcpts ++ [accountId], rcptAddrs := conn.rcptAddrs ++ [address] } events
  | chunked {events : List Event} (chunk : Bytes) (takes : verb = some .bdat)
      (sender : conn.haveFrom = true) (did : marks events = []) :
      Effect verb conn (conn.buffered true (conn.bdatBuf ++ chunk)) events
  | processed (before : List Event) (inBDAT : Bool) (buffer data : Bytes)
      (sends : verb = some .data ∨ verb = some .bdat ∨ verb = some .burl)
      (sender : conn.haveFrom = true) (did : marks before = []) :
      Effect verb conn (processData go server world (conn.buffered inBDAT buffer) data).conn
        (before ++ (processData go server world (conn.buffered inBDAT buffer) data).events)

variable {go server world} {verb : Option Verb} {conn : Conn}

/-- A command that leaves the connection alone and only replies. -/
theorem effect_kept (did : marks events = []) : Effect go server world verb conn conn events :=
  .kept conn.helo did

/-- A reply is not among the marks. -/
@[simp] theorem marks_say (after : Conn) (input : Bytes) (events : List Event) (code : Nat)
    (format : String) (args : List Arg) :
    marks (Turn.say after input events code format args).events = marks events := by
  simp [Turn.say]

variable {input rest : Bytes}

theorem cmdStartTLS_effect :
    Effect go server world verb conn (cmdStartTLS server world conn input).conn
      (cmdStartTLS server world conn input).events := by
  unfold cmdStartTLS
  split
  · exact effect_kept (by simp)
  next configured =>
  split
  · exact effect_kept (by simp)
  split
  · exact effect_kept rfl
  · exact .secured rfl (by simpa using configured)

theorem logIn_effect {events : List Event} (quiet : marks events = [])
    {login : Bytes} {scope : Option Nat} (allowed : authAllowed server conn = true) :
    Effect go server world verb conn (logIn go world conn input events login scope).conn
      (logIn go world conn input events login scope).events := by
  unfold logIn
  split
  · exact effect_kept (by simp [quiet])
  · exact .loggedIn _ _ (by rw [marks_say, marks_append, quiet]; rfl) allowed

/-- A challenge has the effect of what follows its response, if anything. -/
theorem saslChallenge_effect (quiet : marks events = [])
    {data : Bytes} {next : Bytes → List Event → Bytes → Turn}
    (continued : ∀ input events response, marks events = [] →
      Effect go server world verb conn (next input events response).conn
        (next input events response).events) :
    Effect go server world verb conn (saslChallenge go conn input events data next).conn
      (saslChallenge go conn input events data next).events := by
  have asked : marks (events ++ [reply 334 "%s" [.str data]]) = [] := by simp [quiet]
  unfold saslChallenge
  split
  · exact effect_kept asked
  split
  · exact effect_kept (by simp [quiet])
  split
  · exact effect_kept (by simp [quiet])
  · exact continued _ _ _ asked

theorem saslInitial_effect {ir : Bytes} {next : Bytes → List Event → Bytes → Turn}
    (continued : ∀ input events response, marks events = [] →
      Effect go server world verb conn (next input events response).conn
        (next input events response).events) :
    Effect go server world verb conn (saslInitial go conn input ir next).conn
      (saslInitial go conn input ir next).events := by
  unfold saslInitial
  split
  · exact continued _ _ _ rfl
  split
  · exact saslChallenge_effect rfl continued
  split
  · exact effect_kept (by simp)
  · exact continued _ _ _ rfl

theorem authPlain_effect {arg : Bytes} (allowed : authAllowed server conn = true) :
    Effect go server world verb conn (authPlain go world conn input arg).conn
      (authPlain go world conn input arg).events := by
  unfold authPlain
  split
  · exact effect_kept (by simp)
  split
  · exact effect_kept (by simp)
  split
  · exact logIn_effect rfl allowed
  · exact effect_kept (by simp)

theorem authSCRAM_effect {ir : Bytes} {plus : Bool}
    (allowed : authAllowed server conn = true) :
    Effect go server world verb conn (authSCRAM go server world conn input ir plus).conn
      (authSCRAM go server world conn input ir plus).events := by
  unfold authSCRAM
  split
  · exact effect_kept (by simp)
  split
  · exact effect_kept (by simp)
  refine saslInitial_effect fun input events clientFirst quiet => ?_
  dsimp only
  split
  · refine saslChallenge_effect quiet fun input events clientFinal quiet => ?_
    split
    · exact effect_kept (by simp [quiet])
    · exact saslChallenge_effect quiet fun input events _ quiet =>
        logIn_effect quiet allowed
  · exact effect_kept (by simp [quiet])

theorem cmdAuth_effect :
    Effect go server world verb conn (cmdAuth go server world conn input rest).conn
      (cmdAuth go server world conn input rest).events := by
  unfold cmdAuth
  split
  · exact effect_kept (by simp)
  split
  · exact effect_kept (by simp)
  next permitted =>
  have allowed : authAllowed server conn = true := by simpa using permitted
  dsimp only
  split
  · exact authPlain_effect allowed
  split
  · exact authSCRAM_effect allowed
  split
  · exact authSCRAM_effect allowed
  · exact effect_kept (by simp)

theorem beginMail_effect {address : Bytes} {turn : Turn}
    (owned : server.submission = true →
      conn.authed = true ∧ resolveSender go world conn address = some conn.authAccount)
    (ran : beginMail go server world conn input rest address = some turn) :
    Effect go server world verb conn turn.conn turn.events := by
  unfold beginMail at ran
  simp only [Option.bind_eq_bind, Option.bind_eq_some_iff, Option.pure_def,
    Option.some.injEq] at ran
  obtain ⟨ret, -, envID, -, body, -, hold, -, rfl⟩ := ran
  split
  · exact .cleared (by simp)
  · exact .begun address ret envID _ _ _ owned rfl

theorem cmdMail_effect (turn : Turn)
    (ran : cmdMail go server world conn input rest = some turn) :
    Effect go server world verb conn turn.conn turn.events := by
  unfold cmdMail at ran
  obtain ⟨parsed, -, ran⟩ := Option.bind_eq_some_iff.mp ran
  cases parsed with
  | none =>
    cases ran
    exact effect_kept (by simp)
  | some address =>
    obtain ⟨sz, -, ran⟩ := Option.bind_eq_some_iff.mp ran
    split at ran
    · cases ran
      exact effect_kept (by simp)
    split at ran
    · cases ran
      exact .cleared (by simp)
    split at ran
    · cases ran
      exact .cleared (by simp)
    · refine beginMail_effect (fun submission => ?_) ran
      simp_all [senderOwned]

theorem rcptRelay_effect {address : Bytes} {turn : Turn}
    (sender : conn.haveFrom = true) (submission : server.submission = true)
    (ran : rcptRelay go conn input rest address = some turn) :
    Effect go server world verb conn turn.conn turn.events := by
  unfold rcptRelay at ran
  split at ran
  · cases ran
    exact effect_kept (by simp)
  · simp only [Option.bind_eq_bind, Option.bind_eq_some_iff, Option.pure_def,
      Option.some.injEq] at ran
    obtain ⟨notify, -, orcpt, -, rfl⟩ := ran
    exact .relayed address notify orcpt sender submission rfl

theorem rcptReceive_effect (input addrStr : Bytes) {addr : Address}
    (sender : conn.haveFrom = true) (mx : server.submission = false) :
    Effect go server world verb conn (rcptReceive go server world conn input addrStr addr).conn
      (rcptReceive go server world conn input addrStr addr).events := by
  unfold rcptReceive
  split
  · next bounce =>
    have handler : server.bounceHandler = true := by simp_all [isBounce]
    split
    · exact effect_kept (by simp)
    · exact .bounced _ sender mx handler (by simp_all) (by simp_all) rfl
  split
  · next report =>
    have handler : server.reportHandler = true := by simp_all [isReport]
    split
    · exact effect_kept (by simp)
    · exact .reported _ sender mx handler (by simp_all) (by simp_all) rfl
  split
  · exact effect_kept (by simp)
  split
  · exact effect_kept (by simp)
  · exact .resolved _ _ sender mx (by simp_all) (by simp_all) rfl

theorem cmdRcpt_effect (turn : Turn)
    (ran : cmdRcpt go server world conn input rest = some turn) :
    Effect go server world verb conn turn.conn turn.events := by
  unfold cmdRcpt at ran
  split at ran
  · cases ran
    exact effect_kept (by simp)
  next sender =>
  obtain ⟨parsed, -, ran⟩ := Option.bind_eq_some_iff.mp ran
  cases parsed with
  | none =>
    cases ran
    exact effect_kept (by simp)
  | some addrStr =>
    dsimp only at ran
    split at ran
    · cases ran
      exact effect_kept (by simp)
    split at ran
    · cases ran
      exact effect_kept (by simp)
    split at ran
    · exact rcptRelay_effect (by simpa using sender) (by assumption) ran
    · cases ran
      exact rcptReceive_effect input addrStr (by simpa using sender) (by simp_all)

/-- Processing has its own effect, whatever was replied before it. -/
theorem effect_processed (inBDAT : Bool) (buffer : Bytes) {data : Bytes}
    (sends : verb = some .data ∨ verb = some .bdat ∨ verb = some .burl)
    (quiet : marks events = []) (sender : conn.haveFrom = true) :
    let turn := (processData go server world (conn.buffered inBDAT buffer) data).turn events input
    Effect go server world verb conn turn.conn turn.events :=
  .processed events inBDAT buffer data sends sender quiet

theorem cmdData_effect :
    Effect go server world (some .data) conn (cmdData go server world conn input).conn
      (cmdData go server world conn input).events := by
  unfold cmdData
  split
  · exact effect_kept (by simp)
  next allowed =>
  have sender : conn.haveFrom = true := by simp_all [dataAllowed]
  have asked : marks [reply 354 "start mail input; end with <CRLF>.<CRLF>"] = [] := rfl
  dsimp only
  split
  · exact effect_kept (by simp)
  split
  · exact .cleared (by simp)
  · exact effect_processed conn.inBDAT conn.bdatBuf (.inl rfl) asked sender

theorem takeChunk_effect {n : Nat} {last : Bool} :
    Effect go server world (some .bdat) conn (takeChunk go server world conn input n last).conn
      (takeChunk go server world conn input n last).events := by
  unfold takeChunk
  split
  · exact effect_kept (by simp)
  next allowed =>
  have sender : conn.haveFrom = true := by simp_all [bdatAllowed]
  split
  · exact .cleared (by simp)
  split
  · exact effect_kept rfl
  split
  · exact effect_kept (by simp)
  dsimp only
  split
  · exact .chunked _ rfl sender (by simp)
  · exact effect_processed true _ (.inr (.inl rfl)) rfl sender

theorem cmdBDAT_effect :
    Effect go server world (some .bdat) conn (cmdBDAT go server world conn input rest).conn
      (cmdBDAT go server world conn input rest).events := by
  unfold cmdBDAT
  split
  · exact effect_kept (by simp)
  split
  · exact effect_kept (by simp)
  · exact takeChunk_effect

theorem cmdBURL_effect :
    Effect go server world (some .burl) conn (cmdBURL go server world conn input rest).conn
      (cmdBURL go server world conn input rest).events := by
  unfold cmdBURL
  split
  · exact effect_kept (by simp)
  split
  · exact effect_kept (by simp)
  split
  · exact effect_kept (by simp)
  next allowed =>
  have sender : conn.haveFrom = true := by simp_all
  split
  · split
    · exact effect_kept (by simp)
    split
    · exact effect_kept (by simp)
    split
    · exact .cleared (by simp)
    · exact effect_processed conn.inBDAT conn.bdatBuf (.inr (.inr rfl)) rfl sender
  · exact effect_kept (by simp)

/-- A command that may panic before it has done anything. -/
theorem effect_orPanic {turn : Option Turn}
    (effect : ∀ ran, turn = some ran → Effect go server world verb conn ran.conn ran.events) :
    Effect go server world verb conn (orPanic conn input turn).conn
      (orPanic conn input turn).events := by
  cases turn with
  | none => exact effect_kept rfl
  | some ran => exact effect ran rfl

/-- The verb of the next command. -/
def verbOf (go : Go) (input : Bytes) : Option Verb := (command go input).bind Prod.fst

/-- Every round of the command loop has one of the effects. -/
theorem serve_effect (input : Bytes) :
    Effect go server world (verbOf go input) conn (serve go server world conn input).conn
      (serve go server world conn input).events := by
  unfold serve
  split
  · exact effect_kept rfl
  next verb arg rest read =>
  have same : verbOf go input = verb := by simp [verbOf, read]
  rw [same]
  split
  · exact .kept _ rfl
  · exact .kept _ (by simp)
  · exact cmdStartTLS_effect
  · exact cmdAuth_effect
  · exact effect_orPanic (cmdMail_effect)
  · exact effect_orPanic (cmdRcpt_effect)
  · exact cmdData_effect
  · exact cmdBDAT_effect
  · exact cmdBURL_effect
  · exact .cleared (by simp)
  all_goals exact effect_kept (by simp)

end Effects

end OctoMail.Smtp
