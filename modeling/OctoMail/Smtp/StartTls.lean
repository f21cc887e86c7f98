import OctoMail.Smtp.Replies

/-!
# What STARTTLS forgets

Before a handshake nobody can log in, so a successful STARTTLS leaves a connection that
remembers one thing of the plaintext phase: the greeting. It is told to the checks of a
received message and is replaced by the next EHLO or HELO. Two connections with the same
stream after the handshake therefore differ only until the client greets again, and only
in a message it sends before that.
-/

namespace OctoMail.Smtp

open Transition

/-! ### The plaintext phase -/

/-- Nobody has logged in. -/
structure LoggedOut (conn : Conn) : Prop where
  authed : conn.authed = false
  tenant : conn.authTenant = 0
  account : conn.authAccount = 0
  scope : conn.authScope = none

variable {go : Go} {server : Server} {world : World} {session : Session} {stream : Bytes}
  {worlds : List World}

variable {events : List Event} {input : Bytes}

/-- Where TLS is configured there is no login without it, and all that outlives the handshake is
the greeting. -/
theorem effect_plaintext {verb : Option Verb} {conn after : Conn}
    (effect : Effect go server world verb conn after events) (paired : Paired conn)
    (open_ : conn.tls = false) (out : server.tlsConfig = true → LoggedOut conn) :
    (after.tls = false ∧ (server.tlsConfig = true → LoggedOut after)) ∨
      after = { tls := true, helo := conn.helo } := by
  have kept (same : after.tls = conn.tls) (authed : after.authed = conn.authed)
      (tenant : after.authTenant = conn.authTenant) (account : after.authAccount = conn.authAccount)
      (scope : after.authScope = conn.authScope) :
      after.tls = false ∧ (server.tlsConfig = true → LoggedOut after) := by
    refine ⟨same.trans open_, fun configured => ?_⟩
    have before := out configured
    exact ⟨authed.trans before.authed, tenant.trans before.tenant,
      account.trans before.account, scope.trans before.scope⟩
  cases effect with
  | secured _ configured =>
    obtain ⟨_, tenant, account, scope⟩ := out configured
    right
    simp [Conn.reset, tenant, account, scope]
  | loggedIn _ _ _ allowed =>
    left
    refine ⟨open_, fun configured => ?_⟩
    rw [authAllowed, open_, configured] at allowed
    cases allowed
  | processed _ _ _ data =>
    rw [settled_conn (by exact paired) (processData_settled data)] at kept ⊢
    exact .inl (kept rfl rfl rfl rfl rfl)
  | _ => exact .inl (kept rfl rfl rfl rfl rfl)

/-- A secured connection stays secured. -/
theorem effect_secured {verb : Option Verb} {conn after : Conn}
    (effect : Effect go server world verb conn after events) (paired : Paired conn)
    (secured : conn.tls = true) : after.tls = true := by
  cases effect with
  | secured => rfl
  | processed _ _ _ data =>
    rw [settled_conn (by exact paired) (processData_settled data)]
    exact secured
  | _ => exact secured

/-- The plaintext phase of a session: where TLS is configured nobody has logged in. -/
def Plaintext (server : Server) (conn : Conn) : Prop :=
  conn.tls = false → server.tlsConfig = true → LoggedOut conn

theorem run_plaintext
    (reached : run (step go server) (accepted server stream) worlds = some session) :
    Paired session.conn ∧ Plaintext server session.conn := by
  refine always (fun session : Session => Paired session.conn ∧ Plaintext server session.conn) ?_
    (by exact ⟨rfl, fun _ _ => ⟨rfl, rfl, rfl, rfl⟩⟩) reached
  rintro before world next ⟨paired, out⟩ moved
  obtain ⟨-, rfl⟩ := step_serve moved
  have effect : Effect go server world _ before.conn _ _ := serve_effect before.input
  refine ⟨effect_paired effect paired, fun stays => ?_⟩
  cases open_ : before.conn.tls with
  | true =>
    have secured := effect_secured effect paired open_
    exact absurd (stays.symm.trans secured) Bool.false_ne_true
  | false =>
    rcases effect_plaintext effect paired open_ (out open_) with ⟨_, still⟩ | same
    · exact still
    · have secured : (before.after (serve go server world before.conn before.input)).conn.tls =
          true := congrArg Conn.tls same
      exact absurd (stays.symm.trans secured) Bool.false_ne_true

/-- A session in which a handshake has just succeeded and that is served on. -/
def Secures (go : Go) (server : Server) (stream : Bytes) (worlds : List World) (world : World)
    (session : Session) : Prop :=
  ∃ before, run (step go server) (accepted server stream) worlds = some before ∧
    before.conn.tls = false ∧ step go server before world = some session ∧
    session.conn.tls = true ∧ session.status = .serving

theorem secures_of
    (before : (run (step go server) (accepted server stream) worlds).map (fun s => s.conn.tls) =
      some false)
    (reached : run (step go server) (accepted server stream) (worlds ++ [world]) = some session)
    (secured : session.conn.tls = true) (serving : session.status = .serving) :
    Secures go server stream worlds world session := by
  obtain ⟨middle, met, open_⟩ := Option.map_eq_some_iff.mp before
  rw [run_append, met] at reached
  obtain ⟨next, moved, ended⟩ := (run_cons _ _ _ _ _).mp reached
  cases ended
  exact ⟨middle, met, open_, moved, secured, serving⟩

/-- Nothing but the greeting is remembered. -/
theorem secures_conn (secures : Secures go server stream worlds world session) :
    ∃ helo, session.conn = { tls := true, helo := helo } := by
  obtain ⟨before, reached, open_, moved, secured, _⟩ := secures
  obtain ⟨paired, out⟩ := run_plaintext reached
  obtain ⟨_, rfl⟩ := step_serve moved
  rcases effect_plaintext (serve_effect before.input) paired open_ (out open_) with
    ⟨still, _⟩ | same
  · exact absurd (still.symm.trans secured) Bool.false_ne_true
  · exact ⟨before.conn.helo, same⟩

/-! ### The greeting -/

/-- The connection with another greeting. -/
def Conn.hello (conn : Conn) (helo : Bytes) : Conn := { conn with helo := helo }

def Turn.hello (turn : Turn) (helo : Bytes) : Turn := { turn with conn := turn.conn.hello helo }

def Processed.hello (processed : Processed) (helo : Bytes) : Processed :=
  { processed with conn := processed.conn.hello helo }

/-- The greeting that a check is told. -/
def Event.toldGreeting : Event → Option Bytes
  | .checked session _ => some session.helo
  | _ => none

/-- The checks of a received message are asked. -/
def asks (events : List Event) : Bool := events.any fun event => event.toldGreeting.isSome

/-- The turns are alike up to the greeting, unless the checks are asked. -/
def Turn.Heard (helo : Bytes) (turn other : Turn) : Prop :=
  asks turn.events = true ∨ other = turn.hello helo

def Processed.Heard (helo : Bytes) (processed other : Processed) : Prop :=
  asks processed.events = true ∨ other = processed.hello helo

/-- Choices made alike are related as what is chosen is. -/
theorem ite_rel {α β : Type} (R : α → β → Prop) {condition : Prop} [Decidable condition] {a b : α}
    {c d : β} (one : R a c) (other : R b d) :
    R (if condition then a else b) (if condition then c else d) := by
  split <;> assumption

/-- A function of a choice is a choice of its values. -/
theorem ite_map {α β : Type} (f : α → β) {condition : Prop} [Decidable condition] {a b : α}
    {c d : β} (one : c = f a) (other : d = f b) :
    (if condition then c else d) = f (if condition then a else b) := by
  split <;> assumption

section Greeting

variable {go : Go} {server : Server} {world : World} {conn : Conn} (helo : Bytes)

theorem at_hello (events : List Event) (slice : List Bytes) (i : Nat)
    {next other : Bytes → Processed} (same : ∀ element, other element = (next element).hello helo) :
    Processed.at (conn.hello helo) events slice i other =
      (Processed.at conn events slice i next).hello helo := by
  unfold Processed.at
  split
  · exact same _
  · rfl

theorem afterDelivery_hello {i accountId : Nat} {mailbox : String} {processed : List Nat}
    {next other : List Nat → List Event → Processed}
    (same : ∀ processed events, other processed events = (next processed events).hello helo) :
    afterDelivery server (conn.hello helo) i accountId mailbox processed events other =
      (afterDelivery server conn i accountId mailbox processed events next).hello helo := by
  refine ite_map (Processed.hello · helo) ?_ ?_
  · refine at_hello helo events conn.rcptAddrs i fun recipient => ?_
    exact ite_map (Processed.hello · helo) (same _ _) (same _ _)
  · exact ite_map (Processed.hello · helo) (same _ _) (same _ _)

theorem deliverOne_hello {i accountId : Nat} {processed : List Nat}
    {next other : List Nat → List Event → Processed}
    (same : ∀ processed events, other processed events = (next processed events).hello helo) :
    deliverOne server world (conn.hello helo) i accountId processed events other =
      (deliverOne server world conn i accountId processed events next).hello helo := by
  unfold deliverOne
  split
  · refine at_hello helo events conn.rcptAddrs i fun recipient => ?_
    split <;> rfl
  · rfl
  · split
    · exact afterDelivery_hello helo same
    · rfl
    · rfl

theorem deliverAll_hello (checked : Option (InboundSession × AuthResult)) (rest : List Nat) (i : Nat)
    (processed : List Nat) (events : List Event) :
    deliverAll server world (conn.hello helo) checked i rest processed events =
      (deliverAll server world conn checked i rest processed events).hello helo := by
  induction rest generalizing i processed events with
  | nil => rfl
  | cons accountId rest ih =>
    cases checked with
    | none =>
      exact deliverOne_hello helo fun processed events => ih _ _ _
    | some found =>
      refine at_hello helo events conn.rcptAddrs i fun recipient => ?_
      exact deliverOne_hello helo fun processed events => ih _ _ _

/-- The loop asks nothing of the checks, and takes nothing back. -/
theorem looped_asks {i : Nat} {rest : List Nat} {processed : Processed} (asked : asks events = true)
    (looped : Looped server world conn i rest events processed) :
    asks processed.events = true := by
  cases looped <;> simp_all [asks, Processed.final]

theorem receive_hello (paired : Paired conn) {data : Bytes} :
    Processed.Heard helo (receive go server world conn data events)
      (receive go server world (conn.hello helo) data events) := by
  refine ite_rel (Processed.Heard helo) (.inr rfl) ?_
  refine ite_rel (Processed.Heard helo) (.inr (deliverAll_hello helo none _ _ _ _)) (.inl ?_)
  have asked : asks (events ++ [.checked conn.inboundSession data]) = true := by
    simp [asks, Event.toldGreeting]
  have looped (checked : Option (InboundSession × AuthResult)) :
      asks (deliverAll server world conn checked 0 conn.rcpts []
        (events ++ [.checked conn.inboundSession data])).events = true :=
    looped_asks asked (deliverAll_looped conn.rcpts 0 [] _ (by rw [paired]; omega))
  dsimp only
  split
  · exact looped none
  split
  · simp [asks, Processed.final, Event.toldGreeting]
  split
  · simp [asks, Processed.final, Event.toldGreeting]
  · exact looped _

theorem processData_hello (paired : Paired conn) (data : Bytes) :
    Processed.Heard helo (processData go server world conn data)
      (processData go server world (conn.hello helo) data) := by
  refine ite_rel (Processed.Heard helo) (.inr rfl) ?_
  refine ite_rel (Processed.Heard helo) (.inr rfl) ?_
  refine ite_rel (Processed.Heard helo) (.inr rfl) ?_
  refine ite_rel (Processed.Heard helo) ?_ (receive_hello helo paired)
  exact ite_rel (Processed.Heard helo) (.inr rfl) (.inr rfl)

theorem turn_hello (paired : Paired conn) (data : Bytes) (events : List Event) (input : Bytes) :
    Turn.Heard helo ((processData go server world conn data).turn events input)
      ((processData go server world (conn.hello helo) data).turn events input) := by
  refine (processData_hello helo paired data).imp (fun asked => ?_) fun same => by rw [same]; rfl
  simp_all [asks, Processed.turn]

/-! ### Commands -/

theorem logIn_hello {login : Bytes} {scope : Option Nat} :
    logIn go world (conn.hello helo) input events login scope =
      (logIn go world conn input events login scope).hello helo := by
  unfold logIn
  split <;> rfl

theorem saslChallenge_hello {data : Bytes}
    {next other : Bytes → List Event → Bytes → Turn}
    (same : ∀ input events response, other input events response =
      (next input events response).hello helo) :
    saslChallenge go (conn.hello helo) input events data other =
      (saslChallenge go conn input events data next).hello helo := by
  unfold saslChallenge
  dsimp only
  split
  · rfl
  split
  · rfl
  split
  · rfl
  · exact same _ _ _

theorem saslInitial_hello {ir : Bytes} {next other : Bytes → List Event → Bytes → Turn}
    (same : ∀ input events response, other input events response =
      (next input events response).hello helo) :
    saslInitial go (conn.hello helo) input ir other =
      (saslInitial go conn input ir next).hello helo := by
  unfold saslInitial
  split
  · exact same _ _ _
  split
  · exact saslChallenge_hello helo same
  split
  · rfl
  · exact same _ _ _

theorem authPlain_hello {arg : Bytes} :
    authPlain go world (conn.hello helo) input arg =
      (authPlain go world conn input arg).hello helo := by
  unfold authPlain
  split
  · rfl
  split
  · rfl
  split
  · exact logIn_hello helo
  · rfl

theorem authSCRAM_hello {ir : Bytes} {plus : Bool} :
    authSCRAM go server world (conn.hello helo) input ir plus =
      (authSCRAM go server world conn input ir plus).hello helo := by
  refine ite_map (Turn.hello · helo) rfl ?_
  refine ite_map (Turn.hello · helo) rfl ?_
  refine saslInitial_hello helo fun input events clientFirst => ?_
  dsimp only
  split
  · refine saslChallenge_hello helo fun input events clientFinal => ?_
    split
    · rfl
    · exact saslChallenge_hello helo fun input events _ => logIn_hello helo
  · rfl

theorem cmdAuth_hello (input rest : Bytes) :
    cmdAuth go server world (conn.hello helo) input rest =
      (cmdAuth go server world conn input rest).hello helo := by
  refine ite_map (Turn.hello · helo) rfl ?_
  refine ite_map (Turn.hello · helo) rfl ?_
  refine ite_map (Turn.hello · helo) (authPlain_hello helo) ?_
  refine ite_map (Turn.hello · helo) (authSCRAM_hello helo) ?_
  exact ite_map (Turn.hello · helo) (authSCRAM_hello helo) rfl

theorem beginMail_hello {rest addr : Bytes} :
    beginMail go server world (conn.hello helo) input rest addr =
      (beginMail go server world conn input rest addr).map (fun turn => turn.hello helo) := by
  unfold beginMail
  cases mailParamStr go rest (octets ['R', 'E', 'T']) with
  | none => rfl
  | some ret =>
    cases mailParamStr go rest (octets ['E', 'N', 'V', 'I', 'D']) with
    | none => rfl
    | some envID =>
      cases mailParamStr go rest (octets ['B', 'O', 'D', 'Y']) with
      | none => rfl
      | some body =>
        cases mailHold go server rest with
        | none => rfl
        | some hold =>
          simp only [Option.bind_eq_bind, Option.bind_some, Option.pure_def, Option.map_some]
          split <;> rfl

theorem cmdMail_hello (input rest : Bytes) :
    cmdMail go server world (conn.hello helo) input rest =
      (cmdMail go server world conn input rest).map (fun turn => turn.hello helo) := by
  unfold cmdMail
  cases parseAddrParam go rest (octets ['F', 'R', 'O', 'M', ':']) with
  | none => rfl
  | some parsed =>
    cases parsed with
    | none => rfl
    | some addr =>
      simp only [Option.bind_eq_bind, Option.bind_some]
      cases mailParamInt go rest (octets ['S', 'I', 'Z', 'E']) with
      | none => rfl
      | some size =>
        simp only [Option.bind_some]
        refine ite_map (Option.map (Turn.hello · helo)) rfl ?_
        refine ite_map (Option.map (Turn.hello · helo)) rfl ?_
        exact ite_map (Option.map (Turn.hello · helo)) rfl (beginMail_hello helo)

theorem rcptReceive_hello {addrStr : Bytes} {addr : Address} :
    rcptReceive go server world (conn.hello helo) input addrStr addr =
      (rcptReceive go server world conn input addrStr addr).hello helo := by
  refine ite_map (Turn.hello · helo) ?_ ?_
  · exact ite_map (Turn.hello · helo) rfl rfl
  refine ite_map (Turn.hello · helo) ?_ ?_
  · exact ite_map (Turn.hello · helo) rfl rfl
  refine ite_map (Turn.hello · helo) rfl ?_
  cases world.resolveInbound addr <;> rfl

theorem rcptRelay_hello {rest addrStr : Bytes} :
    rcptRelay go (conn.hello helo) input rest addrStr =
      (rcptRelay go conn input rest addrStr).map (fun turn => turn.hello helo) := by
  refine ite_map (Option.map (Turn.hello · helo)) rfl ?_
  cases mailParamStr go rest (octets ['N', 'O', 'T', 'I', 'F', 'Y']) with
  | none => rfl
  | some notify => cases mailParamStr go rest (octets ['O', 'R', 'C', 'P', 'T']) <;> rfl

theorem cmdRcpt_hello (input rest : Bytes) :
    cmdRcpt go server world (conn.hello helo) input rest =
      (cmdRcpt go server world conn input rest).map (fun turn => turn.hello helo) := by
  refine ite_map (Option.map (Turn.hello · helo)) rfl ?_
  cases parseAddrParam go rest (octets ['T', 'O', ':']) with
  | none => rfl
  | some parsed =>
    cases parsed with
    | none => rfl
    | some addrStr =>
      simp only [Option.bind_eq_bind, Option.bind_some]
      cases go.parseAddress addrStr with
      | none => rfl
      | some addr =>
        refine ite_map (Option.map (Turn.hello · helo)) rfl ?_
        refine ite_map (Option.map (Turn.hello · helo)) (rcptRelay_hello helo) ?_
        exact congrArg some (rcptReceive_hello helo)

theorem cmdData_hello (paired : Paired conn) (input : Bytes) :
    Turn.Heard helo (cmdData go server world conn input)
      (cmdData go server world (conn.hello helo) input) := by
  refine ite_rel (Turn.Heard helo) (.inr rfl) ?_
  dsimp only
  split
  · exact .inr rfl
  · exact ite_rel (Turn.Heard helo) (.inr rfl) (turn_hello helo paired _ _ _)

theorem cmdBDAT_hello (paired : Paired conn) (input rest : Bytes) :
    Turn.Heard helo (cmdBDAT go server world conn input rest)
      (cmdBDAT go server world (conn.hello helo) input rest) := by
  unfold cmdBDAT
  split
  · exact .inr rfl
  split
  · exact .inr rfl
  refine ite_rel (Turn.Heard helo) (.inr rfl) ?_
  refine ite_rel (Turn.Heard helo) (.inr rfl) ?_
  refine ite_rel (Turn.Heard helo) (.inr rfl) ?_
  refine ite_rel (Turn.Heard helo) (.inr rfl) ?_
  exact ite_rel (Turn.Heard helo) (.inr rfl) (turn_hello helo (by exact paired) _ _ _)

theorem cmdBURL_hello (paired : Paired conn) (input rest : Bytes) :
    Turn.Heard helo (cmdBURL go server world conn input rest)
      (cmdBURL go server world (conn.hello helo) input rest) := by
  refine ite_rel (Turn.Heard helo) (.inr rfl) ?_
  refine ite_rel (Turn.Heard helo) (.inr rfl) ?_
  refine ite_rel (Turn.Heard helo) (.inr rfl) ?_
  split
  · refine ite_rel (Turn.Heard helo) (.inr rfl) ?_
    have same : world.burl (conn.hello helo).authAccount = world.burl conn.authAccount := rfl
    rw [same]
    split
    · exact .inr rfl
    · exact ite_rel (Turn.Heard helo) (.inr rfl) (turn_hello helo paired _ _ _)
  · exact .inr rfl

theorem cmdStartTLS_hello (input : Bytes) :
    cmdStartTLS server world (conn.hello helo) input =
      (cmdStartTLS server world conn input).hello helo := by
  refine ite_map (Turn.hello · helo) rfl ?_
  refine ite_map (Turn.hello · helo) rfl ?_
  dsimp only
  cases world.handshake <;> rfl

theorem orPanic_hello (input : Bytes) {turn : Option Turn} :
    orPanic (conn.hello helo) input (turn.map (fun turn => turn.hello helo)) =
      (orPanic conn input turn).hello helo := by
  cases turn <;> rfl

end Greeting

/-- The next command replaces the greeting. -/
def greets (go : Go) (input : Bytes) : Bool :=
  match command go input with
  | some (some .ehlo, _) => true
  | some (some .helo, _) => true
  | _ => false

/-- The client greets again before the checks of a received message are first asked. -/
def greetsFirst (go : Go) (server : Server) : Session → List World → Bool
  | _, [] => true
  | session, world :: worlds =>
      let turn := serve go server world session.conn session.input
      greets go session.input ||
        (!asks turn.events && greetsFirst go server (session.after turn) worlds)

section Greeting

variable {go : Go} {server : Server} {world : World} {conn : Conn} (helo : Bytes)

theorem serve_greets (greeting : greets go input = true) :
    serve go server world (conn.hello helo) input = serve go server world conn input := by
  unfold greets at greeting
  unfold serve
  split at greeting
  case h_1 read => rw [read]; rfl
  case h_2 read => rw [read]; rfl
  case h_3 => cases greeting

theorem serve_hello (paired : Paired conn) (unsaid : greets go input = false) :
    Turn.Heard helo (serve go server world conn input)
      (serve go server world (conn.hello helo) input) := by
  unfold serve
  unfold greets at unsaid
  generalize command go input = read at unsaid ⊢
  rcases read with _ | ⟨_ | verb, arg, rest⟩
  · exact .inr rfl
  · exact .inr rfl
  cases verb with
  | ehlo | helo => cases unsaid
  | starttls => exact .inr (cmdStartTLS_hello helo rest)
  | auth => exact .inr (cmdAuth_hello helo rest arg)
  | mail =>
    dsimp only
    rw [cmdMail_hello helo rest arg]
    exact .inr (orPanic_hello helo rest)
  | rcpt =>
    dsimp only
    rw [cmdRcpt_hello helo rest arg]
    exact .inr (orPanic_hello helo rest)
  | data => exact cmdData_hello helo paired rest
  | bdat => exact cmdBDAT_hello helo paired rest arg
  | burl => exact cmdBURL_hello helo paired rest arg
  | _ => exact .inr rfl

end Greeting

/-! ### Two sessions -/

/-- Two sessions that differ in what happened before and in the greeting. -/
structure Alike (helo : Bytes) (session twin : Session) : Prop where
  conn : twin.conn = session.conn.hello helo
  input : twin.input = session.input
  status : twin.status = session.status

theorem run_alike {final : Session} :
    ∀ {helo : Bytes} {session twin : Session}, Paired session.conn → Alike helo session twin →
      (session.conn.helo = helo ∨ greetsFirst go server session worlds = true) →
      run (step go server) session worlds = some final →
      ∃ ended events, run (step go server) twin worlds = some ended ∧
        ended.status = final.status ∧
        final.trace = session.trace ++ events ∧ ended.trace = twin.trace ++ events := by
  induction worlds with
  | nil =>
    intro helo session twin _ alike _ reached
    cases reached
    exact ⟨twin, [], rfl, alike.status, (List.append_nil _).symm, (List.append_nil _).symm⟩
  | cons world worlds ih =>
    intro helo session twin paired alike greeted reached
    obtain ⟨next, moved, reached⟩ := (run_cons _ _ _ _ _).mp reached
    obtain ⟨serving, rfl⟩ := step_serve moved
    obtain ⟨sameConn, sameInput, sameStatus⟩ := alike
    have twinMoves : step go server twin world =
        some (twin.after (serve go server world (session.conn.hello helo) session.input)) := by
      rw [step, if_pos (sameStatus.trans serving), sameConn, sameInput]
    -- the two turns agree, in all or up to the greeting
    have rest {later : Bytes}
        (served : serve go server world (session.conn.hello helo) session.input =
          (serve go server world session.conn session.input).hello later)
        (onwards : (serve go server world session.conn session.input).conn.helo = later ∨
          greetsFirst go server
            (session.after (serve go server world session.conn session.input)) worlds = true) :
        ∃ ended events, run (step go server) twin (world :: worlds) = some ended ∧
          ended.status = final.status ∧
          final.trace = session.trace ++ events ∧ ended.trace = twin.trace ++ events := by
      rw [served] at twinMoves
      have alike : Alike later
          (session.after (serve go server world session.conn session.input))
          (twin.after ((serve go server world session.conn session.input).hello later)) :=
        ⟨rfl, rfl, rfl⟩
      obtain ⟨ended, events, ends, status, trace, twinTrace⟩ :=
        ih (effect_paired (serve_effect session.input) paired) alike onwards reached
      refine ⟨ended, (serve go server world session.conn session.input).events ++ events,
        (run_cons _ _ _ _ _).mpr ⟨_, twinMoves, ends⟩, status, ?_, ?_⟩
      · rw [trace, Session.after_trace, List.append_assoc]
      · rw [twinTrace, Session.after_trace, List.append_assoc]
        rfl
    rcases greeted with rfl | greeted
    · exact rest rfl (.inl rfl)
    rw [greetsFirst, Bool.or_eq_true, Bool.and_eq_true, Bool.not_eq_true'] at greeted
    cases greeting : greets go session.input with
    | true => exact rest (serve_greets _ greeting) (.inl rfl)
    | false =>
      rw [greeting] at greeted
      obtain ⟨calm, onwards⟩ := greeted.resolve_left Bool.false_ne_true
      have same := (serve_hello helo paired greeting).resolve_left (ne_true_of_eq_false calm)
      exact rest same (.inr onwards)

/-- Two sessions with the same stream after a handshake are served alike, whatever was said in
plaintext, when the client greets before a check is asked: the same replies are given and the same
calls are made with the same arguments. -/
theorem starttls_forgets {go : Go} {server : Server} {stream other : Bytes}
    {worlds others : List World} {world away : World} {session twin final : Session}
    (secures : Secures go server stream worlds world session)
    (twinSecures : Secures go server other others away twin) (same : session.input = twin.input)
    (after : List World) (greeted : greetsFirst go server session after = true)
    (reached : run (step go server) session after = some final) :
    ∃ ended events, run (step go server) twin after = some ended ∧
      ended.status = final.status ∧
      final.trace = session.trace ++ events ∧ ended.trace = twin.trace ++ events := by
  obtain ⟨helo, isConn⟩ := secures_conn secures
  obtain ⟨twinHelo, isTwin⟩ := secures_conn twinSecures
  obtain ⟨_, _, _, _, _, serving⟩ := secures
  obtain ⟨_, _, _, _, _, twinServing⟩ := twinSecures
  have alike : Alike twinHelo session twin := by
    refine ⟨?_, same.symm, twinServing.trans serving.symm⟩
    rw [isConn, isTwin]
    rfl
  exact run_alike (by rw [isConn]; rfl) alike (.inr greeted) reached

/-- A listener for local accounts with a certificate, that checks what it receives. -/
def checkingMx : Server := { mx with tlsConfig := true, auth := true }

def startTls : Bytes := sent ['S', 'T', 'A', 'R', 'T', 'T', 'L', 'S']

def greeting (name : Char) : Bytes := sent ['E', 'H', 'L', 'O', ' ', name]

/-- The handshake succeeds and a stream follows. -/
def securing (stream : Bytes) : World := { obliging with handshake := some stream }

/-- What is seen of a client that says something in plaintext and the rest over TLS. -/
theorem secures_seen {said rest : Bytes} {worlds after : List World} {first : Bool}
    {told : List Bytes}
    (plain : (run (step ascii checkingMx) (accepted checkingMx said) worlds).map
      (fun session => session.conn.tls) = some false)
    (seen : (run (step ascii checkingMx) (accepted checkingMx said)
      (worlds ++ [securing rest])).map (fun session =>
        ((session.conn.tls, session.status, session.input),
          greetsFirst ascii checkingMx session after,
          (run (step ascii checkingMx) session after).map
            (fun final => final.trace.filterMap Event.toldGreeting))) =
      some ((true, .serving, rest), first, some told)) :
    ∃ session final, Secures ascii checkingMx said worlds (securing rest) session ∧
      session.input = rest ∧ greetsFirst ascii checkingMx session after = first ∧
      run (step ascii checkingMx) session after = some final ∧
      final.trace.filterMap Event.toldGreeting = told := by
  obtain ⟨session, opened, seen⟩ := Option.map_eq_some_iff.mp seen
  simp only [Prod.mk.injEq] at seen
  obtain ⟨⟨secured, serving, input⟩, greets, seen⟩ := seen
  obtain ⟨final, reached, told⟩ := Option.map_eq_some_iff.mp seen
  exact ⟨session, final, secures_of plain opened secured serving, input, greets, reached, told⟩

/-- One client greets in plaintext and one does not; over TLS both greet alike and send a
message, and the check is told that greeting. -/
theorem greetedAgain_forgets :
    ∃ session twin final ended : Session, ∃ events : List Event,
      Secures ascii checkingMx (greeting 'a' ++ startTls) [obliging]
        (securing (greeting 'c' ++ twoRecipients)) session ∧
      Secures ascii checkingMx startTls [] (securing (greeting 'c' ++ twoRecipients)) twin ∧
      run (step ascii checkingMx) session (List.replicate 5 obliging) = some final ∧
      run (step ascii checkingMx) twin (List.replicate 5 obliging) = some ended ∧
      final.trace.filterMap Event.toldGreeting = [octets ['c']] ∧
      final.trace = session.trace ++ events ∧ ended.trace = twin.trace ++ events := by
  obtain ⟨session, final, secures, input, greeted, reached, told⟩ :=
    @secures_seen (greeting 'a' ++ startTls) (greeting 'c' ++ twoRecipients) [obliging]
      (List.replicate 5 obliging) true [octets ['c']] (by decide +kernel) (by decide +kernel)
  obtain ⟨twin, _, twinSecures, twinInput, _⟩ :=
    @secures_seen startTls (greeting 'c' ++ twoRecipients) [] (List.replicate 5 obliging) true
      [octets ['c']] (by decide +kernel) (by decide +kernel)
  obtain ⟨ended, events, ends, _, trace, twinTrace⟩ := starttls_forgets secures twinSecures
    (input.trans twinInput.symm) (List.replicate 5 obliging) greeted reached
  exact ⟨session, twin, final, ended, events, secures, twinSecures, reached, ends, told, trace,
    twinTrace⟩

/-- One client greets in plaintext and one does not; over TLS both send a message at once, and
the check is told what the first said in plaintext. -/
theorem plaintext_greeting_checked :
    ∃ session twin final ended : Session,
      Secures ascii checkingMx (greeting 'a' ++ startTls) [obliging] (securing twoRecipients)
        session ∧
      Secures ascii checkingMx startTls [] (securing twoRecipients) twin ∧
      session.input = twin.input ∧
      run (step ascii checkingMx) session (List.replicate 4 obliging) = some final ∧
      run (step ascii checkingMx) twin (List.replicate 4 obliging) = some ended ∧
      final.trace.filterMap Event.toldGreeting = [octets ['a']] ∧
      ended.trace.filterMap Event.toldGreeting = [[]] := by
  obtain ⟨session, final, secures, input, _, reached, told⟩ :=
    @secures_seen (greeting 'a' ++ startTls) twoRecipients [obliging] (List.replicate 4 obliging)
      false [octets ['a']] (by decide +kernel) (by decide +kernel)
  obtain ⟨twin, ended, twinSecures, twinInput, _, ends, twinTold⟩ :=
    @secures_seen startTls twoRecipients [] (List.replicate 4 obliging) false [[]]
      (by decide +kernel) (by decide +kernel)
  exact ⟨session, twin, final, ended, secures, twinSecures, input.trans twinInput.symm, reached,
    ends, told, twinTold⟩

end OctoMail.Smtp
