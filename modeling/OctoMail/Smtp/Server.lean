import Mathlib.Data.Int.ModEq

/-!
# The SMTP server

The command loop of `protocol/smtpd/server.go`, for both kinds of listener: the one that
receives mail for local accounts and the one that takes submissions. A connection reads
its input octet by octet, so what is a command line and what is message content is decided
here as in the source.

Go's string functions and the address parser are parameters (`Go`); what the directory, the
message checks, the deliveries, the queue and the TLS handshake answer is given anew for
every command (`World`). Everything a command does that others can see is an `Event`. A
slice index out of range, or a slice too long to allocate, ends the connection and the
process: the turn is panicked.

Replies are kept as format string and arguments. Left out are the counters of the metrics,
the records for aggregate reports and for sender reputation, and failures to write a reply.
-/

namespace OctoMail.Smtp

abbrev Bytes := List UInt8

def octets (text : List Char) : Bytes := text.map Char.toUInt8

structure Address where
  localpart : Bytes
  domain : Bytes
deriving DecidableEq, Repr

/-- What the server uses of Go's libraries and of the address parser. Upper-casing maps rune
by rune, so a text has at least as many octets as an ASCII prefix of its upper case, and it
leaves ASCII text without lower-case letters alone. -/
structure Go where
  toUpper : Bytes → Bytes
  equalFold : Bytes → Bytes → Bool
  trimSpace : Bytes → Bytes
  fields : Bytes → List Bytes
  decodeBase64 : Bytes → Option Bytes
  parseAddress : Bytes → Option Address
  /-- `time.Parse(time.RFC3339, _)`, in nanoseconds. -/
  parseTime : Bytes → Option Int
  /-- The longest slice that can be made. -/
  maxAlloc : Nat
  upper_length : ∀ keyword text : Bytes, (∀ c ∈ keyword, c < 128) →
    keyword.isPrefixOf (toUpper text) = true → keyword.length ≤ text.length
  upper_keyword : ∀ keyword : Bytes, (∀ c ∈ keyword, c < 97) → toUpper keyword = keyword

structure Server where
  hostname : Bytes := []
  submission : Bool := false
  tlsConfig : Bool := false
  /-- The directory is a `SCRAMAuthenticator`. -/
  scram : Bool := false
  maxSize : Nat := 0
  maxRcpt : Nat := 0
  maxHops : Nat := 0
  auth : Bool := false
  rejectDMARCFail : Bool := false
  junk : Bool := false
  decider : Bool := false
  bounceDomain : Bytes := []
  bounceHandler : Bool := false
  reportDomain : Bytes := []
  reportHandler : Bool := false
  burlResolver : Bool := false
  vacationResponder : Bool := false
  mailRuleProcessor : Bool := false

def defaultMaxRcpt : Nat := 1000

def defaultMaxHops : Nat := 50

/-- Ninety days, in nanoseconds. -/
def maxFutureRelease : Int := 90 * 24 * 3600 * 1000000000

def Server.rcptLimit (server : Server) : Nat :=
  if 0 < server.maxRcpt then server.maxRcpt else defaultMaxRcpt

def Server.hopLimit (server : Server) : Nat :=
  if server.maxHops = 0 then defaultMaxHops else server.maxHops

/-- The size is over the limit, where there is one. -/
def Server.tooLarge (server : Server) (size : Int) : Bool :=
  decide (0 < server.maxSize) && decide ((server.maxSize : Int) < size)

/-! ### Replies and events -/

inductive Arg where
  | int (value : Int)
  | str (value : Bytes)
deriving DecidableEq, Repr

structure Reply where
  code : Nat
  format : String
  args : List Arg := []
deriving DecidableEq, Repr

structure DSNParams where
  ret : Bytes := []
  envID : Bytes := []
  body8BitMIME : Bool := false
  smtpUTF8 : Bool := false
  notify : List (Bytes × Bytes) := []
  orcpt : List (Bytes × Bytes) := []
deriving DecidableEq, Repr

/-- The arguments of a `SubmitDSN`. -/
structure Submitted where
  tenant : Nat
  account : Nat
  mailFrom : Bytes
  rcptTo : List Bytes
  raw : Bytes
  notBefore : Option Int
  dsn : DSNParams
deriving DecidableEq, Repr

/-- What the checks of a received message are told about its connection. -/
structure InboundSession where
  /-- The greeting that `HelloDomain` is parsed from. -/
  helo : Bytes
  mailFrom : Bytes
  tls : Bool
deriving DecidableEq, Repr

structure AuthResult where
  dnsblZone : Bytes := []
  dmarcReject : Bool := false
deriving DecidableEq, Repr

/-- What an accepted recipient is. -/
inductive Recipient where
  | bounce (localpart : Bytes)
  | report (localpart : Bytes)
  | local_ (accountId : Nat)
  | relay (address : Bytes)
deriving DecidableEq, Repr

inductive Event where
  | replied (reply : Reply)
  /-- The reply to EHLO, of several lines. -/
  | greeted (lines : List Reply)
  | authenticated (tenant account : Nat)
  | startedTLS
  /-- A MAIL was accepted; in submission mode with the account its address resolved to. -/
  | mail (address : Bytes) (owner : Option Nat)
  | rcpt (recipient : Recipient)
  /-- `processData` is called. -/
  | content (data : Bytes)
  | bounceHandled (localpart : Bytes)
  | reportHandled (localpart : Bytes)
  /-- `Authenticate` is called. -/
  | checked (session : InboundSession) (data : Bytes)
  /-- The header that `Prefix` makes for a recipient of a checked message. -/
  | prefixed (session : InboundSession) (result : AuthResult) (recipient : Bytes)
  /-- A message was added to a mailbox of the account, marked junk or not. -/
  | delivered (accountId : Nat) (mailbox : String) (junk : Bool)
  | vacation (accountId : Nat) (sender recipient : Bytes)
  | rules (accountId : Nat)
  | submitted (submission : Submitted)
deriving DecidableEq, Repr

def reply (code : Nat) (format : String) (args : List Arg := []) : Event :=
  .replied ⟨code, format, args⟩

/-! ### The connection -/

structure Conn where
  tls : Bool := false
  mailFrom : Bytes := []
  haveFrom : Bool := false
  /-- The accounts of the local recipients, and the addresses as they were given. -/
  rcpts : List Nat := []
  rcptAddrs : List Bytes := []
  helo : Bytes := []
  dsnRet : Bytes := []
  dsnEnvID : Bytes := []
  subNotify : List Bytes := []
  subORcpt : List Bytes := []
  mailBody8bitmime : Bool := false
  mailSMTPUTF8 : Bool := false
  holdUntil : Option Int := none
  bdatBuf : Bytes := []
  inBDAT : Bool := false
  authed : Bool := false
  authTenant : Nat := 0
  authAccount : Nat := 0
  /-- The tenant scope of the authenticated login. -/
  authScope : Option Nat := none
  subRcpts : List Bytes := []
  bounceRcpts : List Bytes := []
  reportRcpts : List Bytes := []
deriving DecidableEq, Repr

def Conn.reset (conn : Conn) : Conn :=
  { conn with
    mailFrom := [], haveFrom := false, rcpts := [], rcptAddrs := [], subRcpts := []
    bounceRcpts := [], reportRcpts := [], subNotify := [], subORcpt := [], dsnRet := []
    dsnEnvID := [], mailBody8bitmime := false, mailSMTPUTF8 := false, holdUntil := none
    bdatBuf := [], inBDAT := false }

/-- The connection with chunks received. -/
def Conn.buffered (conn : Conn) (inBDAT : Bool) (buffer : Bytes) : Conn :=
  { conn with inBDAT := inBDAT, bdatBuf := buffer }

/-! ### What others answer -/

inductive Verdict where
  | accept
  | acceptJunk
  | defer_
  | reject
deriving DecidableEq, Repr

structure Decision where
  verdict : Verdict
  reason : Bytes := []
  mailbox : String := ""
  challenge : Bytes := []
deriving DecidableEq, Repr

/-- How a delivery ends. One that is reported as failed may have been committed. -/
inductive Delivery where
  | delivered
  | overQuota
  | failed (committed : Bool)
deriving DecidableEq, Repr

/-- The steps of a SCRAM exchange: the login that the first message names, the challenge for
it, and the answer to the proof; each may fail. -/
structure Scram where
  login : Option Bytes
  serverFirst : Option Bytes
  serverFinal : Bytes → Option Bytes

structure World where
  now : Int := 0
  /-- `ResolveInbound`: the account of a local address. -/
  resolveInbound : Address → Option Nat
  /-- `AuthenticatePrincipal`: the tenant whose scope the login has. -/
  authenticatePrincipal : Bytes → Bytes → Option Nat
  /-- `AccountForAddress` in the scope of a tenant. -/
  accountForAddress : Nat → Address → Option Nat
  scram : Bytes → Bool → Scram
  /-- `ScopeForLogin`. -/
  scopeForLogin : Bytes → Option Nat
  /-- The stream after a handshake that succeeds. -/
  handshake : Option Bytes
  burl : Nat → Bytes → Option Bytes
  /-- `SubmitDSN` succeeds. -/
  submits : Bool
  /-- `Authenticate`, where it succeeds. -/
  authenticate : InboundSession → Bytes → Option AuthResult
  decide : Nat → Decision
  /-- `Classify` of a recipient's message: spam. -/
  classify : Nat → Bool
  deliver : Nat → Delivery

inductive Status where
  | serving
  | closed
  | panicked
deriving DecidableEq, Repr

/-- What a command leaves. -/
structure Turn where
  conn : Conn
  input : Bytes
  events : List Event
  status : Status := .serving
deriving DecidableEq, Repr

/-! ### Text -/

def splitCmd (line : Bytes) : Bytes × Bytes :=
  (line.takeWhile (· != 32), (line.dropWhile (· != 32)).drop 1)

/-- `strings.TrimRight(line, "\r\n")`. -/
def trimLine (line : Bytes) : Bytes :=
  (line.reverse.dropWhile (fun c => c == 13 || c == 10)).reverse

/-- `ReadString('\n')`: a line with its end, and what follows. -/
def readLine : Bytes → Option (Bytes × Bytes)
  | [] => none
  | c :: rest =>
      if c = 10 then some ([c], rest)
      else (readLine rest).map (fun read => (c :: read.1, read.2))

/-- The digits of a decimal number. -/
def digits : Bytes → Option Nat
  | [] => none
  | text =>
      if text.all (fun c => decide (48 ≤ c ∧ c ≤ 57)) then
        some (text.foldl (fun n c => n * 10 + (c.toNat - 48)) 0)
      else none

/-- A decimal number with or without a sign. -/
def numeral : Bytes → Option Int
  | 43 :: rest => (digits rest).map Int.ofNat
  | 45 :: rest => (digits rest).map (fun n => -(n : Int))
  | text => (digits text).map Int.ofNat

/-- `strconv.Atoi`, and `ParseInt` with base ten: a number within 64 bits. -/
def atoi (text : Bytes) : Option Int :=
  (numeral text).filter (fun n => decide (-(2 ^ 63) ≤ n ∧ n < 2 ^ 63))

/-- The result of an operation on 64-bit integers. -/
def wrap64 (n : Int) : Int := n.bmod (2 ^ 64)

section Text

variable (go : Go)

/-- `text[n:]`; there is nothing when it panics. -/
def sliceFrom (text : Bytes) (n : Nat) : Option Bytes :=
  if n ≤ text.length then some (text.drop n) else none

/-- The address between angle brackets after a keyword; there is nothing on a panic. -/
def parseAddrParam (rest keyword : Bytes) : Option (Option Bytes) :=
  let rest := go.trimSpace rest
  if keyword.isPrefixOf (go.toUpper rest) then
    (sliceFrom rest keyword.length).map (fun v =>
      match go.trimSpace v with
      | 60 :: v => if v.contains 62 then some (v.takeWhile (· != 62)) else none
      | _ => none)
  else some none

/-- The value of a parameter, empty without one; there is nothing on a panic. -/
def mailParamStr (rest key : Bytes) : Option Bytes :=
  let pfx := go.toUpper key ++ [61]
  match (go.fields rest).find? (fun tok => pfx.isPrefixOf (go.toUpper tok)) with
  | some tok => sliceFrom tok pfx.length
  | none => some []

def mailParamFlag (rest key : Bytes) : Bool :=
  (go.fields rest).any (fun tok => go.toUpper tok == go.toUpper key)

def mailParamInt (rest key : Bytes) : Option (Option Int) :=
  (mailParamStr go rest key).map (fun v => if v.isEmpty then none else atoi v)

/-- The `Received:` fields among the lines of a header. -/
def countReceivedLines : List Bytes → Nat
  | [] => 0
  | line :: rest =>
      match (line.reverse.dropWhile (· == 13)).reverse with
      | [] => 0
      | c :: more =>
          if c = 32 ∨ c = 9 then countReceivedLines rest
          else
            (if 9 ≤ (c :: more).length ∧ (c = 82 ∨ c = 114) ∧ go.equalFold ((c :: more).take 9)
                (octets ['R', 'e', 'c', 'e', 'i', 'v', 'e', 'd', ':']) = true then 1 else 0) +
              countReceivedLines rest

def countReceivedHeaders (data : Bytes) : Nat := countReceivedLines go (data.splitOn 10)

end Text

def contains8bit (data : Bytes) : Bool := data.any (fun c => decide (128 ≤ c))

def needsSMTPUTF8 (mailFrom : Bytes) (rcpts : List Bytes) (data : Bytes) : Bool :=
  contains8bit mailFrom || rcpts.any contains8bit || contains8bit data

def hasDSNPerRcpt (vals : List Bytes) : Bool := vals.any (fun v => !v.isEmpty)

/-! ### Message content -/

section Process

variable (go : Go) (server : Server) (world : World)

/-- Hand each distinct local part to a handler. -/
def handled (event : Bytes → Event) (seen : List Bytes) : List Bytes → List Event
  | [] => []
  | localpart :: rest =>
      if seen.contains localpart then handled event seen rest
      else event localpart :: handled event (localpart :: seen) rest

/-- The values given for recipients, those that are not empty. -/
def perRcpt (rcpts values : List Bytes) : List (Bytes × Bytes) :=
  (rcpts.zip values).filter (fun entry => !entry.2.isEmpty)

def dsnParams (conn : Conn) (data : Bytes) : DSNParams :=
  let any_ := hasDSNPerRcpt conn.subNotify || hasDSNPerRcpt conn.subORcpt
  { ret := conn.dsnRet
    envID := conn.dsnEnvID
    body8BitMIME := conn.mailBody8bitmime && contains8bit data
    smtpUTF8 := conn.mailSMTPUTF8 && needsSMTPUTF8 conn.mailFrom conn.subRcpts data
    notify := if any_ then perRcpt conn.subRcpts conn.subNotify else []
    orcpt := if any_ then perRcpt conn.subRcpts conn.subORcpt else [] }

/-- What processing message content leaves; the input is not read. -/
structure Processed where
  conn : Conn
  events : List Event
  panicked : Bool := false
deriving DecidableEq, Repr

/-- The transaction is over, with its final reply. -/
def Processed.final (conn : Conn) (events : List Event) (code : Nat) (format : String)
    (args : List Arg := []) : Processed :=
  ⟨conn.reset, events ++ [reply code format args], false⟩

/-- An element of a slice; out of range it panics. -/
def Processed.at (conn : Conn) (events : List Event) (slice : List Bytes) (i : Nat)
    (next : Bytes → Processed) : Processed :=
  match slice[i]? with
  | some element => next element
  | none => ⟨conn, events, true⟩

/-- The mailbox for a recipient and whether its message is marked junk. -/
inductive Route where
  | filed (mailbox : String) (junk : Bool)
  | deferred (challenge : Bytes)
  | rejected (reason : Bytes)
deriving DecidableEq, Repr

def route (i : Nat) : Route :=
  if server.decider then
    let dec := world.decide i
    let mailbox := fun fallback : String => if dec.mailbox = "" then fallback else dec.mailbox
    match dec.verdict with
    | .defer_ => .deferred dec.challenge
    | .reject => .rejected dec.reason
    | .acceptJunk => .filed (mailbox "Junk") true
    | .accept => .filed (mailbox "Inbox") false
  else if server.junk && world.classify i then .filed "Junk" true
  else .filed "Inbox" false

/-- What follows a delivery: the vacation reply and the rules of the account, once each. -/
def afterDelivery (conn : Conn) (i accountId : Nat) (mailbox : String) (processed : List Nat)
    (events : List Event) (next : List Nat → List Event → Processed) : Processed :=
  let rules := fun events =>
    if server.mailRuleProcessor && mailbox == "Inbox" && !processed.contains accountId then
      next (accountId :: processed) (events ++ [.rules accountId])
    else next processed events
  if server.vacationResponder && mailbox == "Inbox" && !conn.mailFrom.isEmpty then
    Processed.at conn events conn.rcptAddrs i (fun recipient =>
      rules (events ++ [.vacation accountId conn.mailFrom recipient]))
  else rules events

/-- Deliver to one recipient and go on with the others. A failed delivery clears the connection
before its reply names the recipient. -/
def deliverOne (conn : Conn) (i accountId : Nat) (processed : List Nat) (events : List Event)
    (next : List Nat → List Event → Processed) : Processed :=
  match route server world i with
  | .deferred challenge => Processed.at conn events conn.rcptAddrs i (fun rcpt =>
      if challenge.isEmpty then
        .final conn events 451 "4.7.1 greylisted, please retry later (%s)" [.str rcpt]
      else .final conn events 451
        "4.7.1 message held; to pass, include %q in the Subject and resend" [.str challenge])
  | .rejected reason => .final conn events 550 "5.7.1 message rejected (%s)" [.str reason]
  | .filed mailbox junk =>
      match world.deliver i with
      | .delivered =>
          afterDelivery server conn i accountId mailbox processed
            (events ++ [.delivered accountId mailbox junk]) next
      | .overQuota => Processed.at conn.reset events conn.reset.rcptAddrs i (fun rcpt =>
          .final conn events 452 "4.2.2 mailbox full for %s" [.str rcpt])
      | .failed committed =>
          let events := if committed then events ++ [.delivered accountId mailbox junk] else events
          Processed.at conn.reset events conn.reset.rcptAddrs i (fun rcpt =>
            .final conn events 451 "4.3.0 delivery failed for %s" [.str rcpt])

/-- Deliver to the recipients from one on. The header of a checked message names the
recipient. -/
def deliverAll (conn : Conn) (checked : Option (InboundSession × AuthResult)) :
    Nat → List Nat → List Nat → List Event → Processed
  | _, [], _, events => .final conn events 250 "2.0.0 accepted"
  | i, accountId :: rest, processed, events =>
      let next := deliverAll conn checked (i + 1) rest
      match checked with
      | none => deliverOne server world conn i accountId processed events next
      | some (session, result) => Processed.at conn events conn.rcptAddrs i (fun rcpt =>
          deliverOne server world conn i accountId processed
            (events ++ [.prefixed session result rcpt]) next)

def Conn.inboundSession (conn : Conn) : InboundSession := ⟨conn.helo, conn.mailFrom, conn.tls⟩

/-- The message is received for local accounts. -/
def receive (conn : Conn) (data : Bytes) (events : List Event) : Processed :=
  if server.hopLimit < countReceivedHeaders go data then
    .final conn events 554
      "5.4.6 too many hops (mail loop): more than %d Received headers" [.int server.hopLimit]
  else if !server.auth then deliverAll server world conn none 0 conn.rcpts [] events
  else
    let session := conn.inboundSession
    let events := events ++ [.checked session data]
    match world.authenticate session data with
    | none => deliverAll server world conn none 0 conn.rcpts [] events
    | some result =>
        if !result.dnsblZone.isEmpty then
          .final conn events 554 "5.7.1 client IP listed by %s" [.str result.dnsblZone]
        else if server.rejectDMARCFail && result.dmarcReject then
          .final conn events 550 "5.7.1 rejected by DMARC policy"
        else deliverAll server world conn (some (session, result)) 0 conn.rcpts [] events

/-- A fully received message. -/
def processData (conn : Conn) (data : Bytes) : Processed :=
  let events : List Event := [.content data]
  if server.tooLarge data.length then .final conn events 552 "5.3.4 message too large"
  else if !conn.bounceRcpts.isEmpty && server.bounceHandler then
    .final conn (events ++ handled .bounceHandled [] conn.bounceRcpts) 250 "2.0.0 accepted"
  else if !conn.reportRcpts.isEmpty && server.reportHandler then
    .final conn (events ++ handled .reportHandled [] conn.reportRcpts) 250 "2.0.0 accepted"
  else if server.submission then
    let events := events ++ [.submitted ⟨conn.authTenant, conn.authAccount, conn.mailFrom,
      conn.subRcpts, data, conn.holdUntil, dsnParams conn data⟩]
    if world.submits then .final conn events 250 "2.0.0 queued"
    else .final conn events 451 "4.3.0 could not enqueue: %v"
  else receive go server world conn data events

end Process

/-! ### Reading content -/

/-- The size of bufio's buffer. -/
def bufferSize : Nat := 4096

/-- The octets that `ReadSlice('\n')` takes: to the end of the line or a full buffer. -/
def sliceLength (input : Bytes) : Nat :=
  let buffered := input.take bufferSize
  let line := buffered.takeWhile (· != 10)
  if line.length < buffered.length then line.length + 1 else buffered.length

/-- A carriage return that no newline follows. -/
def bareCR : Bytes → Bool
  | [] => false
  | [c] => c == 13
  | c :: d :: rest => (c == 13 && d != 10) || bareCR (d :: rest)

/-- A reader of DATA content: the last two octets it gave out, how many octets of its slice
are left, whether a line ending was bad, and whether the stream ended with its slice. -/
structure DataReader where
  plast : UInt8 := 13
  last : UInt8 := 10
  pending : Nat := 0
  badcrlf : Bool := false
  failed : Bool := false
deriving DecidableEq, Repr

inductive ReadEnd where
  /-- As much was read as was asked for. -/
  | limit (reader : DataReader)
  | eof
  | error
deriving DecidableEq, Repr

namespace DataReader

/-- The reader with a new slice. Bad line endings are noted, and so is the end of the stream,
which comes before the end of the line and of the buffer. -/
def sliced (reader : DataReader) (input : Bytes) : DataReader :=
  let slice := input.take (sliceLength input)
  let dotted := (octets ['.', '\n']).isPrefixOf slice
  { reader with
    pending := sliceLength input
    badcrlf := reader.badcrlf || bareCR slice ||
      (if reader.plast == 13 && reader.last == 10 then dotted
        else reader.last == 10 && (dotted || (octets ['.', '\r', '\n']).isPrefixOf slice))
    failed := slice.length < bufferSize && slice.getLast? != some 10 }

/-- Read as many octets of content as wanted: what is read, the input that is left, of which
the slice is already buffered, and how the reading ended. -/
def read : Nat → DataReader → Bytes → Bytes × Bytes × ReadEnd
  | 0, reader, input => if reader.failed then ([], [], .error) else ([], input, .limit reader)
  | _ + 1, _, [] => ([], [], .error)
  | want + 1, reader, c :: rest =>
      let fresh := reader.pending == 0
      let reader := if fresh then reader.sliced (c :: rest) else reader
      let lineStart := fresh && reader.plast == 13 && reader.last == 10
      if lineStart && (octets ['.', '\r', '\n']).isPrefixOf (c :: rest) then
        ([], (c :: rest).drop 3, if reader.badcrlf then .error else .eof)
      else if lineStart && c == 46 then
        read (want + 1) { reader with pending := reader.pending - 1 } rest
      else
        let (out, input, ended) := read want
          { reader with plast := reader.last, last := c, pending := reader.pending - 1 } rest
        (c :: out, input, ended)

end DataReader

/-- The input once the reader is given up: its slice is lost. -/
def ReadEnd.leave (input : Bytes) : ReadEnd → Bytes
  | .limit reader => input.drop reader.pending
  | _ => input

/-! ### Commands -/

section Commands

variable (go : Go) (server : Server) (world : World)

/-- A reply after which the connection is served on. -/
def Turn.say (conn : Conn) (input : Bytes) (events : List Event) (code : Nat) (format : String)
    (args : List Arg := []) : Turn :=
  ⟨conn, input, events ++ [reply code format args], .serving⟩

/-- The command after which content was processed. -/
def Processed.turn (processed : Processed) (events : List Event) (input : Bytes) : Turn :=
  ⟨processed.conn, input, events ++ processed.events,
    if processed.panicked then .panicked else .serving⟩

def authAllowed (conn : Conn) : Bool := conn.tls || !server.tlsConfig

def cmdEhlo (conn : Conn) (input rest : Bytes) : Turn :=
  let lines : List Reply :=
    [⟨250, "%s greets you", [.str server.hostname]⟩] ++
    (if server.tlsConfig && !conn.tls then [⟨250, "STARTTLS", []⟩] else []) ++
    (if server.submission && authAllowed server conn then
      [⟨250, if server.scram then
          if conn.tls then "AUTH PLAIN SCRAM-SHA-256 SCRAM-SHA-256-PLUS"
          else "AUTH PLAIN SCRAM-SHA-256"
        else "AUTH PLAIN", []⟩] else []) ++
    (if server.submission then
      [⟨250, "FUTURERELEASE %d %s",
        [.int (maxFutureRelease / 1000000000), .int (world.now + maxFutureRelease)]⟩] else []) ++
    [⟨250, "PIPELINING", []⟩, ⟨250, "SIZE %d", [.int server.maxSize]⟩, ⟨250, "8BITMIME", []⟩,
      ⟨250, "ENHANCEDSTATUSCODES", []⟩, ⟨250, "LIMITS RCPTMAX=%d", [.int server.rcptLimit]⟩,
      ⟨250, "DSN", []⟩, ⟨250, "CHUNKING", []⟩] ++
    (if conn.tls then [⟨250, "REQUIRETLS", []⟩] else []) ++
    (if server.submission && server.burlResolver then [⟨250, "BURL imap", []⟩] else []) ++
    [⟨250, "SMTPUTF8", []⟩]
  ⟨{ conn with helo := go.trimSpace rest }, input, [.greeted lines], .serving⟩

def cmdStartTLS (conn : Conn) (input : Bytes) : Turn :=
  if !server.tlsConfig then .say conn input [] 502 "5.5.1 STARTTLS not available"
  else if conn.tls then .say conn input [] 503 "5.5.1 already using TLS"
  else
    let events := [reply 220 "2.0.0 ready to start TLS"]
    match world.handshake with
    | none => ⟨conn, input, events, .closed⟩
    | some stream =>
        ⟨{ conn.reset with tls := true, authed := false }, stream, events ++ [.startedTLS],
          .serving⟩

/-- The end of an exchange whose credential was accepted for a login, in a scope. -/
def logIn (conn : Conn) (input : Bytes) (events : List Event) (login : Bytes)
    (scope : Option Nat) : Turn :=
  match (do
      let addr ← go.parseAddress login
      let tenant ← scope
      let account ← world.accountForAddress tenant addr
      pure (tenant, account)) with
  | none => .say conn input events 535 "5.7.8 authentication failed"
  | some (tenant, account) =>
      .say { conn.reset with
          authed := true, authTenant := tenant, authAccount := account, authScope := some tenant }
        input (events ++ [.authenticated tenant account]) 235 "2.7.0 authenticated"

def authPlain (conn : Conn) (input arg : Bytes) : Turn :=
  if arg.isEmpty then .say conn input [] 501 "5.5.4 AUTH PLAIN needs an initial response"
  else
    match go.decodeBase64 arg with
    | none => .say conn input [] 501 "5.5.2 bad base64"
    | some raw =>
        match raw.splitOn 0 with
        | [_, login, password] =>
            logIn go world conn input [] login (world.authenticatePrincipal login password)
        | _ => .say conn input [] 501 "5.5.2 malformed PLAIN"

/-- Ask for a response and continue with it, unless the exchange ends here. -/
def saslChallenge (conn : Conn) (input : Bytes) (events : List Event) (data : Bytes)
    (next : Bytes → List Event → Bytes → Turn) : Turn :=
  let events := events ++ [reply 334 "%s" [.str data]]
  match readLine input with
  | none => ⟨conn, [], events, .serving⟩
  | some (line, input) =>
      if trimLine line = octets ['*'] then
        .say conn input events 501 "5.7.8 authentication cancelled"
      else
        match go.decodeBase64 (trimLine line) with
        | none => .say conn input events 501 "5.5.2 bad base64"
        | some response => next input events response

def saslInitial (conn : Conn) (input ir : Bytes) (next : Bytes → List Event → Bytes → Turn) :
    Turn :=
  if ir = octets ['='] then next input [] []
  else if ir.isEmpty then saslChallenge go conn input [] [] next
  else
    match go.decodeBase64 ir with
    | none => .say conn input [] 501 "5.5.2 bad base64"
    | some response => next input [] response

def authSCRAM (conn : Conn) (input ir : Bytes) (plus : Bool) : Turn :=
  if !server.scram then .say conn input [] 504 "5.5.4 SCRAM not available"
  else if plus && !conn.tls then
    .say conn input [] 538 "5.7.11 SCRAM-SHA-256-PLUS requires TLS"
  else
    saslInitial go conn input ir fun input events clientFirst =>
      let srv := world.scram clientFirst plus
      match srv.login, srv.serverFirst with
      | some login, some serverFirst =>
          saslChallenge go conn input events serverFirst fun input events clientFinal =>
            match srv.serverFinal clientFinal with
            | none => .say conn input events 535 "5.7.8 authentication failed"
            | some serverFinal =>
                saslChallenge go conn input events serverFinal fun input events _ =>
                  logIn go world conn input events login (world.scopeForLogin login)
      | _, _ => .say conn input events 535 "5.7.8 authentication failed"

def cmdAuth (conn : Conn) (input rest : Bytes) : Turn :=
  if !server.submission then .say conn input [] 503 "5.5.1 AUTH not available"
  else if !authAllowed server conn then
    .say conn input [] 538 "5.7.11 must issue STARTTLS before AUTH"
  else
    let (mech, arg) := splitCmd (go.trimSpace rest)
    let scram := octets ['S', 'C', 'R', 'A', 'M', '-', 'S', 'H', 'A', '-', '2', '5', '6']
    if go.equalFold mech (octets ['P', 'L', 'A', 'I', 'N']) then authPlain go world conn input arg
    else if go.equalFold mech scram then authSCRAM go server world conn input arg false
    else if go.equalFold mech (scram ++ octets ['-', 'P', 'L', 'U', 'S']) then
      authSCRAM go server world conn input arg true
    else .say conn input [] 504 "5.5.4 unsupported SASL mechanism"

/-- The account that the sender's address resolves to in the scope of the login. -/
def resolveSender (conn : Conn) (mailFrom : Bytes) : Option Nat := do
  let scope ← conn.authScope
  let addr ← go.parseAddress mailFrom
  world.accountForAddress scope addr

def senderOwned (conn : Conn) (mailFrom : Bytes) : Bool :=
  resolveSender go world conn mailFrom == some conn.authAccount

/-- When a message may be released: HOLDFOR and HOLDUNTIL of a submission, or why not. -/
def futureRelease (hf : Option Int) (hu : Bytes) : Except String (Option Int) :=
  match hf, hu.isEmpty with
  | some _, false => .error "5.5.4 HOLDFOR and HOLDUNTIL are mutually exclusive"
  | some hf, true =>
      if hf < 0 ∨ maxFutureRelease < wrap64 (hf * 1000000000) then
        .error "5.5.4 HOLDFOR out of range"
      else .ok (some (world.now + wrap64 (hf * 1000000000)))
  | none, false =>
      match go.parseTime hu with
      | none => .error "5.5.4 bad HOLDUNTIL date-time"
      | some t =>
          if world.now + maxFutureRelease < t then .error "5.5.4 HOLDUNTIL out of range"
          else .ok (some t)
  | none, true => .ok none

/-- HOLDFOR and HOLDUNTIL, which only a submission may have. -/
def mailHold (rest : Bytes) : Option (Option Int × Bytes) :=
  if server.submission then do
    let hf ← mailParamInt go rest (octets ['H', 'O', 'L', 'D', 'F', 'O', 'R'])
    let hu ← mailParamStr go rest (octets ['H', 'O', 'L', 'D', 'U', 'N', 'T', 'I', 'L'])
    pure (hf, hu)
  else some (none, [])

/-- The sender is accepted: the transaction takes the parameters of the MAIL. -/
def beginMail (conn : Conn) (input rest addr : Bytes) : Option Turn := do
  let ret ← mailParamStr go rest (octets ['R', 'E', 'T'])
  let envID ← mailParamStr go rest (octets ['E', 'N', 'V', 'I', 'D'])
  let body ← mailParamStr go rest (octets ['B', 'O', 'D', 'Y'])
  let hold ← mailHold go server rest
  pure (match futureRelease go world hold.1 hold.2 with
    | .error format => .say conn.reset input [] 501 format
    | .ok holdUntil =>
        .say { conn.reset with
            mailFrom := addr, haveFrom := true, dsnRet := ret, dsnEnvID := envID
            mailBody8bitmime := go.equalFold body (octets ['8', 'B', 'I', 'T', 'M', 'I', 'M', 'E'])
            mailSMTPUTF8 := mailParamFlag go rest (octets ['S', 'M', 'T', 'P', 'U', 'T', 'F', '8'])
            holdUntil := holdUntil }
          input
          [.mail addr (if server.submission then resolveSender go world conn addr else none)]
          250 "2.1.0 OK")

/-- MAIL; there is nothing on a panic, as for RCPT. -/
def cmdMail (conn : Conn) (input rest : Bytes) : Option Turn := do
  match ← parseAddrParam go rest (octets ['F', 'R', 'O', 'M', ':']) with
  | none => some (.say conn input [] 501 "5.5.4 bad MAIL syntax")
  | some addr =>
      let sz ← mailParamInt go rest (octets ['S', 'I', 'Z', 'E'])
      if sz.any server.tooLarge then
        some (.say conn input [] 552 "5.3.4 message size %d exceeds limit %d"
          [.int (sz.getD 0), .int server.maxSize])
      else if server.submission && !conn.authed then
        some (.say conn.reset input [] 530 "5.7.1 authentication required before MAIL")
      else if server.submission && (addr.isEmpty || !senderOwned go world conn addr) then
        some (.say conn.reset input [] 550
          "5.7.1 sender %q is not an address of the authenticated account" [.str addr])
      else beginMail go server world conn input rest addr

/-- The number of recipients of the transaction, of every kind. -/
def Conn.rcptCount (conn : Conn) : Nat :=
  conn.rcpts.length + conn.subRcpts.length + conn.bounceRcpts.length + conn.reportRcpts.length

def isBounce (addr : Address) : Bool :=
  !server.bounceDomain.isEmpty && server.bounceHandler &&
    go.equalFold addr.domain server.bounceDomain

def isReport (addr : Address) : Bool :=
  !server.reportDomain.isEmpty && server.reportHandler &&
    go.equalFold addr.domain server.reportDomain

/-- A recipient is accepted. -/
def Turn.rcpt (conn : Conn) (input : Bytes) (recipient : Recipient) : Turn :=
  .say conn input [.rcpt recipient] 250 "2.1.5 OK"

/-- A recipient of a submission; any is accepted once the sender is authenticated. -/
def rcptRelay (conn : Conn) (input rest addrStr : Bytes) : Option Turn :=
  if !conn.authed then some (.say conn input [] 530 "5.7.1 authentication required")
  else do
    let notify ← mailParamStr go rest (octets ['N', 'O', 'T', 'I', 'F', 'Y'])
    let orcpt ← mailParamStr go rest (octets ['O', 'R', 'C', 'P', 'T'])
    pure (.rcpt { conn with
      subRcpts := conn.subRcpts ++ [addrStr], subNotify := conn.subNotify ++ [notify]
      subORcpt := conn.subORcpt ++ [orcpt] } input (.relay addrStr))

/-- A recipient of received mail: of the bounce domain, of the report domain, or local. -/
def rcptReceive (conn : Conn) (input addrStr : Bytes) (addr : Address) : Turn :=
  if isBounce go server addr then
    if !conn.rcpts.isEmpty || !conn.reportRcpts.isEmpty then
      .say conn input [] 503 "5.5.1 cannot mix bounce-domain and normal recipients"
    else .rcpt { conn with bounceRcpts := conn.bounceRcpts ++ [addr.localpart] } input
      (.bounce addr.localpart)
  else if isReport go server addr then
    if !conn.rcpts.isEmpty || !conn.bounceRcpts.isEmpty then
      .say conn input [] 503 "5.5.1 cannot mix report-domain and other recipients"
    else .rcpt { conn with reportRcpts := conn.reportRcpts ++ [addr.localpart] } input
      (.report addr.localpart)
  else if !conn.bounceRcpts.isEmpty || !conn.reportRcpts.isEmpty then
    .say conn input [] 503 "5.5.1 cannot mix normal and bounce/report-domain recipients"
  else
    match world.resolveInbound addr with
    | none => .say conn input [] 550 "5.1.1 no such recipient"
    | some accountId => .rcpt { conn with
        rcpts := conn.rcpts ++ [accountId], rcptAddrs := conn.rcptAddrs ++ [addrStr] } input
        (.local_ accountId)

def cmdRcpt (conn : Conn) (input rest : Bytes) : Option Turn :=
  if !conn.haveFrom then some (.say conn input [] 503 "5.5.1 need MAIL first")
  else do
    match ← parseAddrParam go rest (octets ['T', 'O', ':']) with
    | none => some (.say conn input [] 501 "5.5.4 bad RCPT syntax")
    | some addrStr =>
        match go.parseAddress addrStr with
        | none => some (.say conn input [] 501 "5.1.3 bad address")
        | some addr =>
            if server.rcptLimit ≤ conn.rcptCount then
              some (.say conn input [] 452 "4.5.3 too many recipients (RCPTMAX=%d)"
                [.int server.rcptLimit])
            else if server.submission then rcptRelay go conn input rest addrStr
            else some (rcptReceive go server world conn input addrStr addr)

/-- DATA may follow: there is a sender and a recipient of the listener's kind. -/
def dataAllowed (conn : Conn) : Bool :=
  conn.haveFrom && (if server.submission then !conn.subRcpts.isEmpty
    else !conn.rcpts.isEmpty || !conn.bounceRcpts.isEmpty || !conn.reportRcpts.isEmpty)

/-- How many octets are read of content: one more than the limit, in 64-bit arithmetic. Where
there is no limit, as many as there can be. -/
def readLimit (input : Bytes) : Nat :=
  if 0 < server.maxSize then (wrap64 (server.maxSize + 1)).toNat else input.length + 1

/-- The input after a bounded remainder of the content is drained. -/
def drained (want : Nat) (rest : Bytes) : ReadEnd → Bytes
  | .limit reader =>
      let (_, rest, ended) := DataReader.read want reader rest
      ended.leave rest
  | _ => rest

def cmdData (conn : Conn) (input : Bytes) : Turn :=
  if !dataAllowed server conn then .say conn input [] 503 "5.5.1 need MAIL and RCPT first"
  else
    let events := [reply 354 "start mail input; end with <CRLF>.<CRLF>"]
    let want := readLimit server input
    match DataReader.read want {} input with
    | (_, rest, .error) => .say conn rest events 451 "4.3.0 error reading data"
    | (data, rest, ended) =>
        if server.tooLarge data.length then
          .say conn.reset (drained want rest ended) events 552
            "5.3.4 message exceeds size limit %d" [.int server.maxSize]
        else (processData go server world conn data).turn events (ended.leave rest)

/-- BDAT may follow: there is a sender and a recipient of any kind. -/
def bdatAllowed (conn : Conn) : Bool :=
  conn.haveFrom && decide (0 < conn.rcptCount)

/-- A chunk of good size. It is refused before it is read. -/
def takeChunk (conn : Conn) (input : Bytes) (n : Nat) (last : Bool) : Turn :=
  if !bdatAllowed conn then .say conn input [] 503 "5.5.1 need MAIL and RCPT first"
  else if server.tooLarge (conn.bdatBuf.length + n) then
    .say conn.reset input [] 552 "5.3.4 message too large"
  else if go.maxAlloc < n then ⟨conn, input, [], .panicked⟩
  else if input.length < n then .say conn [] [] 451 "4.3.0 error reading chunk"
  else
    let conn := conn.buffered true (conn.bdatBuf ++ input.take n)
    if !last then .say conn (input.drop n) [] 250 "2.0.0 %d octets received" [.int n]
    else (processData go server world conn conn.bdatBuf).turn [] (input.drop n)

/-- The second field of BDAT's argument marks the last chunk. -/
def isLast (fields : List Bytes) : Bool :=
  fields[1]?.any (fun word => go.equalFold word (octets ['L', 'A', 'S', 'T']))

def cmdBDAT (conn : Conn) (input rest : Bytes) : Turn :=
  match (go.fields rest)[0]? with
  | none => .say conn input [] 501 "5.5.4 BDAT needs a size"
  | some size =>
      match (atoi size).filter (fun n => decide (0 ≤ n)) with
      | none => .say conn input [] 501 "5.5.4 bad BDAT size"
      | some n => takeChunk go server world conn input n.toNat (isLast go (go.fields rest))

def cmdBURL (conn : Conn) (input rest : Bytes) : Turn :=
  if !server.submission || !server.burlResolver then
    .say conn input [] 503 "5.5.1 BURL not available"
  else if !conn.authed then .say conn input [] 503 "5.7.0 authentication required"
  else if !conn.haveFrom || conn.subRcpts.isEmpty then
    .say conn input [] 503 "5.5.1 need MAIL and RCPT first"
  else
    match go.fields rest with
    | url :: word :: more =>
        if !go.equalFold ((word :: more).getLast (by simp)) (octets ['L', 'A', 'S', 'T']) then
          .say conn input [] 501 "5.5.4 BURL requires <url> LAST"
        else
          match world.burl conn.authAccount url with
          | none => .say conn input [] 554 "5.7.0 BURL URL resolution failed"
          | some data =>
              if server.tooLarge data.length then
                .say conn.reset input [] 552 "5.3.4 message too large"
              else (processData go server world conn data).turn [] input
    | _ => .say conn input [] 501 "5.5.4 BURL requires <url> LAST"

/-! ### The loop -/

inductive Verb where
  | ehlo | helo | starttls | auth | mail | rcpt | data | bdat | burl | rset | noop | vrfy | expn
  | help | quit
deriving DecidableEq, Repr

def verbs : List (Bytes × Verb) :=
  [(octets ['E', 'H', 'L', 'O'], .ehlo), (octets ['H', 'E', 'L', 'O'], .helo),
    (octets ['S', 'T', 'A', 'R', 'T', 'T', 'L', 'S'], .starttls),
    (octets ['A', 'U', 'T', 'H'], .auth), (octets ['M', 'A', 'I', 'L'], .mail),
    (octets ['R', 'C', 'P', 'T'], .rcpt), (octets ['D', 'A', 'T', 'A'], .data),
    (octets ['B', 'D', 'A', 'T'], .bdat), (octets ['B', 'U', 'R', 'L'], .burl),
    (octets ['R', 'S', 'E', 'T'], .rset), (octets ['N', 'O', 'O', 'P'], .noop),
    (octets ['V', 'R', 'F', 'Y'], .vrfy), (octets ['E', 'X', 'P', 'N'], .expn),
    (octets ['H', 'E', 'L', 'P'], .help), (octets ['Q', 'U', 'I', 'T'], .quit)]

/-- The command of a line, its argument, and the input after the line. -/
def command (input : Bytes) : Option (Option Verb × Bytes × Bytes) :=
  (readLine input).map (fun (line, rest) =>
    let (cmd, arg) := splitCmd (trimLine line)
    ((verbs.find? (fun entry => entry.1 == go.toUpper cmd)).map Prod.snd, arg, rest))

/-- A panic outside message processing. -/
def orPanic (conn : Conn) (input : Bytes) (turn : Option Turn) : Turn :=
  turn.getD ⟨conn, input, [], .panicked⟩

/-- One round of `serve`. -/
def serve (conn : Conn) (input : Bytes) : Turn :=
  match command go input with
  | none => ⟨conn, [], [], .closed⟩
  | some (verb, arg, rest) =>
      match verb with
      | some .ehlo => cmdEhlo go server world conn rest arg
      | some .helo => .say { conn with helo := go.trimSpace arg } rest [] 250 "%s"
          [.str server.hostname]
      | some .starttls => cmdStartTLS server world conn rest
      | some .auth => cmdAuth go server world conn rest arg
      | some .mail => orPanic conn rest (cmdMail go server world conn rest arg)
      | some .rcpt => orPanic conn rest (cmdRcpt go server world conn rest arg)
      | some .data => cmdData go server world conn rest
      | some .bdat => cmdBDAT go server world conn rest arg
      | some .burl => cmdBURL go server world conn rest arg
      | some .rset => .say conn.reset rest [] 250 "2.0.0 OK"
      | some .noop => .say conn rest [] 250 "2.0.0 OK"
      | some .vrfy => .say conn rest [] 252 "2.5.2 cannot VRFY user, but will accept message"
      | some .expn => .say conn rest [] 502 "5.5.1 EXPN not supported"
      | some .help => .say conn rest [] 214 "2.0.0 octo-mail ESMTP; see RFC 5321"
      | some .quit => ⟨conn, rest, [reply 221 "2.0.0 %s closing" [.str server.hostname]], .closed⟩
      | none => .say conn rest [] 500 "5.5.1 command not recognized"

end Commands

/-- A connection with all that happened on it. -/
structure Session where
  conn : Conn := {}
  input : Bytes
  status : Status := .serving
  trace : List Event := []
deriving DecidableEq, Repr

/-- A connection is accepted: the client sends a stream. -/
def accepted (server : Server) (stream : Bytes) : Session :=
  { input := stream, trace := [reply 220 "%s ESMTP octo-mail" [.str server.hostname]] }

def Session.after (session : Session) (turn : Turn) : Session :=
  ⟨turn.conn, turn.input, turn.status, session.trace ++ turn.events⟩

@[simp] theorem Session.after_trace (session : Session) (turn : Turn) :
    (session.after turn).trace = session.trace ++ turn.events := rfl

/-- The connection is served one command on. -/
def step (go : Go) (server : Server) (session : Session) (world : World) : Option Session :=
  if session.status = .serving then
    some (session.after (serve go server world session.conn session.input))
  else none

/-! ### A plain setting -/

namespace Ascii

def toUpper (text : Bytes) : Bytes := text.map (fun c => if 97 ≤ c ∧ c ≤ 122 then c - 32 else c)

def isSpace (c : UInt8) : Bool := c == 32 || (decide (9 ≤ c) && decide (c ≤ 13))

def sextet (c : UInt8) : Option UInt8 :=
  if 65 ≤ c ∧ c ≤ 90 then some (c - 65)
  else if 97 ≤ c ∧ c ≤ 122 then some (c - 71)
  else if 48 ≤ c ∧ c ≤ 57 then some (c + 4)
  else if c = 43 then some 62
  else if c = 47 then some 63
  else none

def decodeBase64 : Bytes → Option Bytes
  | [] => some []
  | [a, b, 61, 61] => do
      let a ← sextet a
      let b ← sextet b
      pure [a * 4 + b / 16]
  | [a, b, c, 61] => do
      let a ← sextet a
      let b ← sextet b
      let c ← sextet c
      pure [a * 4 + b / 16, b * 16 + c / 4]
  | a :: b :: c :: d :: rest => do
      let a ← sextet a
      let b ← sextet b
      let c ← sextet c
      let d ← sextet d
      let more ← decodeBase64 rest
      pure ([a * 4 + b / 16, b * 16 + c / 4, c * 64 + d] ++ more)
  | _ => none

def parseAddress (text : Bytes) : Option Address :=
  let localpart := text.takeWhile (· != 64)
  let domain := (text.dropWhile (· != 64)).drop 1
  if localpart.isEmpty || domain.isEmpty then none else some ⟨localpart, domain⟩

end Ascii

/-- Go's functions on ASCII text, with plain addresses and no dates. -/
def ascii : Go where
  toUpper := Ascii.toUpper
  equalFold first second := Ascii.toUpper first == Ascii.toUpper second
  trimSpace text := ((text.dropWhile Ascii.isSpace).reverse.dropWhile Ascii.isSpace).reverse
  fields text := (text.splitOnP Ascii.isSpace).filter (fun word => !word.isEmpty)
  decodeBase64 := Ascii.decodeBase64
  parseAddress := Ascii.parseAddress
  parseTime _ := none
  maxAlloc := 2 ^ 48
  upper_length keyword text _ starts := by
    simpa [Ascii.toUpper] using (List.isPrefixOf_iff_prefix.mp starts).length_le
  upper_keyword keyword upper := by
    refine (List.map_congr_left fun c found => ?_).trans (List.map_id keyword)
    have small := upper c found
    simp [UInt8.not_le.mpr small]

/-- Every local part is an account, named by its first octet, every message is let in, and
every call succeeds. -/
def obliging : World where
  resolveInbound address := some (address.localpart.headD 0).toNat
  authenticatePrincipal _ _ := some 1
  accountForAddress _ address := some (address.localpart.headD 0).toNat
  scram _ _ := ⟨none, none, fun _ => none⟩
  scopeForLogin _ := none
  handshake := none
  burl _ _ := none
  submits := true
  authenticate _ _ := none
  decide _ := ⟨.accept, [], "", []⟩
  classify _ := false
  deliver _ := .delivered

/-- A line as a client sends it. -/
def sent (text : List Char) : Bytes := octets text ++ [13, 10]

end OctoMail.Smtp
