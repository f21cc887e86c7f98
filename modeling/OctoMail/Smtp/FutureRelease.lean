import OctoMail.Smtp.Server

/-!
# Requested holds

HOLDFOR and HOLDUNTIL of a MAIL on a submission connection. The number of HOLDFOR is multiplied in
64 bits before its range is checked, and a value that is no number, or an empty one, counts as no
parameter. Of several parameters with one key only the first is read, and it is looked for in the
path as well. Such a MAIL is accepted, and what it asked for is not what it gets.
-/

namespace OctoMail.Smtp.FutureRelease

def holdForKey : Bytes := octets ['H', 'O', 'L', 'D', 'F', 'O', 'R']

def holdUntilKey : Bytes := octets ['H', 'O', 'L', 'D', 'U', 'N', 'T', 'I', 'L']

/-- What follows the path of a MAIL: the `>` that ends it stands outside quoted strings, in which a
backslash takes the next octet with it. -/
def behindPath : Bool → Bytes → Bytes
  | _, [] => []
  | true, 92 :: _ :: rest => behindPath true rest
  | quoted, c :: rest =>
      if c = 34 then behindPath (!quoted) rest
      else if c = 62 ∧ quoted = false then rest
      else behindPath quoted rest

/-- The values of all parameters with a key, in either case: the parameters stand behind the path,
each one after a blank. -/
def given (rest key : Bytes) : List Bytes :=
  (((behindPath false rest).splitOn 32).tail.filter (fun parameter =>
    Ascii.toUpper (parameter.take (key.length + 1)) == key ++ [61])).map (·.drop (key.length + 1))

/-- The value that the code takes: that of the first word of the command with a key, wherever it
stands. -/
def found (go : Go) (rest key : Bytes) : Option Bytes :=
  ((go.fields rest).find? (fun tok => (go.toUpper key ++ [61]).isPrefixOf (go.toUpper tok))).map
    (fun tok => tok.drop (go.toUpper key ++ [61]).length)

def Answered (turn : Turn) (code : Nat) : Prop :=
  ∃ format args, reply code format args ∈ turn.events

/-- The release time is what every one of the parameters asks for. -/
structure Honoured (go : Go) (now : Int) (rest : Bytes) (release : Option Int) : Prop where
  holdFor : ∀ value ∈ given rest holdForKey,
    ∃ n, atoi value = some n ∧ 0 ≤ n ∧ n * 1000000000 ≤ maxFutureRelease ∧
      release = some (now + n * 1000000000)
  holdUntil : ∀ value ∈ given rest holdUntilKey,
    ∃ t, go.parseTime value = some t ∧ t ≤ now + maxFutureRelease ∧ release = some t

/-- Every parameter has a value that can be read, and it says what the value found first says. A
number of seconds has to be within 64 bits as nanoseconds. -/
structure Agreed (go : Go) (rest : Bytes) : Prop where
  holdFor : ∀ value ∈ given rest holdForKey,
    ∃ n, atoi value = some n ∧ n * 1000000000 < 2 ^ 63 ∧
      (found go rest holdForKey).bind atoi = some n
  holdUntil : ∀ value ∈ given rest holdUntilKey,
    ∃ t, go.parseTime value = some t ∧ (found go rest holdUntilKey).bind go.parseTime = some t

/-- Where there are parameters with a key, the value found first is that of one of them. -/
def FoundAmong (go : Go) (rest key : Bytes) : Prop :=
  given rest key ≠ [] → ∃ first ∈ given rest key, found go rest key = some first

section Hold

variable {go : Go} {server : Server} {world : World}

variable {rest : Bytes} {release : Option Int}

theorem mailParamStr_eq {key value : Bytes} (read : mailParamStr go rest key = some value) :
    value = (found go rest key).getD [] := by
  unfold mailParamStr at read
  unfold found
  dsimp only at read
  cases here : (go.fields rest).find? (fun tok =>
      (go.toUpper key ++ [61]).isPrefixOf (go.toUpper tok)) with
  | none =>
    rw [here] at read
    exact (Option.some.inj read).symm
  | some tok =>
    rw [here] at read
    exact (Option.some.inj (Option.ite_none_right_eq_some.mp read).2).symm

theorem mailParamInt_eq {key : Bytes} {n : Option Int}
    (read : mailParamInt go rest key = some n) : n = atoi ((found go rest key).getD []) := by
  obtain ⟨value, here, rfl⟩ := Option.map_eq_some_iff.mp read
  rw [← mailParamStr_eq here]
  cases value with
  | nil | cons c value => rfl

/-- The release time of an accepted MAIL is what `futureRelease` makes of the parameters. -/
theorem cmdMail_release {conn : Conn} {input : Bytes} {turn : Turn}
    (submission : server.submission = true)
    (ran : cmdMail go server world conn input rest = some turn) (accepted : Answered turn 250) :
    futureRelease go world (atoi ((found go rest holdForKey).getD []))
      ((found go rest holdUntilKey).getD []) = .ok turn.conn.holdUntil := by
  obtain ⟨format, args, said⟩ := accepted
  unfold cmdMail at ran
  obtain ⟨parsed, -, ran⟩ := Option.bind_eq_some_iff.mp ran
  cases parsed with
  | none =>
    cases ran
    simp [Turn.say, reply] at said
  | some addr =>
    obtain ⟨sz, -, ran⟩ := Option.bind_eq_some_iff.mp ran
    split at ran
    · cases ran
      simp [Turn.say, reply] at said
    split at ran
    · cases ran
      simp [Turn.say, reply] at said
    split at ran
    · cases ran
      simp [Turn.say, reply] at said
    unfold beginMail mailHold at ran
    simp only [submission, if_true, Option.bind_eq_bind, Option.bind_eq_some_iff, Option.pure_def,
      Option.some.injEq] at ran
    obtain ⟨ret, -, envID, -, body, -, hold, ⟨hf, number, hu, text, rfl⟩, rfl⟩ := ran
    have number := mailParamInt_eq number
    have text := mailParamStr_eq text
    rw [show octets ['H', 'O', 'L', 'D', 'F', 'O', 'R'] = holdForKey from rfl] at number
    rw [show octets ['H', 'O', 'L', 'D', 'U', 'N', 'T', 'I', 'L'] = holdUntilKey from rfl] at text
    rw [← number, ← text]
    cases released : futureRelease go world hf hu with
    | error message =>
      rw [released] at said
      simp [Turn.say, reply] at said
    | ok holdUntil => rfl

theorem wrap64_small {n : Int} (natural : 0 ≤ n) (small : n < 2 ^ 63) : wrap64 n = n := by
  rw [wrap64, Int.bmod_eq_of_le] <;> omega

theorem futureRelease_for {n : Int} {hu : Bytes}
    (small : n * 1000000000 < 2 ^ 63) (ok : futureRelease go world (some n) hu = .ok release) :
    0 ≤ n ∧ n * 1000000000 ≤ maxFutureRelease ∧ release = some (world.now + n * 1000000000) := by
  unfold futureRelease at ok
  cases filled : hu.isEmpty with
  | false =>
    rw [filled] at ok
    cases ok
  | true =>
    rw [filled] at ok
    dsimp only at ok
    split at ok
    · cases ok
    rename_i inRange
    obtain ⟨natural, inRange⟩ := not_or.mp inRange
    rw [wrap64_small (by omega) small] at inRange ok
    exact ⟨not_lt.mp natural, not_lt.mp inRange, (Except.ok.inj ok).symm⟩

theorem futureRelease_until {hf : Option Int} {hu : Bytes} (some_ : hu ≠ [])
    (ok : futureRelease go world hf hu = .ok release) :
    ∃ t, go.parseTime hu = some t ∧ t ≤ world.now + maxFutureRelease ∧ release = some t := by
  have filled : hu.isEmpty = false := by
    cases hu with
    | nil => exact absurd rfl some_
    | cons c hu => rfl
  unfold futureRelease at ok
  rw [filled] at ok
  cases hf with
  | some n => cases ok
  | none =>
    dsimp only at ok
    cases parsed : go.parseTime hu with
    | none =>
      rw [parsed] at ok
      cases ok
    | some t =>
      rw [parsed] at ok
      dsimp only at ok
      split at ok
      · cases ok
      · rename_i inRange
        exact ⟨t, rfl, not_lt.mp inRange, (Except.ok.inj ok).symm⟩

theorem honoured_of_agreed (noTime : go.parseTime [] = none) (agreed : Agreed go rest)
    (released : futureRelease go world (atoi ((found go rest holdForKey).getD []))
      ((found go rest holdUntilKey).getD []) = .ok release) :
    Honoured go world.now rest release := by
  constructor
  · intro value asked
    obtain ⟨n, number, small, first⟩ := agreed.holdFor value asked
    obtain ⟨text, here, first⟩ := Option.bind_eq_some_iff.mp first
    rw [here, Option.getD_some, first] at released
    exact ⟨n, number, futureRelease_for small released⟩
  · intro value asked
    obtain ⟨t, parsed, first⟩ := agreed.holdUntil value asked
    obtain ⟨text, here, first⟩ := Option.bind_eq_some_iff.mp first
    rw [here, Option.getD_some] at released
    have filled : text ≠ [] := by
      rintro rfl
      rw [noTime] at first
      cases first
    obtain ⟨t', first', inRange⟩ := futureRelease_until filled released
    cases first.symm.trans first'
    exact ⟨t, parsed, inRange⟩

theorem agreed_of_honoured {now : Int}
    (ownFor : FoundAmong go rest holdForKey) (ownUntil : FoundAmong go rest holdUntilKey)
    (honoured : Honoured go now rest release) : Agreed go rest := by
  constructor
  · intro value asked
    obtain ⟨first, among, here⟩ := ownFor (List.ne_nil_of_mem asked)
    obtain ⟨n, number, _, inRange, at_⟩ := honoured.holdFor value asked
    obtain ⟨m, first, _, _, at_'⟩ := honoured.holdFor first among
    have same : m = n := by
      have := Option.some.inj (at_'.symm.trans at_)
      omega
    refine ⟨n, number, lt_of_le_of_lt inRange (by decide), ?_⟩
    rw [here, Option.bind_some, first, same]
  · intro value asked
    obtain ⟨first, among, here⟩ := ownUntil (List.ne_nil_of_mem asked)
    obtain ⟨t, parsed, _, at_⟩ := honoured.holdUntil value asked
    obtain ⟨t', first, _, at_'⟩ := honoured.holdUntil first among
    refine ⟨t, parsed, ?_⟩
    rw [here, Option.bind_some, first, ← at_', at_]

end Hold

/-- A connection that may send for the account of `a`. -/
def sampleConn : Conn := { authed := true, authAccount := 97, authScope := some 1 }

def sampleMail (command : List Char) : Option Turn :=
  cmdMail ascii { submission := true } { obliging with accountForAddress := fun _ _ => some 97 }
    sampleConn [] (octets command)

def holdOfAnHour : List Char := "FROM:<a@x> BODY=8BITMIME HoldFor=3600 HOLDFOR=03600".toList

end OctoMail.Smtp.FutureRelease
