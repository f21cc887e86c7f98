import OctoMail.Imap.Input
import OctoMail.Transition
import Mathlib.Logic.Relation

/-!
# Authorized IMAP URLs

GENURLAUTH signs a URL under the key of the mailbox it addresses, URLFETCH and BURL return what a
signed URL addresses, and RESETKEY replaces keys (`protocol/imapd/urlauth.go`). A URL that resolves
was signed under the key that is current, and no URL resolves after its key was replaced. What a URL
says of its own limits is not read: it resolves after its EXPIRE, for anyone, and under another
UIDVALIDITY.

Keys are random and are numbered as they are made. A tag is a symbol: none is the tag of two texts
or of two keys.
-/

namespace OctoMail.Imap.UrlAuth

open Wire Input
open Transition (always run run_cons)

/-! ### The server's functions on text -/

structure Text where
  library : Library
  toLower : Bytes → Bytes
  toUpper : Bytes → Bytes

/-- `hmac` under a numbered key, and a token as the comparison reads it. -/
structure Mac (τ : Type) where
  tag : Nat → Bytes → τ
  read : Bytes → τ
  distinct : ∀ {key other : Nat} {rump text : Bytes}, tag key rump = tag other text →
    key = other ∧ rump = text

def index (sought text : Bytes) : Option Nat :=
  (List.range (text.length + 1)).find? (fun i => sought.isPrefixOf (text.drop i))

def lastIndex (sought text : Bytes) : Option Nat :=
  (List.range (text.length + 1)).reverse.find? (fun i => sought.isPrefixOf (text.drop i))

section Server

variable (text : Text)

/-- `s[:i]` where `i` was found in the text in capitals; slicing past the end is a panic. -/
def cutBefore (sought : String) (rump : Bytes) : Option Bytes :=
  match index (ascii sought) (text.toUpper rump) with
  | none => some rump
  | some i => if i ≤ rump.length then some (rump.take i) else none

def stripURLAuth (rump : Bytes) : Option Bytes := do
  let rump ← cutBefore text ";URLAUTH=" rump
  cutBefore text ";EXPIRE=" rump

/-- The URL without its token, and the token. -/
def splitToken (authurl : Bytes) : Option (Bytes × Bytes) := do
  let i ← lastIndex (ascii ":internal:") (text.toLower authurl)
  if i + 10 ≤ authurl.length then some (authurl.take i, authurl.drop (i + 10)) else none

/-! ### Keys -/

/-- A URL was signed, under a key of a mailbox. -/
structure Issue where
  mailboxID : Nat
  key : Nat
  rump : Bytes
deriving DecidableEq, Repr

structure Keys where
  current : Nat → Option Nat := fun _ => none
  fresh : Nat := 0
  issued : List Issue := []

def Keys.urlAuthResetKey (keys : Keys) (mailboxID : Nat) : Nat × Keys :=
  (keys.fresh, { keys with
    current := fun other => if other = mailboxID then some keys.fresh else keys.current other
    fresh := keys.fresh + 1 })

/-- A key is made when it is first needed. -/
def Keys.urlAuthKey (keys : Keys) (mailboxID : Nat) : Nat × Keys :=
  match keys.current mailboxID with
  | some key => (key, keys)
  | none => keys.urlAuthResetKey mailboxID

def Keys.urlAuthResetAll (keys : Keys) : Keys := { keys with current := fun _ => none }

/-- The account at a moment. -/
structure World where
  mailboxFind : Bytes → Option Nat
  uidValidity : Bytes → Option Nat
  /-- The message of a mailbox with a UID. -/
  lookup : Bytes → Nat → Option Bytes

/-- What a token is the tag of. -/
def urlauthToken (keys : Keys) (world : World) (rump : Bytes) : Option Issue × Keys :=
  match (stripURLAuth text rump).bind (fun path => (parseIMAPURLPath path).toOption) with
  | none => (none, keys)
  | some (mbName, _, _) =>
      match world.mailboxFind mbName with
      | none => (none, keys)
      | some mailboxID =>
          (some ⟨mailboxID, (keys.urlAuthKey mailboxID).1, rump⟩, (keys.urlAuthKey mailboxID).2)

/-- The pairs of a GENURLAUTH, each a URL and a mechanism; the first that fails ends it. -/
def signAll (world : World) : Keys → List (Bytes × Bytes) → Option (List Issue) × Keys
  | keys, [] => (some [], keys)
  | keys, (rump, mech) :: pairs =>
      if Input.toUpper mech ≠ ascii "INTERNAL" then (none, keys)
      else
        match urlauthToken text keys world rump with
        | (none, keys) => (none, keys)
        | (some issue, keys) =>
            ((signAll world keys pairs).1.map (issue :: ·), (signAll world keys pairs).2)

/-- The tokens are sent when all have been made. -/
def cmdGenURLAuth (keys : Keys) (world : World) (pairs : List (Bytes × Bytes)) : Keys :=
  match signAll text world keys pairs with
  | (none, keys) => keys
  | (some issues, keys) => { keys with issued := keys.issued ++ issues }

def cmdResetKey (keys : Keys) (world : World) (mailbox : Bytes) : Keys :=
  match world.mailboxFind (normalizeMailbox (unquote mailbox)) with
  | none => keys
  | some mailboxID => (keys.urlAuthResetKey mailboxID).2

variable {τ : Type} [DecidableEq τ] (mac : Mac τ)

def resolveURLAuth (keys : Keys) (world : World) (authurl : Bytes) : Option Bytes × Keys :=
  match splitToken text authurl with
  | none => (none, keys)
  | some (rump, token) =>
      match urlauthToken text keys world rump with
      | (none, keys) => (none, keys)
      | (some issue, keys) =>
          if mac.read token ≠ mac.tag issue.key issue.rump then (none, keys)
          else
            ((stripURLAuth text rump).bind fun path =>
              (parseIMAPURLPath path).toOption.bind fun named =>
                (world.lookup named.1 named.2.1).bind fun full =>
                  (sectionBytes text.library full named.2.2).toOption, keys)

inductive Label where
  | genURLAuth (world : World) (pairs : List (Bytes × Bytes))
  | resetKey (world : World) (mailbox : Bytes)
  | resetAll
  | resolve (world : World) (authurl : Bytes)

def step (keys : Keys) : Label → Option Keys
  | .genURLAuth world pairs => some (cmdGenURLAuth text keys world pairs)
  | .resetKey world mailbox => some (cmdResetKey keys world mailbox)
  | .resetAll => some keys.urlAuthResetAll
  | .resolve world authurl => some (resolveURLAuth text mac keys world authurl).2

/-! ### What a URL grants -/

def asciiUpper (o : UInt8) : UInt8 := if 97 ≤ o ∧ o ≤ 122 then o - 32 else o

/-- What follows the first `;NAME=` of a URL, up to the next separator. -/
def component (name : String) (rump : Bytes) : Option Bytes :=
  (index (ascii name) (rump.map asciiUpper)).map (fun i =>
    (rump.drop (i + name.length)).takeWhile (fun o => o != semicolon && o != slash))

/-- The part of a URL that addresses a message. -/
def address (rump : Bytes) : Bytes :=
  let rump := ((index (ascii ";URLAUTH=") (rump.map asciiUpper)).map rump.take).getD rump
  ((index (ascii ";EXPIRE=") (rump.map asciiUpper)).map rump.take).getD rump

/-- Who presents a URL: a user, or a submission server for one. -/
structure Caller where
  user : Option Bytes
  submit : Bool

def admits (access : Bytes) (caller : Caller) : Bool :=
  access == ascii "anonymous" || (access == ascii "authuser" && caller.user.isSome) ||
    (caller.user.elim false fun user => access == ascii "user+" ++ user ||
      (caller.submit && access == ascii "submit+" ++ user))

/-- The limits that a URL sets itself: its date, its access identifier and its UIDVALIDITY. -/
structure Within (dates : Bytes → Option Nat) (world : World) (caller : Caller) (now : Nat)
    (rump mbName : Bytes) : Prop where
  unexpired : ∀ date moment, component ";EXPIRE=" rump = some date → dates date = some moment →
    now ≤ moment
  admitted : ∃ access, component ";URLAUTH=" rump = some access ∧ admits access caller = true
  current : ∀ value, component ";UIDVALIDITY=" rump = some value →
    world.uidValidity mbName = Smtp.digits value

/-- What is returned was granted: by a signature under the current key, within the limits of the
URL, and it is the section that the URL names. -/
def Granted (dates : Bytes → Option Nat) (keys : Keys) (world : World) (caller : Caller) (now : Nat)
    (authurl data : Bytes) : Prop :=
  ∃ rump token mbName uid section_ full mailboxID key,
    splitToken text authurl = some (rump, token) ∧ mac.read token = mac.tag key rump ∧
    ⟨mailboxID, key, rump⟩ ∈ keys.issued ∧ keys.current mailboxID = some key ∧
    parseIMAPURLPath (address rump) = .ok (mbName, uid, section_) ∧
    world.mailboxFind mbName = some mailboxID ∧ Within dates world caller now rump mbName ∧
    world.lookup mbName uid = some full ∧ sectionBytes text.library full section_ = .ok data

/-- Tags are not forged: a token that is a tag of its URL was issued for it. -/
def Unforged (keys : Keys) (authurl : Bytes) : Prop :=
  ∀ rump token key, splitToken text authurl = some (rump, token) →
    mac.read token = mac.tag key rump →
    ∃ mailboxID, ⟨mailboxID, key, rump⟩ ∈ keys.issued

/-! ### What the commands do to the keys -/

/-- A key is replaced, all keys are dropped, or signatures under current keys are sent. -/
inductive Move : Keys → Keys → Prop where
  | reset (keys : Keys) (mailboxID : Nat) : Move keys (keys.urlAuthResetKey mailboxID).2
  | drop (keys : Keys) : Move keys keys.urlAuthResetAll
  | send (keys : Keys) (issues : List Issue)
      (valid : ∀ issue ∈ issues, keys.current issue.mailboxID = some issue.key) :
      Move keys { keys with issued := keys.issued ++ issues }

abbrev Moves := Relation.ReflTransGen Move

/-- Keys are made, and those that are there stay. -/
structure Keeps (keys next : Keys) : Prop where
  moves : Moves keys next
  stays : ∀ mailboxID key, keys.current mailboxID = some key → next.current mailboxID = some key

variable {keys next : Keys} {key : Nat}

theorem Keeps.trans {middle : Keys} (first : Keeps keys middle) (second : Keeps middle next) :
    Keeps keys next :=
  ⟨first.moves.trans second.moves,
    fun mailboxID key made => second.stays mailboxID key (first.stays mailboxID key made)⟩

theorem urlAuthKey_keeps (keys : Keys) (mailboxID : Nat) :
    Keeps keys (keys.urlAuthKey mailboxID).2 ∧
      (keys.urlAuthKey mailboxID).2.current mailboxID = some (keys.urlAuthKey mailboxID).1 := by
  rw [Keys.urlAuthKey]
  split
  · rename_i key made
    exact ⟨⟨.refl, fun _ _ made => made⟩, made⟩
  rename_i missing
  refine ⟨⟨.single (.reset keys mailboxID), fun other key made => ?_⟩, if_pos rfl⟩
  have apart : other ≠ mailboxID := by
    rintro rfl
    rw [missing] at made
    cases made
  exact (if_neg apart).trans made

theorem urlauthToken_keeps (keys : Keys) (world : World) (rump : Bytes) :
    Keeps keys (urlauthToken text keys world rump).2 ∧
      ∀ issue, (urlauthToken text keys world rump).1 = some issue → issue.rump = rump ∧
        (urlauthToken text keys world rump).2.current issue.mailboxID = some issue.key := by
  have same : Keeps keys keys := ⟨.refl, fun _ _ made => made⟩
  rw [urlauthToken]
  split
  · exact ⟨same, fun _ none => by cases none⟩
  split
  · exact ⟨same, fun _ none => by cases none⟩
  · rename_i mailboxID _
    obtain ⟨keeps, current⟩ := urlAuthKey_keeps keys mailboxID
    refine ⟨keeps, fun issue made => ?_⟩
    cases made
    exact ⟨rfl, current⟩

theorem signAll_keeps (world : World) (keys : Keys) (pairs : List (Bytes × Bytes)) :
    Keeps keys (signAll text world keys pairs).2 ∧
      ∀ issues, (signAll text world keys pairs).1 = some issues → ∀ issue ∈ issues,
        (signAll text world keys pairs).2.current issue.mailboxID = some issue.key := by
  induction pairs generalizing keys with
  | nil =>
    refine ⟨⟨.refl, fun _ _ made => made⟩, fun issues made issue member => ?_⟩
    cases made
    exact absurd member List.not_mem_nil
  | cons pair pairs ih =>
    obtain ⟨rump, mech⟩ := pair
    rw [signAll]
    split
    · exact ⟨⟨.refl, fun _ _ made => made⟩, fun _ none => by cases none⟩
    have token := urlauthToken_keeps text keys world rump
    revert token
    rcases urlauthToken text keys world rump with ⟨_ | issue, middle⟩
    · exact fun token => ⟨token.1, fun _ none => by cases none⟩
    · intro token
      obtain ⟨keeps, others⟩ := ih middle
      refine ⟨token.1.trans keeps, fun issues all i member => ?_⟩
      obtain ⟨rest, made, rfl⟩ := Option.map_eq_some_iff.mp all
      rcases List.mem_cons.mp member with rfl | member
      · exact keeps.stays _ _ (token.2 _ rfl).2
      · exact others rest made i member

theorem step_moves {label : Label} (moved : step text mac keys label = some next) :
    Moves keys next := by
  cases label with
  | genURLAuth world pairs =>
    cases moved
    have signed := signAll_keeps text world keys pairs
    rw [cmdGenURLAuth]
    revert signed
    rcases signAll text world keys pairs with ⟨_ | issues, middle⟩
    · exact fun signed => signed.1.moves
    · exact fun signed => signed.1.moves.tail (.send middle issues (signed.2 issues rfl))
  | resetKey =>
    cases moved
    rw [cmdResetKey]
    split
    · exact .refl
    · exact .single (.reset _ _)
  | resetAll =>
    cases moved
    exact .single (.drop keys)
  | resolve world authurl =>
    cases moved
    rw [resolveURLAuth]
    split
    · exact .refl
    rename_i rump token _
    have made := (urlauthToken_keeps text keys world rump).1.moves
    revert made
    rcases urlauthToken text keys world rump with ⟨_ | issue, middle⟩
    · exact id
    · intro made
      dsimp only
      split <;> exact made

/-! ### What holds of the keys -/

/-- Keys are numbered in the order in which they are made, and belong to one mailbox each. -/
structure Sound (keys : Keys) : Prop where
  issued : ∀ issue ∈ keys.issued, issue.key < keys.fresh
  made : ∀ mailboxID key, keys.current mailboxID = some key → key < keys.fresh
  one : ∀ mailboxID other key, keys.current mailboxID = some key → keys.current other = some key →
    mailboxID = other
  own : ∀ issue ∈ keys.issued, ∀ mailboxID, keys.current mailboxID = some issue.key →
    mailboxID = issue.mailboxID

/-- The key was replaced. -/
structure Retired (key : Nat) (keys : Keys) : Prop where
  made : key < keys.fresh
  gone : ∀ mailboxID, keys.current mailboxID ≠ some key

theorem Sound.start : Sound {} := by
  constructor <;> simp

theorem Sound.move (sound : Sound keys) (move : Move keys next) : Sound next := by
  cases move with
  | reset mailboxID =>
    -- The new key is no other.
    have old : ∀ {other key}, (keys.urlAuthResetKey mailboxID).2.current other = some key →
        other = mailboxID ∧ key = keys.fresh ∨ keys.current other = some key ∧ key < keys.fresh := by
      intro other key made
      simp only [Keys.urlAuthResetKey] at made
      split at made
      · rename_i here
        exact .inl ⟨here, (Option.some.inj made).symm⟩
      · exact .inr ⟨made, sound.made _ _ made⟩
    refine ⟨fun issue sent => Nat.lt_succ_of_lt (sound.issued issue sent), fun other key made => ?_,
      fun first second key made also => ?_, fun issue sent other made => ?_⟩
    · rcases old made with ⟨_, rfl⟩ | ⟨_, less⟩
      · exact Nat.lt_succ_self _
      · exact Nat.lt_succ_of_lt less
    · rcases old made with ⟨rfl, rfl⟩ | ⟨made, less⟩ <;> rcases old also with ⟨rfl, same⟩ | ⟨also, less'⟩
      · rfl
      · exact absurd less' (Nat.lt_irrefl _)
      · exact absurd less (by omega)
      · exact sound.one _ _ _ made also
    · have below := sound.issued issue sent
      rcases old made with ⟨_, same⟩ | ⟨made, _⟩
      · omega
      · exact sound.own issue sent other made
  | drop =>
    exact ⟨sound.issued, fun _ _ made => (by cases made), fun _ _ _ made => (by cases made),
      fun _ _ _ made => (by cases made)⟩
  | send _ valid =>
    refine ⟨fun issue sent => ?_, sound.made, sound.one, fun issue sent other made => ?_⟩
    · rcases List.mem_append.mp sent with sent | new
      · exact sound.issued issue sent
      · exact sound.made _ _ (valid issue new)
    · rcases List.mem_append.mp sent with sent | new
      · exact sound.own issue sent other made
      · exact sound.one _ _ _ made (valid issue new)

theorem Retired.move (retired : Retired key keys) (move : Move keys next) : Retired key next := by
  cases move with
  | reset =>
    refine ⟨Nat.lt_succ_of_lt retired.made, fun other made => ?_⟩
    simp only [Keys.urlAuthResetKey] at made
    split at made
    · exact absurd retired.made (by rw [Option.some.inj made]; exact Nat.lt_irrefl _)
    · exact retired.gone other made
  | drop => exact ⟨retired.made, fun _ made => (by cases made)⟩
  | send => exact ⟨retired.made, retired.gone⟩

theorem run_sound {labels : List Label} (sound : Sound keys)
    (reached : run (step text mac) keys labels = some next) : Sound next :=
  always Sound (fun sound moved => (step_moves text mac moved).rec sound
    fun _ move sound => sound.move move) sound reached

theorem run_retired {labels : List Label} (retired : Retired key keys)
    (reached : run (step text mac) keys labels = some next) : Retired key next :=
  always (Retired key) (fun retired moved => (step_moves text mac moved).rec retired
    fun _ move retired => retired.move move) retired reached

/-- A URL resolves under the key that its mailbox has, or gets then. -/
theorem resolveURLAuth_some {world : World} {authurl data : Bytes}
    (resolved : (resolveURLAuth text mac keys world authurl).1 = some data) :
    ∃ rump token path mbName uid section_ full mailboxID,
      splitToken text authurl = some (rump, token) ∧ stripURLAuth text rump = some path ∧
      parseIMAPURLPath path = .ok (mbName, uid, section_) ∧
      world.mailboxFind mbName = some mailboxID ∧
      mac.read token = mac.tag (keys.urlAuthKey mailboxID).1 rump ∧
      world.lookup mbName uid = some full ∧ sectionBytes text.library full section_ = .ok data := by
  rcases split_ : splitToken text authurl with _ | ⟨rump, token⟩
  · simp [resolveURLAuth, split_] at resolved
  rcases cut : stripURLAuth text rump with _ | path
  · simp [resolveURLAuth, split_, urlauthToken, cut] at resolved
  rcases parsed : parseIMAPURLPath path with _ | ⟨mbName, uid, section_⟩
  · simp [resolveURLAuth, split_, urlauthToken, cut, parsed, Except.toOption] at resolved
  rcases found : world.mailboxFind mbName with _ | mailboxID
  · simp [resolveURLAuth, split_, urlauthToken, cut, parsed, found, Except.toOption] at resolved
  simp only [resolveURLAuth, split_, urlauthToken, cut, parsed, found, Except.toOption,
    Option.bind_some] at resolved
  split at resolved
  · cases resolved
  rename_i same
  obtain ⟨full, looked, read⟩ := Option.bind_eq_some_iff.mp resolved
  refine ⟨rump, token, path, mbName, uid, section_, full, mailboxID, rfl, cut, parsed, found,
    not_not.mp same, looked, ?_⟩
  split at read
  · exact (Option.some.inj read) ▸ ‹_›
  · cases read

theorem urlAuthKey_eq (keys : Keys) (mailboxID : Nat) :
    keys.current mailboxID = some (keys.urlAuthKey mailboxID).1 ∨
      (keys.urlAuthKey mailboxID).1 = keys.fresh := by
  rw [Keys.urlAuthKey]
  split
  · exact .inl ‹_›
  · exact .inr rfl

/-- A key that was replaced is not used again. -/
theorem Retired.unused (retired : Retired key keys) (mailboxID : Nat) :
    (keys.urlAuthKey mailboxID).1 ≠ key := by
  rintro rfl
  rcases urlAuthKey_eq keys mailboxID with current | fresh
  · exact retired.gone mailboxID current
  · exact absurd retired.made (by rw [fresh]; exact Nat.lt_irrefl _)

/-- RESETKEY replaces the key of a signature. -/
theorem Sound.retires (sound : Sound keys) {issue : Issue}
    (sent : issue ∈ keys.issued) {label : Label}
    (resets : label = .resetAll ∨ (∃ world mailbox, label = .resetKey world mailbox ∧
      world.mailboxFind (normalizeMailbox (unquote mailbox)) = some issue.mailboxID))
    (moved : step text mac keys label = some next) : Retired issue.key next := by
  have made := sound.issued issue sent
  rcases resets with rfl | ⟨world, mailbox, rfl, found⟩
  · cases moved
    exact ⟨made, fun _ current => (by cases current)⟩
  · simp only [step, cmdResetKey, found, Option.some.injEq] at moved
    subst moved
    refine ⟨Nat.lt_succ_of_lt made, fun other current => ?_⟩
    simp only [Keys.urlAuthResetKey] at current
    split at current
    · have := Option.some.inj current
      omega
    · rename_i apart
      exact apart (sound.own issue sent other current)

end Server

/-! ### A URL past its limits -/

def asciiText : Text where
  library := ⟨fun _ => (.mk {} [], false), fun _ => 0, id, id, id, fun _ => []⟩
  toLower := List.map (fun o => if 65 ≤ o ∧ o ≤ 90 then o + 32 else o)
  toUpper := List.map asciiUpper

/-- A URL for one user, until a date. -/
def fredsURL : Bytes := ascii "/INBOX/;UID=1;EXPIRE=2000-01-01T00:00:00Z;URLAUTH=user+fred"

/-- Every token is the tag of that URL under the first key. -/
def onlyTag : Mac (Nat × Bytes) where
  tag := Prod.mk
  read _ := (0, fredsURL)
  distinct same := Prod.mk.inj same

def oneMessage : World := ⟨fun _ => some 1, fun _ => some 1, fun _ _ => some (ascii "mail")⟩

theorem fredsURL_split : splitToken asciiText (fredsURL ++ ascii ":internal:00") =
    some (fredsURL, ascii "00") := by decide +kernel

end OctoMail.Imap.UrlAuth
