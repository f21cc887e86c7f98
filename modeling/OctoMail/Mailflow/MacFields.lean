import OctoMail.Mailflow.Header

/-!
# The text that rule metadata is signed as

`macFields` in `mailflow/rulemetadata/metadata.go` writes the fields of the metadata one after
another, with a line end between two of them, and the digest of the content directly after
the trace. The digest is raw and may hold line ends. The text is read from both ends: what
comes before the trace from the front, the expiry and the recipients from the back, and the
digest by its length.

Strings are the bytes that Go has for them. What `strings.TrimSpace` removes is a parameter.
-/

namespace OctoMail.Mailflow.MacFields

open List

abbrev Bytes := List UInt8

def lineEnd : UInt8 := 10

def octets (text : String) : Bytes := text.toList.map (fun c => UInt8.ofNat c.toNat)

/-- The scalar fields of `Metadata`. -/
structure Metadata where
  originalFrom : Bytes
  sentBy : Bytes
  ruleId : Int
  hop : Int
  messageId : Bytes
  expiresAt : Int
deriving DecidableEq, Repr

def maxAddressBytes : Nat := 320
def maxHop : Int := 1000000

def containsAny (text : Bytes) (characters : String) : Bool :=
  text.any (fun o => (octets characters).contains o)

def validMessageID (value : Bytes) : Bool :=
  decide (3 ≤ value.length) && value.head? == some 60 && value.getLast? == some 62 &&
    !containsAny value "\r\n\t "

def canonicalScalarMetadata (trimSpace : Bytes → Bytes) (metadata : Metadata) : Option Metadata :=
  let metadata := { metadata with
    originalFrom := trimSpace metadata.originalFrom
    sentBy := trimSpace metadata.sentBy
    messageId := trimSpace metadata.messageId }
  if metadata.originalFrom = [] ∨ metadata.sentBy = [] ∨
      metadata.originalFrom.length > maxAddressBytes ∨ metadata.sentBy.length > maxAddressBytes ∨
      containsAny metadata.originalFrom "\r\n" ∨ containsAny metadata.sentBy "\r\n" ∨
      metadata.ruleId ≤ 0 ∨ metadata.hop < 0 ∨ metadata.hop > maxHop ∨
      !validMessageID metadata.messageId ∨ metadata.expiresAt ≤ 0
  then none else some metadata

/-- A SHA-256 sum. -/
abbrev Digest := { sum : Bytes // sum.length = 32 }

/-- What `%d` writes. -/
def digits (n : Int) : Bytes := octets (formatInt n)

def versionText : RuleVersion → Bytes
  | .v2 => octets "v2"
  | .v3 => octets "v3"

/-- What `macFields` writes to the HMAC. -/
def macText (metadata : Metadata) (version : RuleVersion) (traceText recipientsText : Bytes)
    (contentDigest : Digest) : Bytes :=
  versionText version ++ lineEnd :: (metadata.originalFrom ++ lineEnd :: (metadata.sentBy ++
    lineEnd :: (digits metadata.ruleId ++ lineEnd :: (digits metadata.hop ++ lineEnd ::
    (metadata.messageId ++
      ((if version = .v3 then lineEnd :: (traceText ++ contentDigest.val) else []) ++
        lineEnd :: (recipientsText ++ lineEnd :: digits metadata.expiresAt)))))))

/-- The sum of the text under the key. -/
def macFields (hmac : Bytes → Bytes → Bytes) (key : Bytes) (metadata : Metadata)
    (version : RuleVersion) (traceText recipientsText : Bytes) (contentDigest : Digest) : Bytes :=
  hmac key (macText metadata version traceText recipientsText contentDigest)

/-! ### Texts with a separator -/

/-- The first separator divides a text in one way. -/
theorem cut_front {α : Type} {sep : α} {first second rest others : List α} (plain : sep ∉ first)
    (plain' : sep ∉ second) (same : first ++ sep :: rest = second ++ sep :: others) :
    first = second ∧ rest = others := by
  induction first generalizing second with
  | nil =>
    cases second with
    | nil => exact ⟨rfl, (List.cons.inj same).2⟩
    | cons o second => exact absurd ((List.cons.inj same).1 ▸ mem_cons_self) plain'
  | cons o first ih =>
    cases second with
    | nil => exact absurd ((List.cons.inj same).1.symm ▸ mem_cons_self) plain
    | cons o' second =>
      obtain ⟨rfl, tails⟩ := List.cons.inj same
      obtain ⟨rfl, equal⟩ := ih (fun member => plain (.tail _ member))
        (fun member => plain' (.tail _ member)) tails
      exact ⟨rfl, equal⟩

/-- So does the last one. -/
theorem cut_back {α : Type} {sep : α} {first second rest others : List α} (plain : sep ∉ rest)
    (plain' : sep ∉ others) (same : first ++ sep :: rest = second ++ sep :: others) :
    first = second ∧ rest = others := by
  have reversed := congrArg List.reverse same
  simp only [reverse_append, reverse_cons, append_assoc, singleton_append]
    at reversed
  obtain ⟨ends, starts⟩ := cut_front (fun member => plain (mem_reverse.mp member))
    (fun member => plain' (mem_reverse.mp member)) reversed
  exact ⟨reverse_inj.mp starts, reverse_inj.mp ends⟩

/-! ### Fields of the text -/

theorem ofNat_toNat_digit {c : Char} (digit : c.isDigit = true) :
    (UInt8.ofNat c.toNat).toNat = c.toNat ∧ UInt8.ofNat c.toNat ≠ lineEnd := by
  have bounds : 48 ≤ c.toNat ∧ c.toNat ≤ 57 := by
    simpa [Char.isDigit, UInt32.le_iff_toNat_le] using digit
  have value : (UInt8.ofNat c.toNat).toNat = c.toNat := by
    rw [UInt8.toNat_ofNat']
    omega
  refine ⟨value, fun same => ?_⟩
  have equal : c.toNat = 10 := value.symm.trans (congrArg UInt8.toNat same)
  omega

theorem digits_plain {n : Int} (natural : 0 ≤ n) : lineEnd ∉ digits n := by
  intro member
  rw [digits, octets, formatInt_toList natural] at member
  obtain ⟨c, listed, same⟩ := mem_map.mp member
  exact (ofNat_toNat_digit (decimal_digits _ _ c listed)).2 same

theorem digits_inj {n m : Int} (natural : 0 ≤ n) (natural' : 0 ≤ m) (same : digits n = digits m) :
    n = m := by
  rw [digits, digits, octets, octets, formatInt_toList natural, formatInt_toList natural']
    at same
  have back : ∀ k : Nat, ((decimal (k + 1) k).map (fun c => UInt8.ofNat c.toNat)).map
      UInt8.toNat = (decimal (k + 1) k).map Char.toNat := by
    intro k
    rw [map_map]
    exact map_congr_left fun c member => (ofNat_toNat_digit (decimal_digits _ _ c member)).1
  have chars := congrArg (List.map UInt8.toNat) same
  rw [back, back] at chars
  have equal := map_injective_iff.mpr (fun _ _ => Char.toNat_inj.mp) chars
  have read := congrArg readDigits equal
  rw [readDigits_decimal _ _ (Nat.lt_succ_self _),
    readDigits_decimal _ _ (Nat.lt_succ_self _)] at read
  omega

theorem plain_of_containsAny {text : Bytes} {characters : String}
    (listed : lineEnd ∈ octets characters) (none_ : containsAny text characters = false) :
    lineEnd ∉ text := by
  intro member
  have found : containsAny text characters = true :=
    any_eq_true.mpr ⟨lineEnd, member, contains_iff_mem.mpr listed⟩
  rw [none_] at found
  cases found

/-- What the checks of the metadata leave of line ends and signs. -/
structure Checked (metadata : Metadata) : Prop where
  originalFrom : lineEnd ∉ metadata.originalFrom
  sentBy : lineEnd ∉ metadata.sentBy
  messageId : lineEnd ∉ metadata.messageId
  ruleId : 0 ≤ metadata.ruleId
  hop : 0 ≤ metadata.hop
  expiresAt : 0 ≤ metadata.expiresAt

theorem canonicalScalarMetadata_checked {trimSpace : Bytes → Bytes} {metadata canonical : Metadata}
    (ok : canonicalScalarMetadata trimSpace metadata = some canonical) : Checked canonical := by
  simp only [canonicalScalarMetadata] at ok
  split at ok
  · cases ok
  rename_i accepted
  cases ok
  simp only [not_or, Bool.not_eq_true, Bool.not_eq_false', Int.not_le, Int.not_lt] at accepted
  obtain ⟨_, _, _, _, original, sent, rule, hop, _, identified, expires⟩ := accepted
  simp only [validMessageID, Bool.and_eq_true, Bool.not_eq_true'] at identified
  exact ⟨plain_of_containsAny (by decide) original, plain_of_containsAny (by decide) sent,
    plain_of_containsAny (by decide) identified.2, rule.le, hop, expires.le⟩

theorem versionText_plain {version : RuleVersion} : lineEnd ∉ versionText version := by
  cases version <;> decide

theorem versionText_inj {first second : RuleVersion}
    (same : versionText first = versionText second) : first = second := by
  cases first <;> cases second <;> first | rfl | exact absurd same (by decide)

/-! ### Reading the text -/

/-- Two tuples that are signed agree: in all they share, and in the third version also in the
trace and the digest. -/
structure Agree (metadata metadata' : Metadata) (version version' : RuleVersion)
    (trace trace' recipients recipients' : Bytes) (digest digest' : Digest) : Prop where
  versions : version = version'
  scalars : metadata = metadata'
  lists : recipients = recipients'
  bound : version = .v3 → trace = trace' ∧ digest = digest'

section Reading

variable {metadata metadata' : Metadata} {version version' : RuleVersion}
  {trace trace' recipients recipients' : Bytes} {digest digest' : Digest}

theorem macText_agree (checked : Checked metadata) (checked' : Checked metadata')
    (plain : lineEnd ∉ recipients) (plain' : lineEnd ∉ recipients')
    (same : macText metadata version trace recipients digest =
      macText metadata' version' trace' recipients' digest') :
    Agree metadata metadata' version version' trace trace' recipients recipients' digest
      digest' := by
  obtain ⟨originalFrom, sentBy, ruleId, hop, messageId, expiresAt⟩ := metadata
  obtain ⟨originalFrom', sentBy', ruleId', hop', messageId', expiresAt'⟩ := metadata'
  obtain ⟨fromPlain, sentPlain, idPlain, ruleSign, hopSign, timeSign⟩ := checked
  obtain ⟨fromPlain', sentPlain', idPlain', ruleSign', hopSign', timeSign'⟩ := checked'
  dsimp only [macText] at *
  -- From the front: the fields up to the trace have no line ends.
  obtain ⟨versions, afterVersion⟩ := cut_front (versionText_plain) (versionText_plain) same
  obtain rfl := versionText_inj versions
  obtain ⟨rfl, afterFrom⟩ := cut_front fromPlain fromPlain' afterVersion
  obtain ⟨rfl, afterSender⟩ := cut_front sentPlain sentPlain' afterFrom
  obtain ⟨rules, afterRule⟩ := cut_front (digits_plain ruleSign)
    (digits_plain ruleSign') afterSender
  obtain rfl := digits_inj ruleSign ruleSign' rules
  obtain ⟨hops, afterHop⟩ := cut_front (digits_plain hopSign) (digits_plain hopSign') afterRule
  obtain rfl := digits_inj hopSign hopSign' hops
  cases version with
  | v2 =>
    obtain ⟨rfl, afterId⟩ := cut_front idPlain idPlain' afterHop
    obtain ⟨rfl, times⟩ := cut_front plain plain' afterId
    obtain rfl := digits_inj timeSign timeSign' times
    exact ⟨rfl, rfl, rfl, fun third => by cases third⟩
  | v3 =>
    rw [if_pos rfl, if_pos rfl, cons_append, cons_append] at afterHop
    obtain ⟨rfl, afterId⟩ := cut_front idPlain idPlain' afterHop
    -- From the back, since the digest may have line ends.
    have regroup : ∀ (front list time : Bytes), front ++ lineEnd :: (list ++ lineEnd :: time) =
        (front ++ lineEnd :: list) ++ lineEnd :: time := by simp
    rw [regroup, regroup] at afterId
    obtain ⟨beforeTime, times⟩ := cut_back (digits_plain timeSign) (digits_plain timeSign') afterId
    obtain rfl := digits_inj timeSign timeSign' times
    obtain ⟨beforeList, rfl⟩ := cut_back plain plain' beforeTime
    obtain ⟨rfl, sums⟩ := append_inj' beforeList (digest.property.trans digest'.property.symm)
    exact ⟨rfl, rfl, rfl, fun _ => ⟨rfl, Subtype.ext sums⟩⟩

/-- The two texts differ and have one sum. Every HMAC has such texts, so a result names the two it
is about. -/
def Collision (hmac : Bytes → Bytes → Bytes) (key first second : Bytes) : Prop :=
  first ≠ second ∧ hmac key first = hmac key second

end Reading

/-- The signed text determines what is signed, whatever the trace and the digest hold. A
signature made for one tuple is then that of another only if their two texts collide. -/
theorem macFields_unambiguous {trimSpace : Bytes → Bytes}
    {given given' metadata metadata' : Metadata}
    {version version' : RuleVersion} {trace trace' recipients recipients' : Bytes}
    {digest digest' : Digest} (accepted : canonicalScalarMetadata trimSpace given = some metadata)
    (accepted' : canonicalScalarMetadata trimSpace given' = some metadata')
    (plain : lineEnd ∉ recipients) (plain' : lineEnd ∉ recipients') :
    (macText metadata version trace recipients digest =
        macText metadata' version' trace' recipients' digest' →
      Agree metadata metadata' version version' trace trace' recipients recipients' digest
        digest') ∧
    ∀ (hmac : Bytes → Bytes → Bytes) (key : Bytes),
      macFields hmac key metadata version trace recipients digest =
        macFields hmac key metadata' version' trace' recipients' digest' →
      Agree metadata metadata' version version' trace trace' recipients recipients' digest
        digest' ∨
        Collision hmac key (macText metadata version trace recipients digest)
          (macText metadata' version' trace' recipients' digest') := by
  have checked := canonicalScalarMetadata_checked accepted
  have checked' := canonicalScalarMetadata_checked accepted'
  refine ⟨fun same => macText_agree checked checked' plain plain' same, fun hmac key sums => ?_⟩
  by_cases same : macText metadata version trace recipients digest =
      macText metadata' version' trace' recipients' digest'
  · exact .inl (macText_agree checked checked' plain plain' same)
  · exact .inr ⟨same, sums⟩

/-- A forward by the first rule, and a sum with line ends in it. -/
def firstForward : Metadata :=
  ⟨octets "ann@example.org", octets "bot@example.org", 7, 1, octets "<1@example.org>", 1700000000⟩

def lineEnds : Digest := ⟨List.replicate 32 lineEnd, by decide⟩

theorem macFields_unambiguous_lineEnds :
    canonicalScalarMetadata id firstForward = some firstForward ∧
      lineEnd ∉ octets "bob@example.org" ∧
      ∀ (trace : Bytes) (digest : Digest),
        macText firstForward .v3 trace (octets "bob@example.org") digest =
          macText firstForward .v3 (octets "7") (octets "bob@example.org") lineEnds →
        trace = octets "7" ∧ digest = lineEnds := by
  have accepted : canonicalScalarMetadata id firstForward = some firstForward := by decide +kernel
  have plain : lineEnd ∉ octets "bob@example.org" := by decide +kernel
  refine ⟨accepted, plain, fun trace digest same => ?_⟩
  exact ((macFields_unambiguous accepted accepted plain plain).1 same).bound rfl

end OctoMail.Mailflow.MacFields
