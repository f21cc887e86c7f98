import OctoMail.Mailflow.AutoReplyChain
import OctoMail.TextLines

/-!
# Automatic mail as it arrives

`Verify` and `Next` of `mailflow/autoreplychain/chain.go` on the octets of a message. They read
the header by `net/textproto`, which gives up at the first line it cannot read; the message then
counts as one without any header at all.

The header block is read a second time without giving up, line by line to the first empty line,
to say which `Auto-Submitted` fields it has. How the octets of a value are read as characters, and
which values are signatures of this deployment, is left open.
-/

namespace OctoMail.Mailflow.ArrivingMail

open List TextLines

def colon : UInt8 := 58

/-! ### `textproto.Reader.ReadMIMEHeader` -/

/-- An octet as a character; names have ASCII only. -/
def byteChar (b : UInt8) : Char := Char.ofNat b.toNat

/-- The text before the first colon and the text after it. -/
def cutColon (kv : Bytes) : Option (Bytes × Bytes) :=
  if colon ∈ kv then
    some (kv.takeWhile (fun c => c != colon), (kv.dropWhile (fun c => c != colon)).tail)
  else none

/-- What `textproto` demands of a name and a value. -/
def readableField (field : Bytes × Bytes) : Bool :=
  !field.1.isEmpty && field.1.all (fun c => tokenByte (byteChar c)) &&
    field.2.all (fun c => valueByte (byteChar c))

/-- A field from its lines put together. -/
def readField (kv : Bytes) : Option (Bytes × Bytes) :=
  ((cutColon kv).filter readableField).map (fun field => (field.1, field.2.dropWhile blank))

/-- The field that ends where another line begins, if one has begun. -/
def readCurrent : Option Bytes → Option (List (Bytes × Bytes))
  | none => some []
  | some kv => (readField kv).map (fun field => [field])

/-- The fields of the lines up to the first empty one; `current` is the field that is being
read. A line that starts with a blank continues it, and there is none before the first line. -/
def readFields (current : Option Bytes) : List Bytes → Option (List (Bytes × Bytes))
  | [] => none
  | line :: rest =>
      if startsBlank line then
        current.bind (fun kv => readFields (some (kv ++ 32 :: trim line)) rest)
      else if line = [] then readCurrent current
      else if colon ∉ line then none
      else (readCurrent current).bind (fun done =>
        (readFields (some (trim line)) rest).map (fun later => done ++ later))

def headerLines (raw : Bytes) : List Bytes := (cutLines raw).map content

def readHeader (raw : Bytes) : Option (List (Bytes × Bytes)) := readFields none (headerLines raw)

/-! ### Fields and the chain -/

/-- How a value is read: as a text, and as a signature of the deployment if it is one. -/
structure Reading where
  text : Bytes → String
  signed : Bytes → Option ChainPayload

def nameOf (name : Bytes) : String := String.ofList (name.map byteChar)

def Reading.field (reading : Reading) (field : Bytes × Bytes) : Field :=
  match (if sameName (nameOf field.1) chainSignatureName then reading.signed field.2 else none) with
  | some payload => .chainSignature payload
  | none => .text (nameOf field.1) (reading.text field.2)

/-- `Verify`. -/
def verify (go : Go) (reading : Reading) (raw : Bytes) (expectedRecipient : String) (now : Int) :
    AutoReplyChain.Context :=
  AutoReplyChain.verifyHeader go ((readHeader raw).map
    (List.map reading.field)) expectedRecipient now

/-- `Next`. -/
def next (go : Go) (chain : AutoReplyChain.Chain) (reading : Reading) (raw : Bytes)
    (outgoingMessageID currentRecipient outgoingRecipient newTraceID : String) (now : Int) :
    Except AutoReplyChain.Refusal AutoReplyChain.Metadata :=
  AutoReplyChain.nextFrom go chain (verify go reading raw currentRecipient now) outgoingMessageID
    outgoingRecipient newTraceID now false

/-! ### The header block -/

/-- The field that ends where another line begins, if it has a colon. -/
def currentField (current : Option Bytes) : List (Bytes × Bytes) :=
  ((current.bind cutColon).map (fun field => (field.1, field.2.dropWhile blank))).toList

/-- The fields of the lines up to the first empty one or the end, whatever their octets are. A
line without a colon is none, and neither are blank lines before the first field. -/
def blockFields (current : Option Bytes) : List Bytes → List (Bytes × Bytes)
  | [] => currentField current
  | line :: rest =>
      if startsBlank line then blockFields (current.map (fun kv => kv ++ 32 :: trim line)) rest
      else if line = [] then currentField current
      else currentField current ++ blockFields (some (trim line)) rest

def headerFields (raw : Bytes) : List (Bytes × Bytes) := blockFields none (headerLines raw)

/-- An `Auto-Submitted` field that marks automatic mail. -/
def Reading.marks (reading : Reading) (field : Bytes × Bytes) : Bool :=
  sameName (nameOf field.1) "Auto-Submitted" && submittedAutomatically (reading.text field.2)

/-- Such a field, with or without blanks before its colon. -/
def Reading.marksLoosely (reading : Reading) (field : Bytes × Bytes) : Bool :=
  reading.marks (field.1.rdropWhile blank, field.2)

/-- What `textproto` demands of a header: an empty line ends it, it does not start with a blank,
each line that does not continue another has a colon, and names and values have no other octets
than they may have. -/
structure Readable (current : Option Bytes) (lines : List Bytes) : Prop where
  ended : [] ∈ lines
  start : current = none → lines.head?.any startsBlank = false
  colons : ∀ line ∈ lines.takeWhile (fun line => line ≠ []), startsBlank line = false → colon ∈ line
  octets : ∀ field ∈ blockFields current lines, readableField field = true

/-! ### What is read -/

theorem valueByte_blank {c : UInt8} (isBlank : blank c = true) : valueByte (byteChar c) = true := by
  simp only [blank, Bool.or_eq_true, beq_iff_eq] at isBlank
  rcases isBlank with rfl | rfl <;> decide

/-- The blanks in front of a value may stand in a value. -/
theorem readableField_dropWhile (name value : Bytes) :
    readableField (name, value.dropWhile blank) = readableField (name, value) := by
  have front : (value.takeWhile blank).all (fun c => valueByte (byteChar c)) = true := by
    rw [all_eq_true]
    exact fun c member => valueByte_blank (mem_takeWhile_imp member)
  have parts : value.all (fun c => valueByte (byteChar c)) =
      (value.dropWhile blank).all (fun c => valueByte (byteChar c)) := by
    conv => lhs; rw [← @List.takeWhile_append_dropWhile _ blank value]
    rw [all_append, front, Bool.true_and]
  simp only [readableField, parts]

/-- A field that has begun has a colon. -/
def Begun (current : Option Bytes) : Prop := ∀ kv, current = some kv → colon ∈ kv

variable {fields : List (Bytes × Bytes)}

theorem readCurrent_iff {current : Option Bytes} (begun : Begun current) :
    readCurrent current = some fields ↔
      (∀ field ∈ currentField current, readableField field = true) ∧
        currentField current = fields := by
  cases current with
  | none => simp [readCurrent, currentField]
  | some kv =>
    have cut : cutColon kv = some (kv.takeWhile (fun c => c != colon),
        (kv.dropWhile (fun c => c != colon)).tail) := if_pos (begun kv rfl)
    simp only [readCurrent, readField, currentField, cut, Option.bind_some, Option.map_some,
      Option.toList_some, forall_mem_singleton, readableField_dropWhile, Option.filter_some]
    split
    · rename_i readable
      simp [readable]
    · rename_i unreadable
      simp [unreadable]

section Steps

variable {current : Option Bytes} {kv line : Bytes} {rest : List Bytes}

theorem ne_nil_of_startsBlank (continues : startsBlank line = true) : line ≠ [] := by
  rintro rfl
  cases continues

theorem block_cons (some_ : line ≠ []) : (line :: rest).takeWhile (fun line => line ≠ []) =
    line :: rest.takeWhile (fun line => line ≠ []) :=
  takeWhile_cons_of_pos (by simpa using some_)

theorem not_readable_none (continues : startsBlank line = true) :
    ¬Readable none (line :: rest) := by
  intro readable
  have start := readable.start rfl
  simp [continues] at start

theorem readable_continue (continues : startsBlank line = true) :
    Readable (some kv) (line :: rest) ↔ Readable (some (kv ++ 32 :: trim line)) rest := by
  have some_ := ne_nil_of_startsBlank continues
  have fields : blockFields (some kv) (line :: rest) =
      blockFields (some (kv ++ 32 :: trim line)) rest := by
    rw [blockFields, if_pos continues, Option.map_some]
  constructor
  · intro readable
    refine ⟨?_, (by simp), fun other member apart => ?_, fields ▸ readable.octets⟩
    · exact (mem_cons.mp readable.ended).resolve_left (Ne.symm some_)
    · refine readable.colons other ?_ apart
      rw [block_cons some_]
      exact mem_cons_of_mem _ member
  · intro readable
    refine ⟨mem_cons_of_mem _ readable.ended, (by simp), ?_, fields ▸ readable.octets⟩
    rw [block_cons some_]
    intro other member apart
    rcases mem_cons.mp member with rfl | later
    · rw [continues] at apart
      cases apart
    · exact readable.colons other later apart

theorem readable_empty : Readable current ([] :: rest) ↔
    ∀ field ∈ currentField current, readableField field = true := by
  have fields : blockFields current ([] :: rest) = currentField current := by
    rw [blockFields, if_neg (by decide), if_pos rfl]
  constructor
  · exact fun readable => fields ▸ readable.octets
  · exact fun octets => ⟨mem_cons_self, fun _ => rfl, by simp, fields ▸ octets⟩

theorem readable_line (apart : startsBlank line = false) (some_ : line ≠ []) :
    Readable current (line :: rest) ↔ colon ∈ line ∧
      (∀ field ∈ currentField current, readableField field = true) ∧
        Readable (some (trim line)) rest := by
  have fields : blockFields current (line :: rest) =
      currentField current ++ blockFields (some (trim line)) rest := by
    rw [blockFields, if_neg (by simp [apart]), if_neg some_]
  constructor
  · intro readable
    have octets := readable.octets
    have colons := readable.colons
    rw [fields] at octets
    rw [block_cons some_] at colons
    refine ⟨colons line mem_cons_self apart,
      fun field here => octets field (mem_append_left _ here), ?_, (by simp),
      fun other later => colons other (mem_cons_of_mem _ later),
      fun field later => octets field (mem_append_right _ later)⟩
    exact (mem_cons.mp readable.ended).resolve_left (Ne.symm some_)
  · rintro ⟨colon_, done, readable⟩
    refine ⟨mem_cons_of_mem _ readable.ended, fun _ => apart, ?_, ?_⟩
    · rw [block_cons some_]
      intro other member start
      rcases mem_cons.mp member with rfl | later
      · exact colon_
      · exact readable.colons other later start
    · rw [fields]
      intro field member
      rcases mem_append.mp member with here | later
      · exact done field here
      · exact readable.octets field later

end Steps

/-- `textproto` reads the fields of a block that it can read, and no other block. -/
theorem readFields_iff {lines : List Bytes} {current : Option Bytes} (begun : Begun current) :
    readFields current lines = some fields ↔
      Readable current lines ∧ blockFields current lines = fields := by
  induction lines generalizing current fields with
  | nil =>
    constructor
    · intro read
      cases read
    · exact fun both => absurd both.1.ended not_mem_nil
  | cons line rest ih =>
    rw [readFields, blockFields]
    by_cases continues : startsBlank line = true
    · rw [if_pos continues, if_pos continues]
      cases current with
      | none => simp [not_readable_none continues]
      | some kv =>
        have longer : Begun (some (kv ++ 32 :: trim line)) := by
          intro _ same
          rw [← Option.some.inj same]
          exact mem_append_left _ (begun kv rfl)
        rw [Option.bind_some, ih longer, Option.map_some,
          readable_continue continues]
    rw [if_neg continues, if_neg continues]
    by_cases empty : line = []
    · subst empty
      rw [if_pos rfl, if_pos rfl, readCurrent_iff begun, readable_empty]
    rw [if_neg empty, if_neg empty, readable_line (by simpa using continues) empty]
    by_cases colon_ : colon ∈ line
    · have begins : Begun (some (trim line)) := by
        intro _ same
        rw [← Option.some.inj same]
        exact mem_trim colon_ rfl
      rw [if_neg (by simpa using colon_)]
      simp only [Option.bind_eq_some_iff, Option.map_eq_some_iff, readCurrent_iff begun,
        ih begins]
      constructor
      · rintro ⟨_, ⟨done, rfl⟩, _, ⟨readable, rfl⟩, rfl⟩
        exact ⟨⟨colon_, done, readable⟩, rfl⟩
      · rintro ⟨⟨_, done, readable⟩, rfl⟩
        exact ⟨_, ⟨done, rfl⟩, _, ⟨readable, rfl⟩, rfl⟩
    · rw [if_pos colon_]
      simp [colon_]

/-- What `readHeader` returns. -/
theorem readHeader_iff {raw : Bytes} :
    readHeader raw = some fields ↔
      Readable none (headerLines raw) ∧ headerFields raw = fields :=
  readFields_iff (by simp [Begun])

/-! ### Automatic mail -/

variable {go : Go} {chain : AutoReplyChain.Chain} {reading : Reading} {raw : Bytes}

/-- A signature is no `Auto-Submitted` field. -/
theorem headerValues_field (field : Bytes × Bytes) (rest : List Field) :
    headerValues (reading.field field :: rest) "Auto-Submitted" =
      (if sameName (nameOf field.1) "Auto-Submitted" then [reading.text field.2] else []) ++
        headerValues rest "Auto-Submitted" := by
  have text : headerValues (.text (nameOf field.1) (reading.text field.2) ::
    rest) "Auto-Submitted" =
      (if sameName (nameOf field.1) "Auto-Submitted" then [reading.text field.2] else []) ++
        headerValues rest "Auto-Submitted" := by
    rw [headerValues, filterMap_cons]
    by_cases same : sameName (nameOf field.1) "Auto-Submitted" = true
    · simp [same, headerValues]
    · simp [same, headerValues]
  by_cases signature : sameName (nameOf field.1) chainSignatureName = true
  · rw [Reading.field, if_pos signature]
    cases reading.signed field.2 with
    | none => exact text
    | some payload =>
      have other : sameName (nameOf field.1) "Auto-Submitted" = false := by
        rw [sameName, beq_iff_eq] at signature
        rw [sameName, signature]
        decide
      rw [other]
      rfl
  · rw [Reading.field, if_neg signature]
    exact text

theorem automatedHeader_fields (fields : List (Bytes × Bytes)) :
    automatedHeader (fields.map reading.field) = fields.any reading.marks := by
  induction fields with
  | nil => rfl
  | cons field rest ih =>
    rw [automatedHeader] at ih ⊢
    rw [map_cons, headerValues_field, any_append, ih, any_cons,
      Reading.marks]
    congr 1
    split
    · rename_i same
      simp [same]
    · rename_i same
      simp [same]

/-- A header is found to be automatic if it is read and one of its fields says so. -/
theorem verify_automated {expectedRecipient : String} {now : Int} :
    (verify go reading raw expectedRecipient now).automated = true ↔
      Readable none (headerLines raw) ∧ (headerFields raw).any reading.marks = true := by
  cases read : readHeader raw with
  | none =>
    rw [verify, read]
    constructor
    · intro automated
      cases automated
    · rintro ⟨readable, _⟩
      rw [readHeader_iff.mpr ⟨readable, rfl⟩] at read
      cases read
  | some fields =>
    obtain ⟨readable, rfl⟩ := readHeader_iff.mp read
    rw [← automatedHeader_fields, verify, read, Option.map_some, AutoReplyChain.verifyHeader]
    simp only [readable, true_and]
    split
    · exact Iff.rfl
    · split <;> exact Iff.rfl

/-- Mail that carries no valid metadata for the recipient is refused as automatic exactly when
`textproto` reads its header and an `Auto-Submitted` field of the block marks it, with its name
right before the colon. -/
theorem next_refuses_automated (go : Go) (chain : AutoReplyChain.Chain) (reading : Reading)
    (raw : Bytes) (outgoingMessageID currentRecipient outgoingRecipient newTraceID : String)
    (now : Int) (unverified : (verify go reading raw currentRecipient now).verification ≠ .valid) :
    next go chain reading raw outgoingMessageID currentRecipient outgoingRecipient newTraceID now =
        .error .externalAutomatedReply ↔
      Readable none (headerLines raw) ∧ (headerFields raw).any reading.marks = true := by
  rw [← @verify_automated go reading raw currentRecipient now, next, AutoReplyChain.nextFrom]
  have other : ((verify go reading raw currentRecipient now).verification != .valid) = true :=
    bne_iff_ne.mpr unverified
  cases automated : (verify go reading raw currentRecipient now).automated with
  | true => simp [AutoReplyChain.blocksAutomaticReply, automated, other]
  | false =>
    simp only [AutoReplyChain.blocksAutomaticReply, automated, Bool.false_and, Bool.false_eq_true,
      if_false, unverified, false_and, iff_false]
    split <;> simp

/-- A reader of ASCII, and no signatures. -/
def asciiReading : Reading where
  text := nameOf
  signed := fun _ => none

def asciiBytes (text : String) : Bytes := text.toList.map (fun c => UInt8.ofNat c.toNat)

/-- An automatic reply with a line that is no field. -/
def brokenReply : Bytes :=
  asciiBytes "Auto-Submitted: auto-replied\r\nbroken line\r\n\r\nhello\r\n"

/-- An automatic reply with a blank before a colon. -/
def blankReply : Bytes := asciiBytes "Auto-Submitted : auto-replied\r\n\r\nhello\r\n"

/-- Neither is refused: both are answered with metadata of a new chain. -/
theorem automated_starts_chain :
    (headerFields brokenReply).any asciiReading.marks = true ∧
      next asciiGo ⟨3, by decide⟩ asciiReading brokenReply "<1@here>" "a@here" "b@there" "t" 0 =
        .ok ⟨"t", 1, "b@there", 86400, ⟨"t", 1, "<1@here>", "b@there", 86400⟩⟩ ∧
      (headerFields blankReply).any asciiReading.marksLoosely = true ∧
      next asciiGo ⟨3, by decide⟩ asciiReading blankReply "<1@here>" "a@here" "b@there" "t" 0 =
        .ok ⟨"t", 1, "b@there", 86400, ⟨"t", 1, "<1@here>", "b@there", 86400⟩⟩ := by
  decide +kernel

/-- The reply without the broken line is refused. -/
theorem next_refuses_automated_plain :
    next asciiGo ⟨3, by decide⟩ asciiReading
      (asciiBytes "Auto-Submitted: auto-replied\r\n\r\nhello\r\n") "<1@here>" "a@here" "b@there"
      "t" 0 = .error .externalAutomatedReply := by
  have lines : headerLines (asciiBytes "Auto-Submitted: auto-replied\r\n\r\nhello\r\n") =
      [asciiBytes "Auto-Submitted: auto-replied", [], asciiBytes "hello"] := by decide +kernel
  refine (next_refuses_automated asciiGo ⟨3, by decide⟩ asciiReading _ "<1@here>" "a@here" "b@there"
    "t" 0 (by decide +kernel)).mpr ⟨?_, by decide +kernel⟩
  rw [lines]
  exact ⟨by decide +kernel, fun _ => by decide +kernel, by decide +kernel, by decide +kernel⟩

end OctoMail.Mailflow.ArrivingMail
