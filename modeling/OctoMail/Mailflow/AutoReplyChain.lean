import OctoMail.Mailflow.Header

/-!
# Automatic-reply chains

`mailflow/autoreplychain/chain.go`: the signed metadata of Agents' automatic replies, its
verification, and the metadata of the next reply. A header that `net/textproto` does not
read is verified as invalid and, unlike any other, as not automated.
-/

namespace OctoMail.Mailflow.AutoReplyChain

def headerTraceID : String := "X-Octo-Auto-Reply-Trace-Id"
def headerCount : String := "X-Octo-Auto-Reply-Count"
def headerRecipient : String := "X-Octo-Auto-Reply-Recipient"
def headerExpires : String := "X-Octo-Auto-Reply-Expires"
def maxTraceIDBytes : Nat := 64
def maxCount : Int := 1000000
def signatureValidity : Int := 24 * 60 * 60
def clockSkew : Int := 5 * 60

/-- A deployment's chain; `New` accepts a maximum from one. -/
structure Chain where
  maxCount : Int
  positive : 0 < maxCount

inductive Verification where
  | missing
  | valid
  | invalid
deriving DecidableEq, Repr

structure Context where
  verification : Verification
  traceId : String := ""
  count : Int := 0
  automated : Bool := false
deriving DecidableEq, Repr

structure Metadata where
  traceId : String
  count : Int
  recipient : String
  expiresAt : Int
  signature : ChainPayload
deriving DecidableEq, Repr

def validTraceID (go : Go) (value : String) : Bool :=
  value != "" && decide (value.utf8ByteSize ≤ maxTraceIDBytes) &&
    value.toList.all (fun c => go.letterOrDigit c || c == '-' || c == '_')

def canonicalMessageID (value : String) : String :=
  if validMessageID (trimSpace value) then trimSpace value else ""

/-- `canonicalRecipient` is the same function as `canonicalAddress`. -/
def canonicalRecipient (go : Go) (value : String) : String := canonicalAddress go value

/-- The signature field of a header that has one; it need not be of this deployment. -/
def singleSignatureField (header : List Field) : Option Field :=
  match header.filter (fun field => sameName field.name chainSignatureName) with
  | [.text name value] => if trimSpace value = "" then none else some (.text name value)
  | [field] => some field
  | _ => none

/-- The five fields of the metadata, each where it occurs once. -/
structure Claimed where
  traceId : Option String
  count : Option String
  recipient : Option String
  expires : Option String
  signature : Option Field
deriving DecidableEq, Repr

def claimed (header : List Field) : Claimed where
  traceId := singleHeader header headerTraceID
  count := singleHeader header headerCount
  recipient := singleHeader header headerRecipient
  expires := singleHeader header headerExpires
  signature := singleSignatureField header

/-- What the metadata of a header is valid for. -/
def checked (go : Go) (header : List Field) (expectedRecipient : String) (now : Int) :
    Option (String × Int) := do
  let fields := claimed header
  let traceId ← fields.traceId
  let countText ← fields.count
  let recipient ← fields.recipient
  let expiresText ← fields.expires
  let signature ← fields.signature
  let recipient := canonicalRecipient go recipient
  if !validTraceID go traceId ∨ recipient = "" ∨
      recipient ≠ canonicalRecipient go expectedRecipient then none else
  let count ← Jmap.parseInt64 countText
  if count ≤ 0 ∨ count > maxCount then none else
  let expiresAt ← Jmap.parseInt64 expiresText
  if expiresAt ≤ now ∨ expiresAt > now + signatureValidity + clockSkew then none else
  let messageId := canonicalMessageID ((headerValues header "Message-ID").headD "")
  if messageId = "" ∨
      signature ≠ .chainSignature ⟨traceId, count, messageId, recipient, expiresAt⟩
  then none else return (traceId, count)

/-- `Verify`, from what `readHeader` returns. -/
def verifyHeader (go : Go) (read : Option (List Field)) (expectedRecipient : String) (now : Int) :
    Context :=
  match read with
  | none => { verification := .invalid }
  | some header =>
      let automated := automatedHeader header
      if claimed header = ⟨none, none, none, none, none⟩ then
        { verification := .missing, automated := automated }
      else
        match checked go header expectedRecipient now with
        | none => { verification := .invalid, automated := automated }
        | some (traceId, count) => ⟨.valid, traceId, count, automated⟩

def blocksAutomaticReply (context : Context) : Bool :=
  context.automated && context.verification != .valid

inductive Refusal where
  | externalAutomatedReply
  | limitReached
  | failed
deriving DecidableEq, Repr

/-- `next`, from what `Verify` returns; the trace identity of a new chain is drawn. -/
def nextFrom (go : Go) (chain : Chain) (context : Context) (outgoingMessageID outgoingRecipient
    newTraceID : String) (now : Int) (trustedForward : Bool) : Except Refusal Metadata :=
  if blocksAutomaticReply context && !trustedForward then .error .externalAutomatedReply
  else if context.verification = .valid ∧ chain.maxCount ≤ context.count then
    .error .limitReached
  else
    let count := if context.verification = .valid then context.count + 1 else 1
    let traceId := if context.traceId = "" then newTraceID else context.traceId
    let messageId := canonicalMessageID outgoingMessageID
    let recipient := canonicalRecipient go outgoingRecipient
    let expiresAt := now + signatureValidity
    if messageId = "" ∨ recipient = "" then .error .failed
    else .ok ⟨traceId, count, recipient, expiresAt,
      ⟨traceId, count, messageId, recipient, expiresAt⟩⟩

end OctoMail.Mailflow.AutoReplyChain
