import OctoMail.Jmap.Mail
import OctoMail.Utf8

/-!
# Messages in transit

A message is the fields of its header, in order, and its body; its text is not modelled.
The programs that look at a header use different readers: `net/mail` takes any field with
a colon, while `net/textproto` refuses the whole header if a name has a byte that is not
of a token or a value has a control byte.

A signature is the term that it signs: a field with a signature that verifies for some
payload under the deployment's key is a field that carries this payload. That signatures
cannot be forged is then a statement about which payloads occur in a message.
-/

namespace OctoMail.Mailflow

/-- What a digest of a message covers: the values of the bound fields and the body. -/
structure Content where
  values : List (List String)
  body : String
deriving DecidableEq, Repr

/-- The versions of rule signatures. -/
inductive RuleVersion where
  | v2
  | v3
deriving DecidableEq, Repr

/-- What a signature of rule metadata signs. Trace and content are in the third version
only. -/
structure RulePayload where
  version : RuleVersion
  originalFrom : String
  sentBy : String
  ruleId : Int
  hop : Int
  messageId : String
  trace : String
  content : Option Content
  recipients : String
  expiresAt : Int
deriving DecidableEq, Repr

/-- What a signature of automatic-reply metadata signs. -/
structure ChainPayload where
  traceId : String
  count : Int
  messageId : String
  recipient : String
  expiresAt : Int
deriving DecidableEq, Repr

inductive Field where
  | text (name value : String)
  | ruleSignature (signed : RulePayload)
  | chainSignature (signed : ChainPayload)
deriving DecidableEq, Repr

def ruleSignatureName : String := "X-Octo-Rule-Signature"

def chainSignatureName : String := "X-Octo-Auto-Reply-Signature"

def Field.name : Field → String
  | text name _ => name
  | ruleSignature _ => ruleSignatureName
  | chainSignature _ => chainSignatureName

/-- Field names are compared without regard to case. -/
def sameName (first second : String) : Bool :=
  Store.lowerAscii first.toList == Store.lowerAscii second.toList

/-- The values of a name, in order. -/
def headerValues (header : List Field) (name : String) : List String :=
  header.filterMap (fun field =>
    match field with
    | .text other value => if sameName other name then some value else none
    | _ => none)

/-! ### Readers -/

/-- A byte of a token, or the blank that `textproto` lets pass. -/
def tokenByte (c : Char) : Bool :=
  c.isAlphanum || "!#$%&'*+-.^_`|~ ".toList.contains c

/-- No control byte but a tab. -/
def valueByte (c : Char) : Bool := c == '\t' || decide (32 ≤ c.toNat) && c.toNat != 127

/-- `strings.TrimSpace`. -/
def trimSpace (s : String) : String :=
  String.ofList ((s.toList.dropWhile Utf8.isSpace).reverse.dropWhile Utf8.isSpace).reverse

/-- The value of a name that occurs once, if it is not blank. -/
def singleHeader (header : List Field) (name : String) : Option String :=
  match headerValues header name with
  | [value] => if trimSpace value = "" then none else some (trimSpace value)
  | _ => none

/-- A value of `Auto-Submitted` that marks automatic mail. -/
def submittedAutomatically (value : String) : Bool :=
  trimSpace value != "" && Store.lowerAscii (trimSpace value).toList != "no".toList

/-- Whether some value of `Auto-Submitted` marks the message. -/
def automatedHeader (header : List Field) : Bool :=
  (headerValues header "Auto-Submitted").any submittedAutomatically

/-- `strings.ContainsAny` of the characters. -/
def containsAny (s characters : String) : Bool :=
  s.toList.any (fun c => characters.toList.contains c)

/-- A message id in angle brackets without blanks. -/
def validMessageID (value : String) : Bool :=
  decide (3 ≤ value.utf8ByteSize) && value.toList.head? == some '<' &&
    value.toList.getLast? == some '>' && !containsAny value "\r\n\t "

/-- What is needed of the functions of `strings` and `unicode`; of `ToLower` its values on
ASCII are fixed. -/
structure Go where
  toLower : String → String
  letterOrDigit : Char → Bool
  toLower_ascii : ∀ s, s.toList.all (fun c => decide (c.toNat < 128)) = true →
    toLower s = String.ofList (Store.lowerAscii s.toList)

/-- The functions on ASCII alone. -/
def asciiGo : Go where
  toLower := fun s => String.ofList (Store.lowerAscii s.toList)
  letterOrDigit := Char.isAlphanum
  toLower_ascii := fun _ _ => rfl

/-- An address in the form in which addresses are compared; empty if it is none. -/
def canonicalAddress (go : Go) (value : String) : String :=
  let value := go.toLower (trimSpace value)
  if value = "" ∨ value.utf8ByteSize > 320 ∨ !containsAny value "@" ∨ containsAny value "\r\n\t ,"
  then "" else value

/-! ### Numbers -/

/-- The decimal digits of a number, with fuel for so many. -/
def decimal : Nat → Nat → List Char
  | 0, _ => []
  | fuel + 1, n =>
      if n < 10 then [Nat.digitChar n] else decimal fuel (n / 10) ++ [Nat.digitChar (n % 10)]

/-- `strconv.Itoa` and `strconv.FormatInt`. -/
def formatInt (n : Int) : String :=
  if n < 0 then String.ofList ('-' :: decimal (n.natAbs + 1) n.natAbs)
  else String.ofList (decimal (n.toNat + 1) n.toNat)

/-- The value that digits are read as. -/
def readDigits (digits : List Char) : Nat :=
  digits.foldl (fun n c => n * 10 + (c.toNat - '0'.toNat)) 0

theorem isDigit_digitChar {n : Nat} (small : n < 10) : (Nat.digitChar n).isDigit = true := by
  have each : ∀ m < 10, (Nat.digitChar m).isDigit = true := by decide
  exact each n small

theorem decimal_digits (fuel n : Nat) : ∀ c ∈ decimal fuel n, c.isDigit = true := by
  induction fuel generalizing n with
  | zero => simp [decimal]
  | succ fuel ih =>
    intro c member
    rw [decimal] at member
    split at member
    · rename_i small
      rw [List.mem_singleton.mp member]
      exact isDigit_digitChar small
    · rcases List.mem_append.mp member with front | last
      · exact ih (n / 10) c front
      · rw [List.mem_singleton.mp last]
        exact isDigit_digitChar (Nat.mod_lt n (by decide))

theorem readDigits_concat (digits : List Char) (digit : Nat) (small : digit < 10) :
    readDigits (digits ++ [Nat.digitChar digit]) = readDigits digits * 10 + digit := by
  rw [readDigits, List.foldl_append]
  show readDigits digits * 10 + ((Nat.digitChar digit).toNat - 48) = _
  rw [Nat.toNat_digitChar_of_lt_ten small]
  omega

theorem readDigits_decimal (fuel n : Nat) (enough : n < fuel) :
    readDigits (decimal fuel n) = n := by
  induction fuel generalizing n with
  | zero => omega
  | succ fuel ih =>
    rw [decimal]
    split
    · rename_i small
      have read := readDigits_concat [] n small
      simpa [readDigits] using read
    · rename_i large
      rw [readDigits_concat _ _ (Nat.mod_lt n (by decide)), ih (n / 10) (by omega)]
      omega

theorem decimal_ne_nil (fuel n : Nat) : decimal (fuel + 1) n ≠ [] := by
  rw [decimal]
  split <;> simp

theorem formatInt_toList {n : Int} (natural : 0 ≤ n) :
    (formatInt n).toList = decimal (n.toNat + 1) n.toNat := by
  rw [formatInt, if_neg (by omega), String.toList_ofList]

theorem decimal_eq_toDigits (fuel n : Nat) (enough : n < fuel) :
    decimal fuel n = Nat.toDigits 10 n := by
  induction fuel generalizing n with
  | zero => omega
  | succ fuel ih =>
    rw [decimal]
    split
    · rename_i small
      exact (Nat.toDigits_of_lt_base small).symm
    · rename_i large
      rw [ih (n / 10) (by omega)]
      exact (Nat.toDigits_of_base_le (by decide) (by omega)).symm

/-- A natural number is written as Lean writes it. -/
theorem formatInt_natCast (n : Nat) : formatInt n = toString n := by
  rw [formatInt, if_neg (by omega), Int.toNat_natCast, decimal_eq_toDigits _ _ (Nat.lt_succ_self n)]
  rfl

/-- A number is read back from what it is written as, if it is not too large. -/
theorem parseInt64_formatInt (n : Int) (natural : 0 ≤ n) :
    Jmap.parseInt64 (formatInt n) = if n.toNat < 2 ^ 63 then some n else none := by
  have digits := decimal_digits (n.toNat + 1) n.toNat
  have value := readDigits_decimal (n.toNat + 1) n.toNat (Nat.lt_succ_self _)
  have some_ := decimal_ne_nil n.toNat n.toNat
  have text := formatInt_toList natural
  obtain ⟨first, rest, shape⟩ := List.exists_cons_of_ne_nil some_
  have digit : first.isDigit = true := digits first (by rw [shape]; exact List.mem_cons_self)
  have minus : first ≠ '-' := by
    rintro rfl
    cases digit
  have plus : first ≠ '+' := by
    rintro rfl
    cases digit
  have all : (first :: rest).all Char.isDigit = true := by
    rw [← shape]
    exact List.all_eq_true.mpr digits
  rw [shape] at value text
  rw [readDigits] at value
  simp only [Jmap.parseInt64, text]
  split
  · rename_i equal
    exact absurd (List.cons.inj equal).1 minus
  · rename_i equal
    exact absurd (List.cons.inj equal).1 plus
  · simp only [List.isEmpty_cons, all, Bool.not_true, Bool.or_self, Bool.false_eq_true, if_false,
      value, Int.toNat_of_nonneg natural]

end OctoMail.Mailflow
