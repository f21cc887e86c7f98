import OctoMail.Imap.Sections
import OctoMail.Smtp.Server

/-!
# Texts and URLs that the IMAP server reads

How `protocol/imapd/server.go` and `catenate.go` trim, compare and unquote the texts of a command,
and how the URL of a message or a part of it is taken apart into a mailbox, a UID and a section.
-/

namespace OctoMail.Imap.Input

open Wire
open Smtp (digits)

/-! ### Text -/

def percent : UInt8 := 37
def slash : UInt8 := 47
def semicolon : UInt8 := 59

/-- The encodings of the characters that `unicode.IsSpace` accepts. -/
def spaces : List Bytes :=
  [[9], [10], [11], [12], [13], [32], [0xC2, 0x85], [0xC2, 0xA0], [0xE1, 0x9A, 0x80],
    [0xE2, 0x80, 0x80], [0xE2, 0x80, 0x81], [0xE2, 0x80, 0x82], [0xE2, 0x80, 0x83],
    [0xE2, 0x80, 0x84], [0xE2, 0x80, 0x85], [0xE2, 0x80, 0x86], [0xE2, 0x80, 0x87],
    [0xE2, 0x80, 0x88], [0xE2, 0x80, 0x89], [0xE2, 0x80, 0x8A], [0xE2, 0x80, 0xA8],
    [0xE2, 0x80, 0xA9], [0xE2, 0x80, 0xAF], [0xE2, 0x81, 0x9F], [0xE3, 0x80, 0x80]]

/-- Drop the encodings in front, and first the octets still to be skipped. -/
def trimFront (encodings : List Bytes) : Nat → Bytes → Bytes
  | _, [] => []
  | skipped + 1, _ :: rest => trimFront encodings skipped rest
  | 0, o :: rest =>
      match encodings.find? (fun encoding => encoding.isPrefixOf (o :: rest)) with
      | some encoding => trimFront encodings (encoding.length - 1) rest
      | none => o :: rest

def trimSpace (text : Bytes) : Bytes :=
  (trimFront (spaces.map List.reverse) 0 (trimFront spaces 0 text).reverse).reverse

/-- `strings.ToUpper`, as far as the result is compared with ASCII: besides the ASCII letters
there are two others that have an ASCII capital. -/
def toUpper : Bytes → Bytes
  | 0xC4 :: 0xB1 :: rest => 73 :: toUpper rest
  | 0xC5 :: 0xBF :: rest => 83 :: toUpper rest
  | o :: rest => (if 97 ≤ o ∧ o ≤ 122 then o - 32 else o) :: toUpper rest
  | [] => []

/-- `strings.EqualFold` with a word that has neither K nor S. -/
def equalFold (text : Bytes) (word : String) : Bool :=
  text.map (fun o => if 97 ≤ o ∧ o ≤ 122 then o - 32 else o) == ascii word

def unquote (s : Bytes) : Bytes :=
  let s := trimSpace s
  if 2 ≤ s.length ∧ s.head? = some quoteMark ∧ s.getLast? = some quoteMark then
    (s.drop 1).dropLast
  else s

def normalizeMailbox (name : Bytes) : Bytes :=
  if equalFold name "INBOX" then ascii "Inbox" else name

/-! ### URLs -/

/-- What follows a text's first occurrence of another. -/
def afterFirst (sought : Bytes) : Bytes → Option Bytes
  | [] => if sought = [] then some [] else none
  | o :: rest =>
      if sought.isPrefixOf (o :: rest) then some ((o :: rest).drop sought.length)
      else afterFirst sought rest

def hexDigit (o : UInt8) : Option Nat :=
  if 48 ≤ o ∧ o ≤ 57 then some (o.toNat - 48)
  else if 65 ≤ o ∧ o ≤ 70 then some (o.toNat - 55)
  else if 97 ≤ o ∧ o ≤ 102 then some (o.toNat - 87)
  else none

def hexOctet (high low : UInt8) : Option UInt8 := do
  let high ← hexDigit high
  let low ← hexDigit low
  return UInt8.ofNat (high * 16 + low)

/-- Octets are decoded one by one, and those of an escape are skipped. -/
def urlDecodeFrom : Nat → Bytes → Bytes
  | _, [] => []
  | skipped + 1, _ :: rest => urlDecodeFrom skipped rest
  | 0, o :: rest =>
      match (if o = percent then
          match rest with
          | high :: low :: _ => hexOctet high low
          | _ => none
        else none) with
      | some decoded => decoded :: urlDecodeFrom 2 rest
      | none => o :: urlDecodeFrom 0 rest

def urlDecode (s : Bytes) : Bytes := urlDecodeFrom 0 s

/-- `strconv.ParseUint(.., 10, 32)` where the error is ignored: a number that is too large
counts as the largest. -/
def parseUint32 (text : Bytes) : Nat := ((digits text).map (fun n => min n (2 ^ 32 - 1))).getD 0

/-- The UID and the section that the parts of a URL give; the last of each counts. -/
def urlParameter (found : Nat × Bytes) (part : Bytes) : Nat × Bytes :=
  if (ascii "UID=").isPrefixOf (toUpper part) then (parseUint32 (part.drop 4), found.2)
  else if (ascii "SECTION=").isPrefixOf (toUpper part) then (found.1, part.drop 8)
  else found

/-- The path of a URL. -/
def urlPath (url : Bytes) : Except String Bytes :=
  match afterFirst (ascii "://") url with
  | none => .ok url
  | some rest =>
      match rest.dropWhile (· != slash) with
      | [] => .error "malformed IMAP URL"
      | path => .ok path

def parseIMAPURLPath (url : Bytes) : Except String (Bytes × Nat × Bytes) := do
  let path ← urlPath url
  let segs := (if [slash].isPrefixOf path then path.drop 1 else path).splitOn slash
  let mbSeg := segs.headD []
  if mbSeg = [] then throw "IMAP URL missing mailbox"
  let mbName := normalizeMailbox (urlDecode (mbSeg.takeWhile (· != semicolon)))
  let (uid, section_) := (segs.flatMap (·.splitOn semicolon)).foldl urlParameter (0, [])
  if uid = 0 then throw "IMAP URL missing UID"
  return (mbName, uid, section_)

/-- A section without a range. -/
def urlSection (library : Library) (section_ : Bytes) : Wire.BodySection where
  spec := library.toUpper (urlDecode section_)
  raw := ascii "BODY[" ++ section_ ++ ascii "]"

def sectionBytes (library : Library) (full section_ : Bytes) : Except Int Bytes :=
  if section_ = [] then .ok full
  else Wire.extractSection library full (urlSection library section_)

end OctoMail.Imap.Input
