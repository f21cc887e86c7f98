import Mathlib.Tactic.Common

/-!
# Sections of a message

The part of a message that FETCH, CATENATE and URLFETCH take (`extractSection` in
`protocol/imapd/fetch.go`), and the octets and texts that the server's lines are made of.

Message parsing belongs to a library and is a parameter, as are Go's functions on Unicode
text. A parsed part is the record that the server reads of it. A section with a negative
offset makes the server panic, and the text of the panic goes into the tagged answer.
-/

namespace OctoMail.Imap.Wire

/-! ### Octets -/

abbrev Bytes := List UInt8

abbrev lf : UInt8 := 10
abbrev cr : UInt8 := 13
abbrev space : UInt8 := 32
abbrev quoteMark : UInt8 := 34
abbrev openParen : UInt8 := 40
abbrev closeParen : UInt8 := 41
def ascii (text : String) : Bytes := text.toList.map (fun c => UInt8.ofNat c.toNat)

def number (n : Nat) : Bytes := (Nat.toDigits 10 n).map (fun c => UInt8.ofNat c.toNat)

/-! ### Parts of a message -/

/-- What a part has beside its own parts. The content its reader gives comes with whether
the reading failed at its end. -/
structure PartInfo where
  mediaType : Bytes := []
  headerOffset : Int := 0
  bodyOffset : Int := 0
  endOffset : Int := 0
  reader : Option (Bytes × Bool) := none
deriving DecidableEq, Repr

inductive Part where
  | mk (info : PartInfo) (parts : List Part)

def Part.info : Part → PartInfo
  | .mk info _ => info

def Part.parts : Part → List Part
  | .mk _ parts => parts

/-- What the server takes from libraries. -/
structure Library where
  /-- `message.EnsurePart`, with whether it failed. -/
  ensurePart : Bytes → Part × Bool
  /-- `fmt.Sscan` into an integer that was zero. -/
  sscan : Bytes → Int
  toUpper : Bytes → Bytes
  toLower : Bytes → Bytes
  trimSpace : Bytes → Bytes
  fields : Bytes → List Bytes

def emptyLine : Bytes := [cr, lf, cr, lf]

/-- What follows the first empty line. -/
def afterEmptyLine : Bytes → Option Bytes
  | [] => none
  | o :: rest =>
      if emptyLine.isPrefixOf (o :: rest) then some (rest.drop 3) else afterEmptyLine rest

/-! ### Sections -/

/-- A section that a FETCH asks for, with its offset and count where it has them. -/
structure BodySection where
  spec : Bytes
  range : Option (Int × Int) := none
  /-- The item as it was sent. -/
  raw : Bytes
  binary : Bool := false
  binarySize : Bool := false
deriving DecidableEq, Repr

section Sections

variable (library : Library)

/-- The bytes of a range; slicing at a negative offset is a panic. -/
def applyPartial (out : Bytes) (sec : BodySection) : Except Int Bytes :=
  match sec.range with
  | none => .ok out
  | some (off, count) =>
      if off < 0 then .error off
      else
        let out := out.drop off.toNat
        .ok (if 0 ≤ count then out.take count.toNat else out)

def indexHeaderEnd (full : Bytes) : Nat :=
  (afterEmptyLine full).elim full.length (fun rest => full.length - rest.length)

def sliceRange (b : Bytes) (lo hi : Int) : Bytes :=
  if lo < 0 ∨ (b.length : Int) < hi ∨ hi < lo then [] else (b.take hi.toNat).drop lo.toNat

/-- `strings.Split(.., "\r\n")`, within a line. -/
def splitLines (line : Bytes) : Bytes → List Bytes
  | [] => [line]
  | [o] => [line ++ [o]]
  | o :: o' :: rest =>
      if o = cr ∧ o' = lf then line :: splitLines [] rest else splitLines (line ++ [o]) (o' :: rest)

/-- The named header lines, or all but those. -/
def extractHeaderFields (header fieldsRaw : Bytes) (exclude : Bool) : Bytes :=
  match fieldsRaw.findIdx? (· == openParen), fieldsRaw.reverse.findIdx? (· == closeParen) with
  | some lp, some back =>
      let rp := fieldsRaw.length - 1 - back
      if rp ≤ lp then header
      else
        let want := (library.fields ((fieldsRaw.take rp).drop (lp + 1))).map library.toLower
        let kept := (splitLines [] header).filter (fun line => line != [] &&
          (want.contains (library.toLower (library.trimSpace (line.takeWhile (· != 58))))) != exclude)
        kept.flatMap (· ++ [cr, lf]) ++ [cr, lf]
  | _, _ => header

/-- The part under a path of numbers; a single part is its own first. -/
def walk (nums : Bytes) : List Bytes → Part → Option Part
  | [], p => some p
  | seg :: segs, p =>
      let idx := library.sscan seg
      if idx < 1 ∨ (p.parts.length : Int) < idx then
        if p.parts.isEmpty ∧ seg = nums then some p else none
      else (p.parts[(idx - 1).toNat]?).bind (walk nums segs)

def dot : UInt8 := 46

def extractNumericPart (full spec : Bytes) : Bytes :=
  let (part, failed) := library.ensurePart full
  if failed ∧ part.parts.isEmpty then []
  else
    let keyword := [".MIME", ".HEADER", ".TEXT"].find?
      (fun keyword => (ascii keyword).isSuffixOf (library.toUpper spec))
    let nums := keyword.elim spec (fun keyword => spec.take (spec.length - keyword.length))
    match walk library nums (nums.splitOn dot) part with
    | none => []
    | some p =>
        let i := p.info
        if keyword = some ".MIME" ∨ keyword = some ".HEADER" then
          if i.headerOffset < i.bodyOffset ∧ 0 ≤ i.headerOffset then
            sliceRange full i.headerOffset i.bodyOffset
          else []
        else if i.bodyOffset < i.endOffset ∧ 0 ≤ i.bodyOffset then
          sliceRange full i.bodyOffset i.endOffset
        else []

/-- The decoded content of a part. -/
def decodeBinaryPart (full spec : Bytes) : Bytes :=
  let (part, failed) := library.ensurePart full
  if failed ∧ part.parts.isEmpty ∧ part.info.mediaType = [] then []
  else
    match (if spec = [] then some part else walk library spec (spec.splitOn dot) part) with
    | none => []
    | some p =>
        match p.info.reader with
        | some (data, false) => data
        | _ => []

def extractSection (full : Bytes) (sec : BodySection) : Except Int Bytes :=
  if sec.binary then applyPartial (decodeBinaryPart library full sec.spec) sec
  else
    let hdrEnd := indexHeaderEnd full
    let out :=
      if sec.spec = [] then full
      else if sec.spec = ascii "HEADER" then full.take hdrEnd
      else if sec.spec = ascii "TEXT" then full.drop hdrEnd
      else if (ascii "HEADER.FIELDS.NOT").isPrefixOf sec.spec then
        extractHeaderFields library (full.take hdrEnd) sec.raw true
      else if (ascii "HEADER.FIELDS").isPrefixOf sec.spec then
        extractHeaderFields library (full.take hdrEnd) sec.raw false
      else if sec.spec.head?.any (fun o => 49 ≤ o ∧ o ≤ 57) then
        extractNumericPart library full sec.spec
      else full
    applyPartial out sec

end Sections

end OctoMail.Imap.Wire
