import OctoMail.Mailflow.Header
import OctoMail.TextLines

/-!
# Signed return paths

The return path of outgoing mail has the tenant, the message and a tag in its local part. A local
part is octets, as it arrives; `strings.ToLower` is the library's, with its values on ASCII fixed,
and so is HMAC-SHA256. A parsed token is one that was signed, in its one spelling up to the case of
its letters.
-/

namespace OctoMail.Deliverability.Verp

open List TextLines

def ascii (text : String) : Bytes := text.toList.map (fun c => UInt8.ofNat c.toNat)

def lower (text : Bytes) : Bytes := text.map (fun o => if 65 ≤ o ∧ o ≤ 90 then o + 32 else o)

/-- `strings.ToLower`, of which the values on ASCII are fixed. -/
structure Lowering where
  toLower : Bytes → Bytes
  toLower_ascii : ∀ text, text.all (fun o => decide (o < 128)) = true → toLower text = lower text

def asciiLowering : Lowering := ⟨lower, fun _ _ => rfl⟩

structure Library extends Lowering where
  hmacSHA256 : Bytes → Bytes → Bytes

/-! ### Base32 -/

def base32Alphabet : Bytes := ascii "ABCDEFGHIJKLMNOPQRSTUVWXYZ234567"

/-- The bits of an octet, the highest first. -/
def bits (o : UInt8) : List Bool := (List.range 8).map (fun i => o.toNat.testBit (7 - i))

def number (bits : List Bool) : Nat := bits.foldl (fun n bit => 2 * n + bit.toNat) 0

/-- Groups of five bits; the last one is filled with zeros. -/
def quintets : List Bool → List Nat
  | a :: b :: c :: d :: e :: rest => number [a, b, c, d, e] :: quintets rest
  | [] => []
  | short => [number ((short ++ List.replicate 4 false).take 5)]

/-- `EncodeToString` of the standard alphabet without padding. -/
def base32 (octets : Bytes) : Bytes :=
  (quintets (octets.flatMap bits)).map (fun n => base32Alphabet.getD n 65)

/-! ### Tokens -/

def verpPrefix : Bytes := ascii "bounces+"

def dot : UInt8 := 46

def formatInt (n : Int) : Bytes := ascii (Mailflow.formatInt n)

/-- `strconv.ParseInt(s, 10, 64)`, octet by octet. -/
def parseInt (s : Bytes) : Option Int :=
  Jmap.parseInt64 (String.ofList (s.map (fun o => Char.ofNat o.toNat)))

def verpToken (tenantID msgID : Int) : Bytes :=
  verpPrefix ++ formatInt tenantID ++ [dot] ++ formatInt msgID

def verpMAC (lib : Library) (tenantID msgID : Int) (key : Bytes) : Bytes :=
  let sum := (lib.hmacSHA256 key (formatInt tenantID ++ [dot] ++ formatInt msgID)).take 12
  lib.toLower (base32 sum)

def signedVERPToken (lib : Library) (tenantID msgID : Int) (key : Bytes) : Bytes :=
  if key = [] then verpToken tenantID msgID
  else verpToken tenantID msgID ++ [dot] ++ verpMAC lib tenantID msgID key

def trimPrefix (text start : Bytes) : Bytes :=
  if start.isPrefixOf text then text.drop start.length else text

/-- `ParseVERP`; all behind the first dot is the second number. -/
def parseVERP (lib : Library) (localpart : Bytes) : Option (Int × Int) := do
  let lp := trimPrefix (lib.toLower localpart) verpPrefix
  guard (dot ∈ lp)
  let ti ← parseInt (lp.takeWhile (· != dot))
  let mi ← parseInt ((lp.dropWhile (· != dot)).drop 1)
  return (ti, mi)

def parseCanonInt (s : Bytes) : Option Int := do
  let n ← parseInt s
  if n < 0 ∨ formatInt n ≠ s then none else some n

def parseSignedVERP (lib : Library) (localpart key : Bytes) : Option (Int × Int) :=
  if key = [] then parseVERP lib localpart
  else
    match (trimPrefix (lib.toLower localpart) verpPrefix).splitOn dot with
    | [first, second, tag] => do
        let ti ← parseCanonInt first
        let mi ← parseCanonInt second
        if tag = verpMAC lib ti mi key then some (ti, mi) else none
    | _ => none

/-! ### Numbers -/

/-- A number that is not negative and fits 64 bits. -/
def Natural64 (n : Int) : Prop := 0 ≤ n ∧ n < 2 ^ 63

variable {n msgID tenantID : Int} {text key : Bytes}

theorem parseInt64_lt {text : String} (parsed : Jmap.parseInt64 text = some n) : n < 2 ^ 63 := by
  unfold Jmap.parseInt64 at parsed
  simp only [Option.ite_none_left_eq_some] at parsed
  have value := parsed.2
  split at value
  all_goals
    simp only [Bool.false_eq_true, if_true, if_false, Option.ite_none_right_eq_some,
      Option.some.injEq] at value
    omega

theorem formatInt_chars (natural : 0 ≤ n) :
    ∀ c ∈ (Mailflow.formatInt n).toList, 48 ≤ c.toNat ∧ c.toNat ≤ 57 := by
  intro c inside
  rw [Mailflow.formatInt_toList natural] at inside
  have digit := Mailflow.decimal_digits _ _ c inside
  simpa [Char.isDigit, UInt32.le_iff_toNat_le] using digit

theorem toNat_octet {c : Char} (small : c.toNat < 256) : (UInt8.ofNat c.toNat).toNat = c.toNat := by
  rw [UInt8.toNat_ofNat', Nat.mod_eq_of_lt small]

theorem formatInt_digits (natural : 0 ≤ n) : ∀ o ∈ formatInt n, 48 ≤ o.toNat ∧ o.toNat ≤ 57 := by
  intro o member
  obtain ⟨c, inside, rfl⟩ := mem_map.mp member
  have digit := formatInt_chars natural c inside
  rwa [toNat_octet (by omega)]

theorem formatInt_ne_nil (natural : 0 ≤ n) : formatInt n ≠ [] := by
  rw [formatInt, ascii, Mailflow.formatInt_toList natural]
  exact mt map_eq_nil_iff.mp (Mailflow.decimal_ne_nil _ _)

theorem parseInt_formatInt (natural : Natural64 n) : parseInt (formatInt n) = some n := by
  have back : (formatInt n).map (fun o => Char.ofNat o.toNat) = (Mailflow.formatInt n).toList := by
    rw [formatInt, ascii, map_map]
    refine (map_congr_left fun c inside => ?_).trans (map_id _)
    have digit := formatInt_chars natural.1 c inside
    simp only [Function.comp, toNat_octet (show c.toNat < 256 by omega), Char.ofNat_toNat, id]
  obtain ⟨least, most⟩ := natural
  rw [parseInt, back, String.ofList_toList, Mailflow.parseInt64_formatInt n least,
    if_pos (by omega)]

/-- A number is read in its one spelling only. -/
theorem parseCanonInt_iff {s : Bytes} :
    parseCanonInt s = some n ↔ Natural64 n ∧ s = formatInt n := by
  unfold parseCanonInt
  constructor
  · intro parsed
    obtain ⟨m, read, kept⟩ := Option.bind_eq_some_iff.mp parsed
    split at kept
    · cases kept
    rename_i canonical
    cases kept
    obtain ⟨natural, spelled⟩ := not_or.mp canonical
    exact ⟨⟨not_lt.mp natural, parseInt64_lt read⟩, (not_not.mp spelled).symm⟩
  · rintro ⟨natural, rfl⟩
    rw [parseInt_formatInt natural]
    simp [natural.1]

/-! ### Texts that lowering keeps -/

/-- ASCII without capitals. -/
def Settled (text : Bytes) : Prop := ∀ o ∈ text, o.toNat < 65 ∨ 90 < o.toNat ∧ o.toNat < 128

theorem Settled.append {first second : Bytes} (left : Settled first) (right : Settled second) :
    Settled (first ++ second) := by
  intro o member
  rcases mem_append.mp member with inside | inside
  · exact left o inside
  · exact right o inside

theorem Settled.toLower (settled : Settled text) (lib : Library) : lib.toLower text = text := by
  rw [lib.toLower_ascii]
  · refine (map_congr_left fun o inside => ?_).trans (map_id _)
    have plain := settled o inside
    rw [if_neg]
    · rfl
    · rintro ⟨low, high⟩
      have low := UInt8.le_iff_toNat_le.mp low
      have high := UInt8.le_iff_toNat_le.mp high
      simp at low high
      omega
  · refine all_eq_true.mpr fun o inside => decide_eq_true ?_
    have plain := settled o inside
    rw [UInt8.lt_iff_toNat_lt]
    simp
    omega

theorem settled_formatInt (natural : 0 ≤ n) : Settled (formatInt n) := by
  intro o member
  have digit := formatInt_digits natural o member
  omega

theorem dot_formatInt (natural : 0 ≤ n) : dot ∉ formatInt n := by
  intro member
  have digit := formatInt_digits natural dot member
  exact absurd digit.1 (by decide)

/-- A digit of base32 when it is lowered. -/
theorem base32_letter : (65 :: base32Alphabet).all (fun o => decide (o.toNat < 128) &&
    (lower [o]).all (fun o => decide (o.toNat < 65 ∨ 90 < o.toNat ∧ o.toNat < 128) && o != dot)) =
      true := by
  decide +kernel

theorem base32_mem {octets : Bytes} {o : UInt8} (member : o ∈ base32 octets) :
    o ∈ 65 :: base32Alphabet := by
  obtain ⟨n, _, rfl⟩ := mem_map.mp member
  rw [getD_eq_getElem?_getD]
  cases here : base32Alphabet[n]? with
  | none => exact mem_cons_self
  | some o => exact mem_cons_of_mem _ (mem_of_getElem? here)

theorem verpMAC_spec (lib : Library) (tenantID msgID : Int) (key : Bytes) :
    Settled (verpMAC lib tenantID msgID key) ∧ dot ∉ verpMAC lib tenantID msgID key := by
  have lowered : ∀ octets, ∀ o ∈ lib.toLower (base32 octets),
      (o.toNat < 65 ∨ 90 < o.toNat ∧ o.toNat < 128) ∧ o ≠ dot := by
    intro octets o member
    have letters := fun digit inside =>
      Bool.and_eq_true_iff.mp
        (all_eq_true.mp base32_letter digit (@base32_mem octets digit inside))
    rw [lib.toLower_ascii] at member
    · obtain ⟨digit, inside, rfl⟩ := mem_map.mp member
      have letter := all_eq_true.mp (letters digit inside).2 _ (mem_cons_self)
      rwa [Bool.and_eq_true, decide_eq_true_eq, bne_iff_ne] at letter
    · refine all_eq_true.mpr fun digit inside => decide_eq_true ?_
      rw [UInt8.lt_iff_toNat_lt]
      exact of_decide_eq_true (letters digit inside).1
  exact ⟨fun o member => (lowered _ o member).1, fun member => (lowered _ dot member).2 rfl⟩

/-! ### Exactly the signed tokens -/

/-- A token without its start. -/
def signed (lib : Library) (tenantID msgID : Int) (key : Bytes) : Bytes :=
  formatInt tenantID ++ dot :: (formatInt msgID ++ dot :: verpMAC lib tenantID msgID key)

theorem signedVERPToken_eq (lib : Library) (keyed : key ≠ []) (tenantID msgID : Int) :
    signedVERPToken lib tenantID msgID key = verpPrefix ++ signed lib tenantID msgID key := by
  rw [signedVERPToken, if_neg keyed, verpToken, signed]
  simp

theorem splitOn_signed (lib : Library) (key : Bytes) (tenant : 0 ≤ tenantID)
    (msg : 0 ≤ msgID) : (signed lib tenantID msgID key).splitOn dot =
      [formatInt tenantID, formatInt msgID, verpMAC lib tenantID msgID key] := by
  rw [signed, splitOn_append_cons_self_of_not_mem (dot_formatInt tenant),
    splitOn_append_cons_self_of_not_mem (dot_formatInt msg),
    splitOn_eq_singleton (verpMAC_spec lib tenantID msgID key).2]

/-- The start is not taken from a text that begins with a digit. -/
theorem trimPrefix_iff {rest : Bytes} (digit : ∀ o ∈ rest.head?, o.toNat ≤ 57) :
    trimPrefix text verpPrefix = rest ↔ text = verpPrefix ++ rest ∨ text = rest := by
  unfold trimPrefix
  split
  · rename_i begins
    obtain ⟨more, rfl⟩ := isPrefixOf_iff_prefix.mp begins
    rw [drop_left, append_cancel_left_eq]
    refine ⟨.inl, fun either => either.resolve_right ?_⟩
    rintro rfl
    exact absurd (digit 98 rfl) (by decide)
  · rename_i begins
    refine ⟨.inr, fun either => either.resolve_left ?_⟩
    rintro rfl
    exact begins (List.isPrefixOf_iff_prefix.mpr (prefix_append _ _))

theorem parse_signed_iff (lib : Library) (keyed : key ≠ []) (localpart : Bytes)
    (tenantID msgID : Int) :
    parseSignedVERP lib localpart key = some (tenantID, msgID) ↔
      Natural64 tenantID ∧ Natural64 msgID ∧
        trimPrefix (lib.toLower localpart) verpPrefix = signed lib tenantID msgID key := by
  rw [parseSignedVERP, if_neg keyed]
  constructor
  · intro parsed
    split at parsed <;> try contradiction
    rename_i first second tag parts
    obtain ⟨ti, tenant, parsed⟩ := Option.bind_eq_some_iff.mp parsed
    obtain ⟨mi, msg, parsed⟩ := Option.bind_eq_some_iff.mp parsed
    rw [Option.ite_none_right_eq_some] at parsed
    obtain ⟨tagged, same⟩ := parsed
    obtain ⟨rfl, rfl⟩ := Prod.mk.inj (Option.some.inj same)
    obtain ⟨tenantNatural, rfl⟩ := parseCanonInt_iff.mp tenant
    obtain ⟨msgNatural, rfl⟩ := parseCanonInt_iff.mp msg
    refine ⟨tenantNatural, msgNatural, ?_⟩
    have whole : [dot].intercalate ((trimPrefix (lib.toLower localpart) verpPrefix).splitOn dot) =
        trimPrefix (lib.toLower localpart) verpPrefix := intercalate_splitOn dot
    rw [parts, tagged] at whole
    rw [← whole]
    simp [signed]
  · rintro ⟨tenant, msg, spelled⟩
    rw [spelled, splitOn_signed lib key tenant.1 msg.1]
    simp [parseCanonInt_iff.mpr ⟨tenant, rfl⟩, parseCanonInt_iff.mpr ⟨msg, rfl⟩]

theorem signed_begins {lib : Library} (tenant : 0 ≤ tenantID) :
    ∀ o ∈ (signed lib tenantID msgID key).head?, o.toNat ≤ 57 := by
  obtain ⟨first, rest, shape⟩ := exists_cons_of_ne_nil (formatInt_ne_nil tenant)
  intro o head
  rw [signed, shape, cons_append, head?_cons, Option.mem_some_iff] at head
  subst head
  exact (formatInt_digits tenant first (by rw [shape]; exact mem_cons_self)).2

theorem signed_settled (lib : Library) (keyed : key ≠ [])
    (tenant : 0 ≤ tenantID) (msg : 0 ≤ msgID) :
    Settled (signedVERPToken lib tenantID msgID key) := by
  have start : Settled verpPrefix := by
    have each : verpPrefix.all (fun o => decide (o.toNat < 65 ∨ 90 < o.toNat ∧ o.toNat < 128)) =
        true := by decide +kernel
    exact fun o inside => of_decide_eq_true (all_eq_true.mp each o inside)
  have separator : Settled [dot] := fun o inside => by
    rw [mem_singleton.mp inside]
    exact .inl (by decide)
  rw [signedVERPToken, if_neg keyed, verpToken]
  exact ((((start.append (settled_formatInt tenant)).append separator).append
    (settled_formatInt msg)).append separator).append (verpMAC_spec lib tenantID msgID key).1

/-- Lowering twice is lowering once, for ASCII. -/
theorem settled_lower (plain : text.all (fun o => decide (o < 128)) = true) :
    Settled (lower text) := by
  intro o member
  obtain ⟨own, inside, rfl⟩ := mem_map.mp member
  have small := UInt8.lt_iff_toNat_lt.mp (of_decide_eq_true (all_eq_true.mp plain own inside))
  simp at small
  split
  · rename_i capital
    have low := UInt8.le_iff_toNat_le.mp capital.1
    have high := UInt8.le_iff_toNat_le.mp capital.2
    simp at low high
    rw [UInt8.toNat_add]
    simp
    omega
  · rename_i other
    rw [UInt8.le_iff_toNat_le, UInt8.le_iff_toNat_le] at other
    simp at other
    omega

/-- A local part is parsed as a tenant and a message exactly if it is, lowered, the token signed for
them, with or without its start. So a token is parsed back, the case of letters does not matter, and
an accepted local part has the three components of its token and no others. -/
theorem parseSignedVERP_exact (lib : Library) (key : Bytes) (keyed : key ≠ []) :
    (∀ localpart tenantID msgID, parseSignedVERP lib localpart key = some (tenantID, msgID) ↔
      Natural64 tenantID ∧ Natural64 msgID ∧
        (lib.toLower localpart = signedVERPToken lib tenantID msgID key ∨
          verpPrefix ++ lib.toLower localpart = signedVERPToken lib tenantID msgID key)) ∧
      (∀ tenantID msgID, Natural64 tenantID → Natural64 msgID →
        parseSignedVERP lib (signedVERPToken lib tenantID msgID key) key =
          some (tenantID, msgID)) ∧
      (∀ localpart, localpart.all (fun o => decide (o < 128)) = true →
        parseSignedVERP lib (lower localpart) key = parseSignedVERP lib localpart key) ∧
      ∀ localpart tenantID msgID, parseSignedVERP lib localpart key = some (tenantID, msgID) →
        (trimPrefix (lib.toLower localpart) verpPrefix).splitOn dot =
          [formatInt tenantID, formatInt msgID, verpMAC lib tenantID msgID key] := by
  have exact_ : ∀ localpart tenantID msgID,
      parseSignedVERP lib localpart key = some (tenantID, msgID) ↔
        Natural64 tenantID ∧ Natural64 msgID ∧
          (lib.toLower localpart = signedVERPToken lib tenantID msgID key ∨
            verpPrefix ++ lib.toLower localpart = signedVERPToken lib tenantID msgID key) := by
    intro localpart tenantID msgID
    rw [parse_signed_iff lib keyed]
    refine and_congr_right fun tenant => and_congr_right fun _ => ?_
    rw [trimPrefix_iff (signed_begins tenant.1), signedVERPToken_eq lib keyed,
      append_cancel_left_eq]
  refine ⟨exact_, fun tenantID msgID tenant msg => ?_, fun localpart plain => ?_,
    fun localpart tenantID msgID parsed => ?_⟩
  · refine (exact_ _ tenantID msgID).mpr ⟨tenant, msg, .inl ?_⟩
    exact (signed_settled lib keyed tenant.1 msg.1).toLower lib
  · have lowered : lib.toLower (lower localpart) = lib.toLower localpart := by
      rw [(settled_lower plain).toLower lib, lib.toLower_ascii localpart plain]
    unfold parseSignedVERP parseVERP
    rw [lowered]
  · obtain ⟨tenant, msg, spelled⟩ := (parse_signed_iff lib keyed _ _ _).mp parsed
    rw [spelled, splitOn_signed lib key tenant.1 msg.1]

/-- A library with a constant sum. -/
def asciiLibrary : Library where
  toLowering := asciiLowering
  hmacSHA256 := fun _ _ => List.replicate 32 255

/-- A token in capitals and without its start. -/
theorem parseSignedVERP_exact_capitals :
    parseSignedVERP asciiLibrary (ascii "7.12.7777777777777777777Q") [1] = some (7, 12) := by
  refine (((parseSignedVERP_exact asciiLibrary [1] (by decide)).1 _ 7 12).mpr ⟨?_, ?_, .inr ?_⟩)
  · exact ⟨by decide, by decide⟩
  · exact ⟨by decide, by decide⟩
  · decide +kernel

end OctoMail.Deliverability.Verp
