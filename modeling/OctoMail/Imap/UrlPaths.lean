import Mathlib.Data.List.TakeWhile
import OctoMail.Imap.Input

/-!
# IMAP URLs

A URL names a mailbox, a UID and optionally a section of a message. The mailbox and the section
are written with percent escapes for what RFC 5092 does not let stand; the hierarchy separator
may stand. `parseIMAPURLPath` (`protocol/imapd/catenate.go`) takes the first segment of the path
for the mailbox and does not decode the section.

What is proved is when it returns what the URL was built from. INBOX is returned in the spelling
that the server uses for it.
-/

namespace OctoMail.Imap.UrlPaths

open List Wire Input

/-! ### Building a URL -/

/-- The octets of a mailbox or a section that stand for themselves (`bchar`). -/
def bchar (o : UInt8) : Bool :=
  decide (48 ≤ o ∧ o ≤ 57) || decide (65 ≤ o ∧ o ≤ 90) || decide (97 ≤ o ∧ o ≤ 122) ||
    (ascii "-._~!$'()*+,&=:@/").contains o

def hexChar (n : Nat) : UInt8 := UInt8.ofNat (if n < 10 then 48 + n else 55 + n)

def escape (o : UInt8) : Bytes :=
  if bchar o then [o] else [percent, hexChar (o.toNat / 16), hexChar (o.toNat % 16)]

def encode (text : Bytes) : Bytes := text.flatMap escape

def uidText (uid : Nat) : Bytes := ascii "UID=" ++ number uid

def validityText (validity : Option Nat) : Bytes :=
  validity.elim [] (fun n => semicolon :: (ascii "UIDVALIDITY=" ++ number n))

def sectionText (section_ : Option Bytes) : Bytes :=
  section_.elim [] (fun s => slash :: semicolon :: (ascii "SECTION=" ++ encode s))

/-- The path of a URL. -/
def path (name : Bytes) (validity : Option Nat) (uid : Nat) (section_ : Option Bytes) : Bytes :=
  slash :: (encode name ++ validityText validity ++ slash :: semicolon :: uidText uid ++
    sectionText section_)

/-- A URL, relative or with its server. -/
def url (server : Option Bytes) (name : Bytes) (validity : Option Nat) (uid : Nat)
    (section_ : Option Bytes) : Bytes :=
  server.elim [] (fun server => ascii "imap://" ++ server) ++ path name validity uid section_

/-! ### Fixed texts -/

/-- What separates the server from the rest, and the names of parameters. -/
theorem fixed_texts : ascii "://" = [58, slash, slash] ∧
    ascii "imap://" = [105, 109, 97, 112, 58, slash, slash] ∧
    ascii "UID=" = [85, 73, 68, 61] ∧
    ascii "SECTION=" = [83, 69, 67, 84, 73, 79, 78, 61] ∧
    ascii "UIDVALIDITY=" = [85, 73, 68, 86, 65, 76, 73, 68, 73, 84, 89, 61] ∧
    slash ∉ ascii "Inbox" ∧ slash ∉ ascii "INBOX" ∧ bchar percent = false ∧
    bchar semicolon = false ∧ bchar slash = true := by
  decide +kernel

theorem parameter_names : ascii "UID=" = [85, 73, 68, 61] ∧
    ascii "SECTION=" = [83, 69, 67, 84, 73, 79, 78, 61] ∧
    ascii "UIDVALIDITY=" = [85, 73, 68, 86, 65, 76, 73, 68, 73, 84, 89, 61] :=
  ⟨fixed_texts.2.2.1, fixed_texts.2.2.2.1, fixed_texts.2.2.2.2.1⟩

/-- No separator stands in the name of a parameter. -/
theorem parameter_names_flat {separator : UInt8} (one : separator ∈ [percent, slash, semicolon]) :
    separator ∉ ascii "UID=" ∧ separator ∉ ascii "SECTION=" ∧
      separator ∉ ascii "UIDVALIDITY=" := by
  rw [parameter_names.1, parameter_names.2.1, parameter_names.2.2]
  simp only [mem_cons, not_mem_nil, or_false] at one
  rcases one with rfl | rfl | rfl <;> decide

/-! ### Escapes -/

variable {o : UInt8} {text rest : Bytes} {n : Nat}

theorem bchar_parts (stands : bchar o = true) : o ≠ percent ∧ o ≠ semicolon := by
  obtain ⟨_, _, _, _, _, _, _, first, second, _⟩ := fixed_texts
  constructor
  · rintro rfl
    exact Bool.false_ne_true (first.symm.trans stands)
  · rintro rfl
    exact Bool.false_ne_true (second.symm.trans stands)

/-- Everything about one octet is checked for the 256 of them. -/
theorem escape_octet : ∀ o : UInt8, bchar o = false →
    hexOctet (hexChar (o.toNat / 16)) (hexChar (o.toNat % 16)) = some o ∧
      (∀ c ∈ [hexChar (o.toNat / 16), hexChar (o.toNat % 16)], bchar c = true ∧ c ≠ slash) := by
  have all : ∀ n < 256, bchar (UInt8.ofNat n) = false →
      hexOctet (hexChar (n / 16)) (hexChar (n % 16)) = some (UInt8.ofNat n) ∧
        (∀ c ∈ [hexChar (n / 16), hexChar (n % 16)], bchar c = true ∧ c ≠ slash) := by
    decide +kernel
  intro o
  have found := all o.toNat (UInt8.toNat_lt o)
  rwa [UInt8.ofNat_toNat] at found

theorem urlDecode_plain (stands : o ≠ percent) (rest : Bytes) :
    urlDecodeFrom 0 (o :: rest) = o :: urlDecodeFrom 0 rest := by
  rcases rest with _ | ⟨high, _ | ⟨low, rest⟩⟩ <;> simp [urlDecodeFrom, stands]

theorem urlDecode_escape {high low decoded : UInt8} (read : hexOctet high low = some decoded)
    (rest : Bytes) :
    urlDecodeFrom 0 (percent :: high :: low :: rest) = decoded :: urlDecodeFrom 0 rest := by
  rw [urlDecodeFrom, if_pos rfl]
  simp only [read]
  rfl

/-- A text is decoded to what was encoded. -/
theorem urlDecode_encode (text : Bytes) : urlDecode (encode text) = text := by
  rw [urlDecode]
  induction text with
  | nil => rfl
  | cons o text ih =>
    rw [encode, flatMap_cons, escape]
    split
    · rename_i stands
      rw [singleton_append, urlDecode_plain (bchar_parts stands).1]
      exact congrArg _ ih
    · rename_i escaped
      rw [cons_append, cons_append, cons_append, nil_append,
        urlDecode_escape (escape_octet o (by simpa using escaped)).1]
      exact congrArg _ ih

/-- An octet of an encoded text stands for itself or belongs to an escape. -/
theorem mem_encode {c : UInt8} (member : c ∈ encode text) :
    c = percent ∨ bchar c = true ∧ (c = slash → slash ∈ text) := by
  obtain ⟨o, inside, here⟩ := mem_flatMap.mp member
  rw [escape] at here
  split at here
  · rename_i stands
    obtain rfl := mem_singleton.mp here
    exact .inr ⟨stands, fun same => same ▸ inside⟩
  · rename_i escaped
    rcases mem_cons.mp here with rfl | digit
    · exact .inl rfl
    · obtain ⟨stands, apart⟩ := (escape_octet o (by simpa using escaped)).2 c digit
      exact .inr ⟨stands, fun same => absurd same apart⟩

theorem semicolon_encode (text : Bytes) : semicolon ∉ encode text := by
  intro member
  rcases mem_encode member with same | ⟨stands, _⟩
  · cases same
  · exact (bchar_parts stands).2 rfl

theorem slash_encode (flat : slash ∉ text) : slash ∉ encode text := by
  intro member
  rcases mem_encode member with same | ⟨_, level⟩
  · cases same
  · exact flat (level rfl)

theorem encode_eq_self : encode text = text ↔ ∀ o ∈ text, bchar o = true := by
  constructor
  · intro same o member
    by_contra escaped
    -- An escape makes the text longer.
    have longer : text.length < (encode text).length := by
      obtain ⟨front, back, rfl⟩ := append_of_mem member
      have least : ∀ part : Bytes, part.length ≤ (encode part).length := by
        intro part
        induction part with
        | nil => exact Nat.le_refl _
        | cons o part ih =>
          rw [encode, flatMap_cons, length_append, length_cons]
          have one : 1 ≤ (escape o).length := by
            rw [escape]
            split <;> simp
          have others : part.length ≤ (List.flatMap escape part).length := ih
          omega
      have front_ := least front
      have back_ := least back
      simp only [encode, flatMap_append, flatMap_cons, length_append,
        length_cons, escape, if_neg escaped] at front_ back_ ⊢
      simp only [length_nil]
      omega
    rw [same] at longer
    exact Nat.lt_irrefl _ longer
  · intro stand
    induction text with
    | nil => rfl
    | cons o text ih =>
      obtain ⟨here, there⟩ := forall_mem_cons.mp stand
      rw [encode, flatMap_cons, escape, if_pos here]
      exact congrArg _ (ih there)

/-! ### Escapes of separators -/

/-- No escape stands for the separator. -/
def Sound (text : Bytes) : Prop :=
  ∀ high low, [percent, high, low] <:+: text → hexOctet high low ≠ some slash

theorem Sound.suffix (sound : Sound text) (inside : rest <:+ text) :
    Sound rest := fun high low here => sound high low (here.trans inside.isInfix)

theorem Sound.cons (stands : o ≠ percent) (sound : Sound rest) : Sound (o :: rest) := by
  intro high low here
  rcases infix_cons_iff.mp here with first | later
  · exact absurd (cons_prefix_cons.mp first).1.symm stands
  · exact sound high low later

theorem Sound.append {front rest : Bytes} (plain : percent ∉ front) (sound : Sound rest) :
    Sound (front ++ rest) := by
  induction front with
  | nil => exact sound
  | cons o front ih =>
    refine Sound.cons (fun same => plain (same ▸ mem_cons_self)) ?_
    exact ih fun member => plain (.tail _ member)

theorem Sound.encode (sound : Sound rest) (text : Bytes) : Sound (encode text ++ rest) := by
  induction text with
  | nil => exact sound
  | cons o text ih =>
    rw [UrlPaths.encode, flatMap_cons, append_assoc, escape]
    split
    · rename_i stands
      exact Sound.cons (bchar_parts stands).1 ih
    rename_i escaped
    have missing : bchar o = false := by simpa using escaped
    obtain ⟨read, digits⟩ := escape_octet o missing
    obtain ⟨high, low⟩ : hexChar (o.toNat / 16) ≠ percent ∧ hexChar (o.toNat % 16) ≠ percent :=
      ⟨(bchar_parts (digits _ (by simp)).1).1, (bchar_parts (digits _ (by simp)).1).1⟩
    have others := Sound.cons high (Sound.cons low ih)
    show Sound (percent :: hexChar (o.toNat / 16) :: hexChar (o.toNat % 16) ::
      (UrlPaths.encode text ++ rest))
    intro first second here
    rcases infix_cons_iff.mp here with starts | later
    · simp only [cons_prefix_cons] at starts
      obtain ⟨_, rfl, rfl, _⟩ := starts
      rw [read]
      intro same
      cases same
      obtain ⟨_, _, _, _, _, _, _, _, _, stands⟩ := fixed_texts
      exact Bool.false_ne_true (missing.symm.trans stands)
    · exact others first second later

/-- A text without separators is decoded to one without. -/
theorem Sound.decode (sound : Sound text) (flat : slash ∉ text) (skipped : Nat) :
    slash ∉ urlDecodeFrom skipped text := by
  induction text generalizing skipped with
  | nil => simp [urlDecodeFrom]
  | cons o rest ih =>
    have later := ih (sound.suffix (suffix_cons o rest))
      fun member => flat (.tail _ member)
    cases skipped with
    | succ skipped => exact later skipped
    | zero =>
      by_cases stands : o = percent
      · subst stands
        rcases rest with _ | ⟨high, _ | ⟨low, rest⟩⟩
        · simpa [urlDecodeFrom] using flat
        · simpa [urlDecodeFrom] using flat
        · rcases read : hexOctet high low with _ | decoded
          · have shape : urlDecodeFrom 0 (percent :: high :: low :: rest) =
                percent :: urlDecodeFrom 0 (high :: low :: rest) := by
              rw [urlDecodeFrom, if_pos rfl]
              simp only [read]
            rw [shape, mem_cons, not_or]
            exact ⟨by decide, later 0⟩
          · rw [urlDecode_escape read, mem_cons, not_or]
            refine ⟨fun same => sound high low ⟨[], rest, rfl⟩ (same ▸ read), later 2⟩
      · rw [urlDecode_plain stands, mem_cons, not_or]
        exact ⟨fun same => flat (same ▸ mem_cons_self), later 0⟩

theorem number_digit (member : o ∈ number n) : 48 ≤ o ∧ o ≤ 57 := by
  obtain ⟨c, listed, rfl⟩ := mem_map.mp member
  have digit := Char.isDigit_iff_toNat.mp (Nat.isDigit_of_mem_toDigits (by decide)
    (by decide) listed)
  simp only [Char.reduceToNat] at digit
  constructor <;> (rw [UInt8.le_iff_toNat_le, UInt8.toNat_ofNat']; simp; omega)

theorem not_mem_number (other : ¬ (48 ≤ o ∧ o ≤ 57)) : o ∉ number n :=
  fun member => other (number_digit member)

theorem path_sound (name : Bytes) (validity : Option Nat) (uid : Nat) (section_ : Option Bytes) :
    Sound (path name validity uid section_) := by
  have numbers : ∀ n, percent ∉ number n := fun n => not_mem_number (by decide)
  obtain ⟨inUid, inSection, inValidity⟩ := @parameter_names_flat percent (by decide)
  have nothing : Sound [] := fun high low here => by simpa using here.length_le
  have last : Sound (sectionText section_) := by
    cases section_ with
    | none => exact nothing
    | some s =>
      have inside := Sound.encode nothing s
      rw [append_nil] at inside
      refine @Sound.append (slash :: semicolon :: ascii "SECTION=") _ ?_ inside
      simp only [mem_cons, not_or]
      exact ⟨by decide, by decide, inSection⟩
  have middle : Sound (slash :: semicolon :: uidText uid ++ sectionText section_) := by
    refine Sound.append ?_ last
    simp only [uidText, mem_cons, mem_append, not_or]
    exact ⟨by decide, by decide, inUid, numbers uid⟩
  have valid : percent ∉ validityText validity := by
    cases validity with
    | none => exact not_mem_nil
    | some n =>
      simp only [validityText, Option.elim_some, mem_cons, mem_append, not_or]
      exact ⟨by decide, inValidity, numbers n⟩
  rw [path, append_assoc, append_assoc]
  exact Sound.cons (by decide) (Sound.encode (Sound.append valid middle) name)

/-! ### What the parser takes -/

def segments (path : Bytes) : List Bytes :=
  (if [slash].isPrefixOf path then path.drop 1 else path).splitOn slash

/-- The UID and the section of a path. -/
def parameters (path : Bytes) : Nat × Bytes :=
  ((segments path).flatMap (·.splitOn semicolon)).foldl urlParameter (0, [])

/-- The mailbox of a path, as it is written there. -/
def mailboxText (path : Bytes) : Bytes := ((segments path).headD []).takeWhile (· != semicolon)

theorem parse_eq (url : Bytes) : parseIMAPURLPath url = (urlPath url).bind fun path =>
    if (segments path).headD [] = [] then .error "IMAP URL missing mailbox"
    else if (parameters path).1 = 0 then .error "IMAP URL missing UID"
    else .ok (normalizeMailbox (urlDecode (mailboxText path)), parameters path) := by
  unfold parseIMAPURLPath
  cases urlPath url with
  | error text => rfl
  | ok path =>
    by_cases missing : (segments path).headD [] = []
    · rw [segments] at missing
      simp only [bind, Except.bind, segments, missing, if_true]
      rfl
    by_cases zero : (parameters path).1 = 0
    · simp only [Except.bind, if_neg missing, if_pos zero]
      rw [segments] at missing
      rw [parameters, segments] at zero
      simp only [bind, Except.bind, if_neg missing, if_pos zero]
      rfl
    · simp only [Except.bind, if_neg missing, if_neg zero]
      rw [segments] at missing
      rw [parameters, segments] at zero
      simp only [bind, Except.bind, if_neg missing, if_neg zero]
      rfl

theorem splitOn_part {x : UInt8} {part : Bytes} (member : part ∈ text.splitOn x) :
    x ∉ part ∧ part ⊆ text := by
  induction text generalizing part with
  | nil =>
    obtain rfl := mem_singleton.mp member
    exact ⟨not_mem_nil, nil_subset _⟩
  | cons o text ih =>
    rw [splitOn_cons_eq_if_modifyHead] at member
    split at member
    · rcases mem_cons.mp member with rfl | later
      · exact ⟨not_mem_nil, nil_subset _⟩
      · obtain ⟨flat, inside⟩ := ih later
        exact ⟨flat, subset_cons_of_subset o inside⟩
    · rename_i apart
      obtain ⟨head, rest, shape⟩ := exists_cons_of_ne_nil (splitOn_ne_nil x text)
      rw [shape] at member ih
      rcases mem_cons.mp member with rfl | later
      · obtain ⟨flat, inside⟩ := ih mem_cons_self
        refine ⟨?_, cons_subset_cons o inside⟩
        rw [mem_cons, not_or]
        exact ⟨fun same => apart (beq_iff_eq.mpr same.symm), flat⟩
      · obtain ⟨flat, inside⟩ := ih (.tail _ later)
        exact ⟨flat, subset_cons_of_subset o inside⟩

theorem splitOn_head (x : UInt8) (text : Bytes) :
    (text.splitOn x).headD [] = text.takeWhile (· != x) := by
  induction text with
  | nil => rfl
  | cons o text ih =>
    obtain ⟨head, rest, shape⟩ := exists_cons_of_ne_nil (splitOn_ne_nil x text)
    rw [splitOn_cons_eq_if_modifyHead, takeWhile_cons, ← ih, shape]
    by_cases same : o = x <;> simp [same]

theorem afterFirst_suffix {sought : Bytes} (found : afterFirst sought text = some rest) :
    rest <:+ text := by
  induction text with
  | nil =>
    rw [afterFirst] at found
    split at found
    · exact (Option.some.inj found) ▸ suffix_rfl
    · cases found
  | cons o text ih =>
    rw [afterFirst] at found
    split at found
    · exact (Option.some.inj found) ▸ drop_suffix _ _
    · exact (ih found).trans (suffix_cons o text)

theorem urlPath_server {host : Bytes} (flat : slash ∉ host) :
    urlPath (ascii "imap://" ++ host ++ slash :: text) = .ok (slash :: text) := by
  have marks : ascii "imap://" = [105, 109, 97, 112, 58, 47, 47] ∧ ascii "://" = [58, 47, 47] :=
    ⟨fixed_texts.2.1, fixed_texts.1⟩
  have past : afterFirst (ascii "://") (ascii "imap://" ++ host ++ slash :: text) =
      some (host ++ slash :: text) := by
    rw [marks.1, marks.2]
    simp [afterFirst, List.isPrefixOf]
  have rest : (host ++ slash :: text).dropWhile (· != slash) = slash :: text := by
    rw [dropWhile_append_of_pos]
    · simp
    · intro o member
      exact bne_iff_ne.mpr fun same => flat (same ▸ member)
  rw [urlPath, past]
  simp only [rest]

theorem parameters_flat (path : Bytes) : slash ∉ (parameters path).2 := by
  have keeps : ∀ (parts : List Bytes) (found : Nat × Bytes), (∀ part ∈ parts, slash ∉ part) →
      slash ∉ found.2 → slash ∉ (parts.foldl urlParameter found).2 := by
    intro parts
    induction parts with
    | nil => exact fun _ _ flat => flat
    | cons part parts ih =>
      intro found parts_ flat
      obtain ⟨here, there⟩ := forall_mem_cons.mp parts_
      refine ih _ there ?_
      rw [urlParameter]
      split
      · exact flat
      · split
        · exact fun member => here (mem_of_mem_drop member)
        · exact flat
  refine keeps _ _ (fun part member => ?_) not_mem_nil
  obtain ⟨segment, listed, inside⟩ := mem_flatMap.mp member
  exact fun here => (splitOn_part listed).1 ((splitOn_part inside).2 here)

theorem mailbox_flat {path : Bytes} (sound : Sound path) :
    slash ∉ normalizeMailbox (urlDecode (mailboxText path)) := by
  have within_ : mailboxText path <:+: path := by
    rw [mailboxText, segments, splitOn_head]
    refine (List.takeWhile_prefix _).isInfix.trans ((List.takeWhile_prefix _).isInfix.trans ?_)
    split
    · exact (drop_suffix _ _).isInfix
    · exact infix_rfl
  have flat : slash ∉ mailboxText path := by
    rw [mailboxText, segments, splitOn_head]
    intro member
    have early := mem_takeWhile_imp ((List.takeWhile_prefix _).subset member)
    simp at early
  have decoded := Sound.decode (fun high low here => sound high low (here.trans within_)) flat 0
  rw [normalizeMailbox]
  split
  · exact fixed_texts.2.2.2.2.2.1
  · exact decoded

section Reading

variable {server : Option Bytes} (hosts : ∀ host, server = some host → slash ∉ host)
  {name : Bytes} {validity : Option Nat} {uid : Nat} {section_ : Option Bytes}

include hosts

/-- The path that is read is an end of the one that was written. -/
theorem urlPath_suffix {read : Bytes}
    (ok : urlPath (url server name validity uid section_) = .ok read) :
    read <:+ path name validity uid section_ := by
  cases server with
  | some host =>
    rw [url, Option.elim_some, path, urlPath_server (hosts host rfl)] at ok
    exact (Except.ok.inj ok) ▸ suffix_rfl
  | none =>
    rw [url, Option.elim_none, nil_append, urlPath] at ok
    split at ok
    · exact (Except.ok.inj ok) ▸ suffix_rfl
    · rename_i rest found
      split at ok
      · cases ok
      · have inside := (dropWhile_suffix (· != slash)).trans (afterFirst_suffix found)
        exact (Except.ok.inj ok) ▸ inside

/-- Neither the mailbox nor the section that is read has a separator. -/
theorem parse_flat {mbName : Bytes}
    (ok : parseIMAPURLPath (url server name validity uid section_) = .ok (mbName, n, text)) :
    slash ∉ mbName ∧ slash ∉ text := by
  rw [parse_eq] at ok
  rcases read : urlPath (url server name validity uid section_) with _ | found
  · rw [read] at ok
    cases ok
  rw [read] at ok
  simp only [Except.bind] at ok
  split at ok
  · cases ok
  split at ok
  · cases ok
  obtain ⟨rfl, values⟩ := Prod.mk.inj (Except.ok.inj ok)
  obtain rfl : (parameters found).2 = text := congrArg Prod.snd values
  exact ⟨mailbox_flat ((path_sound name validity uid section_).suffix (urlPath_suffix hosts read)),
    parameters_flat found⟩

end Reading

/-! ### Names without separators -/

theorem afterFirst_skip {front rest : Bytes} {c : UInt8} (flat : slash ∉ front)
    (apart : c ≠ slash) :
    afterFirst (ascii "://") (front ++ slash :: c :: rest) =
      afterFirst (ascii "://") (c :: rest) := by
  rw [fixed_texts.1]
  induction front with
  | nil =>
    rw [nil_append, afterFirst, if_neg]
    simp [List.isPrefixOf]
    exact fun same => absurd same (by decide)
  | cons o front ih =>
    rw [mem_cons, not_or] at flat
    rw [cons_append, afterFirst, if_neg, ih flat.2]
    cases front with
    | nil =>
      simp [List.isPrefixOf]
      exact fun _ same => absurd same.symm apart
    | cons o' front =>
      have other : slash ≠ o' := fun same => flat.2 (same ▸ mem_cons_self)
      simp [List.isPrefixOf, other]

theorem afterFirst_flat (flat : slash ∉ text) : afterFirst (ascii "://") text = none := by
  rw [fixed_texts.1]
  induction text with
  | nil => rfl
  | cons o text ih =>
    rw [mem_cons, not_or] at flat
    rw [afterFirst, if_neg, ih flat.2]
    cases text with
    | nil => simp [List.isPrefixOf]
    | cons o' text =>
      have other : slash ≠ o' := fun same => flat.2 (same ▸ mem_cons_self)
      simp [List.isPrefixOf, other]

section Flat

variable {name : Bytes} (some_ : name ≠ []) (flat : slash ∉ name) {validity : Option Nat} {uid : Nat}
  {section_ : Option Bytes} (sections : ∀ s, section_ = some s → slash ∉ s)

theorem validity_flat : slash ∉ validityText validity := by
  cases validity with
  | none => exact not_mem_nil
  | some n =>
    simp only [validityText, Option.elim_some, mem_cons, mem_append, not_or]
    exact ⟨by decide, (parameter_names_flat (by decide)).2.2, not_mem_number (by decide)⟩

theorem uidText_flat : slash ∉ uidText uid ∧ semicolon ∉ uidText uid := by
  simp only [uidText, mem_append, not_or]
  exact ⟨⟨(parameter_names_flat (by decide)).1, not_mem_number (by decide)⟩,
    (parameter_names_flat (by decide)).1, not_mem_number (by decide)⟩

/-- The segment of the mailbox. -/
def mailboxSegment (name : Bytes) (validity : Option Nat) : Bytes :=
  encode name ++ validityText validity

include flat in
theorem mailboxSegment_flat : slash ∉ mailboxSegment name validity := by
  rw [mailboxSegment, mem_append, not_or]
  exact ⟨slash_encode flat, validity_flat⟩

include some_ in
theorem encode_ne_nil : encode name ≠ [] := by
  obtain ⟨o, rest, rfl⟩ := exists_cons_of_ne_nil some_
  rw [encode, flatMap_cons, escape]
  split <;> simp

/-- The segments behind it. -/
def laterSegments (uid : Nat) (section_ : Option Bytes) : List Bytes :=
  (semicolon :: uidText uid) ::
    section_.elim [] (fun s => [semicolon :: (ascii "SECTION=" ++ encode s)])

include flat sections in
theorem segments_path : segments (path name validity uid section_) =
    mailboxSegment name validity :: laterSegments uid section_ := by
  have second : slash ∉ semicolon :: uidText uid := by
    rw [mem_cons, not_or]
    exact ⟨by decide, uidText_flat.1⟩
  rw [segments, path, if_pos (by simp [List.isPrefixOf]), drop_one, tail_cons,
    append_assoc, cons_append, ← mailboxSegment,
    splitOn_append_cons_self_of_not_mem (mailboxSegment_flat flat), laterSegments]
  refine congrArg _ ?_
  cases section_ with
  | none => rw [sectionText, Option.elim_none, append_nil, splitOn_eq_singleton second]; rfl
  | some s =>
    have third : slash ∉ semicolon :: (ascii "SECTION=" ++ encode s) := by
      rw [mem_cons, mem_append, not_or, not_or]
      exact ⟨by decide, (parameter_names_flat (by decide)).2.1, slash_encode (sections s rfl)⟩
    rw [sectionText, Option.elim_some, splitOn_append_cons_self_of_not_mem second,
      splitOn_eq_singleton third]
    rfl

theorem mailboxSegment_text : (mailboxSegment name validity).takeWhile (· != semicolon) =
    encode name := by
  have plain : ∀ o ∈ encode name, (o != semicolon) = true := fun o member =>
    bne_iff_ne.mpr fun same => semicolon_encode name (same ▸ member)
  rw [mailboxSegment, takeWhile_append_of_pos plain]
  cases validity <;> simp [validityText]

/-! ### Parameters -/

theorem digits_number (n : Nat) : Smtp.digits (number n) = some n := by
  have chars : ∀ c ∈ Nat.toDigits 10 n, 48 ≤ c.toNat ∧ c.toNat ≤ 57 := by
    intro c member
    have digit := Char.isDigit_iff_toNat.mp
      (Nat.isDigit_of_mem_toDigits (by decide) (by decide) member)
    simpa only [Char.reduceToNat] using digit
  have value : ∀ (text : List Char) (start : Nat), (∀ c ∈ text, 48 ≤ c.toNat ∧ c.toNat ≤ 57) →
      (text.map (fun c => UInt8.ofNat c.toNat)).foldl (fun n c => n * 10 + (c.toNat - 48)) start =
        Nat.ofDigitChars 10 text start := by
    intro text
    induction text with
    | nil => exact fun _ _ => rfl
    | cons c text ih =>
      intro start digits
      obtain ⟨here, there⟩ := forall_mem_cons.mp digits
      rw [map_cons, foldl_cons, ih _ there, Nat.ofDigitChars_cons]
      have code : (UInt8.ofNat c.toNat).toNat = c.toNat := by
        rw [UInt8.toNat_ofNat']
        omega
      rw [code, Nat.mul_comm start]
      rfl
  have all : (number n).all (fun c => decide (48 ≤ c ∧ c ≤ 57)) = true :=
    all_eq_true.mpr fun o member => decide_eq_true (number_digit member)
  have shape : number n ≠ [] := by simp [number, Nat.toDigits_ne_nil]
  obtain ⟨o, rest, same⟩ := exists_cons_of_ne_nil shape
  rw [same] at all
  rw [same, Smtp.digits, if_pos all, ← same, number, value _ 0 chars,
    Nat.ofDigitChars_toDigits (by decide) (by decide)]
  exact cons_ne_nil _ _

theorem parseUint32_number (bounded : n < 2 ^ 32) : Input.parseUint32 (number n) = n := by
  rw [Input.parseUint32, digits_number]
  simp only [Option.map_some, Option.getD_some]
  omega

theorem urlParameter_nil (found : Nat × Bytes) : urlParameter found [] = found := by
  rw [urlParameter, parameter_names.1, parameter_names.2.1]
  rfl

theorem urlParameter_validity (found : Nat × Bytes) (rest : Bytes) :
    urlParameter found (ascii "UIDVALIDITY=" ++ rest) = found := by
  rw [urlParameter, parameter_names.1, parameter_names.2.1, parameter_names.2.2]
  simp [toUpper, List.isPrefixOf]

theorem urlParameter_uid {found : Nat × Bytes} (bounded : uid < 2 ^ 32) :
    urlParameter found (uidText uid) = (uid, found.2) := by
  rw [urlParameter, uidText, parameter_names.1, if_pos (by simp [toUpper, List.isPrefixOf])]
  simp only [cons_append, nil_append, drop_succ_cons, drop_zero,
    parseUint32_number bounded]

theorem urlParameter_section (found : Nat × Bytes) (rest : Bytes) :
    urlParameter found (ascii "SECTION=" ++ rest) = (found.1, rest) := by
  rw [urlParameter, parameter_names.1, parameter_names.2.1,
    if_neg (by simp [toUpper, List.isPrefixOf]), if_pos (by simp [toUpper, List.isPrefixOf])]
  rfl

/-- The section that a mailbox name is taken for, if it is. -/
def nameSection (name : Bytes) : Bytes := (urlParameter (0, []) (encode name)).2

def capital (o : UInt8) : UInt8 := if 97 ≤ o ∧ o ≤ 122 then o - 32 else o

/-- The name begins with `SECTION=`, in upper or lower case, and goes on. -/
def SectionLike (name : Bytes) : Prop :=
  ∃ label rest, name = label ++ rest ∧ label.map capital = ascii "SECTION=" ∧ rest ≠ []

theorem label_octet (o : UInt8) : (bchar o = true → o ≠ 0xC4 ∧ o ≠ 0xC5) ∧
    (capital o ∈ ascii "SECTION=" → bchar o = true) := by
  have all : ∀ n < 256, (bchar (UInt8.ofNat n) = true →
        UInt8.ofNat n ≠ 0xC4 ∧ UInt8.ofNat n ≠ 0xC5) ∧
      (capital (UInt8.ofNat n) ∈ ascii "SECTION=" → bchar (UInt8.ofNat n) = true) := by
    decide +kernel
  have found := all o.toNat (UInt8.toNat_lt o)
  rwa [UInt8.ofNat_toNat] at found

/-- Nothing of the label is escaped, and an escape is not read as part of it. -/
theorem label_iff {word : Bytes} (inside : word ⊆ ascii "SECTION=") {name : Bytes} :
    word <+: toUpper (encode name) ↔
      ∃ label rest, name = label ++ rest ∧ label.map capital = word := by
  induction word generalizing name with
  | nil => exact ⟨fun _ => ⟨[], name, rfl, rfl⟩, fun _ => nil_prefix⟩
  | cons c word ih =>
    obtain ⟨first, later⟩ := cons_subset.mp inside
    cases name with
    | nil => simp [encode, toUpper]
    | cons o name =>
      have split_ : (∃ label rest, o :: name = label ++ rest ∧ label.map capital = c :: word) ↔
          capital o = c ∧ ∃ label rest, name = label ++ rest ∧ label.map capital = word := by
        constructor
        · rintro ⟨_ | ⟨o', label⟩, rest, same, read⟩
          · cases read
          · cases same
            obtain ⟨head, tail⟩ := List.cons.inj read
            exact ⟨head, label, rest, rfl, tail⟩
        · rintro ⟨rfl, label, rest, rfl, rfl⟩
          exact ⟨o :: label, rest, rfl, rfl⟩
      rw [split_, encode, flatMap_cons, escape]
      by_cases stands : bchar o = true
      · obtain ⟨four, five⟩ := (label_octet o).1 stands
        rw [if_pos stands, singleton_append, toUpper, cons_prefix_cons, ← encode, ih later]
        · exact and_congr eq_comm Iff.rfl
        · exact fun _ same => absurd same four
        · exact fun _ same => absurd same five
      · rw [if_neg stands]
        refine iff_of_false (fun here => ?_) fun ⟨same, _⟩ => ?_
        · have mark := (cons_prefix_cons.mp here).1
          exact absurd (mark ▸ first) (parameter_names_flat (by decide)).2.1
        · exact stands ((label_octet o).2 (same ▸ first))

/-- The mailbox alone gives no section unless it looks like one. -/
theorem nameSection_eq_nil {name : Bytes} : nameSection name = [] ↔ ¬ SectionLike name := by
  have label := @label_iff (ascii "SECTION=") (Subset.refl _) name
  have like : SectionLike name → ascii "SECTION=" <+: toUpper (encode name) :=
    fun ⟨start, rest, same, read, _⟩ => label.mpr ⟨start, rest, same, read⟩
  rw [nameSection, urlParameter]
  split
  · rename_i uid
    refine iff_of_true rfl fun looks => ?_
    obtain ⟨_, first⟩ := List.isPrefixOf_iff_prefix.mp uid
    obtain ⟨_, second⟩ := like looks
    rw [parameter_names.1] at first
    rw [parameter_names.2.1] at second
    cases first.trans second.symm
  · split
    · rename_i here
      obtain ⟨start, rest, rfl, read⟩ := label.mp (List.isPrefixOf_iff_prefix.mp here)
      have eight {start : Bytes} (read : start.map capital = ascii "SECTION=") :
          start.length = 8 := by
        rw [← length_map capital, read, parameter_names.2.1]
        rfl
      have kept : encode (start ++ rest) = start ++ encode rest := by
        rw [encode, flatMap_append, ← encode, encode_eq_self.mpr fun o member =>
          (label_octet o).2 (read ▸ mem_map_of_mem member)]
        rfl
      rw [kept, drop_left' (eight read)]
      constructor
      · rintro empty ⟨start', rest', same, read', more⟩
        obtain ⟨_, rfl⟩ := append_inj same ((eight read).trans (eight read').symm)
        exact encode_ne_nil more empty
      · intro unlike
        by_contra more
        exact unlike ⟨start, rest, rfl, read, fun empty => more (by rw [empty]; rfl)⟩
    · rename_i other
      exact iff_of_true rfl fun looks => other (List.isPrefixOf_iff_prefix.mpr (like looks))

include flat sections in
theorem parameters_path (bounded : uid < 2 ^ 32) :
    parameters (path name validity uid section_) =
      (uid, (section_.map encode).getD (nameSection name)) := by
  have first : ∀ found : Nat × Bytes, ((mailboxSegment name validity).splitOn semicolon).foldl
      urlParameter found = urlParameter found (encode name) := by
    intro found
    cases validity with
    | none =>
      rw [mailboxSegment, validityText, Option.elim_none, append_nil,
        splitOn_eq_singleton (semicolon_encode name)]
      rfl
    | some n =>
      have plain : semicolon ∉ ascii "UIDVALIDITY=" ++ number n := by
        rw [mem_append, not_or]
        exact ⟨(parameter_names_flat (by decide)).2.2, not_mem_number (by decide)⟩
      rw [mailboxSegment, validityText, Option.elim_some,
        splitOn_append_cons_self_of_not_mem (semicolon_encode name),
        splitOn_eq_singleton plain]
      exact urlParameter_validity (urlParameter found (encode name)) (number n)
  have single : ∀ text : Bytes, semicolon ∉ text →
      (semicolon :: text).splitOn semicolon = [[], text] := by
    intro text plain
    rw [← nil_append (semicolon :: text),
      splitOn_append_cons_self_of_not_mem not_mem_nil, splitOn_eq_singleton plain]
  rw [parameters, segments_path flat sections, flatMap_cons, foldl_append, first,
    laterSegments, flatMap_cons, single _ uidText_flat.2, foldl_append]
  simp only [foldl_cons, foldl_nil, urlParameter_nil, urlParameter_uid bounded]
  cases section_ with
  | none => rfl
  | some s =>
    have plain : semicolon ∉ ascii "SECTION=" ++ encode s := by
      rw [mem_append, not_or]
      exact ⟨(parameter_names_flat (by decide)).2.1, semicolon_encode s⟩
    simp only [Option.elim_some, flatMap_cons, flatMap_nil, single _ plain, append_nil,
      foldl_cons, foldl_nil, urlParameter_nil, urlParameter_section]
    rfl

include some_ flat sections in
theorem urlPath_flat {server : Option Bytes} (hosts : ∀ host, server = some host → slash ∉ host) :
    urlPath (url server name validity uid section_) = .ok (path name validity uid section_) := by
  cases server with
  | some host => rw [url, Option.elim_some, path, urlPath_server (hosts host rfl)]
  | none =>
    have apart : (semicolon : UInt8) ≠ slash := by decide
    obtain ⟨c, rest, shape⟩ := exists_cons_of_ne_nil (encode_ne_nil some_)
    have other : c ≠ slash := fun same =>
      slash_encode flat (shape ▸ same ▸ mem_cons_self)
    have second : slash ∉ semicolon :: uidText uid := by
      rw [mem_cons, not_or]
      exact ⟨by decide, uidText_flat.1⟩
    have skipped : afterFirst (ascii "://") (path name validity uid section_) =
        afterFirst (ascii "://") (semicolon :: uidText uid ++ sectionText section_) := by
      have start := @afterFirst_skip [] (rest ++ validityText validity ++ slash :: semicolon ::
        uidText uid ++ sectionText section_) c not_mem_nil other
      have next := @afterFirst_skip (mailboxSegment name validity)
        (uidText uid ++ sectionText section_) semicolon (mailboxSegment_flat flat) apart
      rw [mailboxSegment, shape] at next
      rw [path, shape]
      simp only [nil_append, cons_append, append_assoc] at start next ⊢
      rw [start, next]
    have missing : afterFirst (ascii "://") (path name validity uid section_) = none := by
      rw [skipped]
      cases section_ with
      | none =>
        rw [sectionText, Option.elim_none, append_nil]
        exact afterFirst_flat second
      | some s =>
        rw [sectionText, Option.elim_some, afterFirst_skip second apart]
        refine afterFirst_flat ?_
        rw [mem_cons, mem_append, not_or, not_or]
        exact ⟨by decide, (parameter_names_flat (by decide)).2.1, slash_encode (sections s rfl)⟩
    rw [url, Option.elim_none, nil_append, urlPath, missing]

include some_ flat sections in
/-- What is read of a URL whose mailbox and section have no separator. -/
theorem parse_url {server : Option Bytes} (hosts : ∀ host, server = some host → slash ∉ host)
    (positive : 0 < uid) (bounded : uid < 2 ^ 32) :
    parseIMAPURLPath (url server name validity uid section_) =
      .ok (normalizeMailbox name, uid, (section_.map encode).getD (nameSection name)) := by
  have mailbox : (segments (path name validity uid section_)).headD [] =
      mailboxSegment name validity := by rw [segments_path flat sections]; rfl
  have filled : mailboxSegment name validity ≠ [] := by simp [mailboxSegment, encode_ne_nil some_]
  rw [parse_eq, urlPath_flat some_ flat sections hosts]
  simp only [Except.bind, mailboxText, mailbox, parameters_path flat sections bounded]
  rw [if_neg filled, if_neg (by omega), mailboxSegment_text, urlDecode_encode]

end Flat

theorem slash_normalizeMailbox {name : Bytes} (flat : slash ∉ normalizeMailbox name) :
    slash ∉ name := by
  rw [normalizeMailbox] at flat
  split at flat
  · rename_i inbox
    intro member
    have image := mem_map_of_mem (f := fun o : UInt8 => if 97 ≤ o ∧ o ≤ 122 then o - 32 else o)
      member
    rw [equalFold, beq_iff_eq] at inbox
    rw [inbox] at image
    exact fixed_texts.2.2.2.2.2.2.1 image
  · exact flat

/-- A URL is read as what it was built from if and only if mailbox and section have no
hierarchy, the section has nothing to escape, and a mailbox without a section does not look like
one. -/
theorem url_addresses {server : Option Bytes} (hosts : ∀ host, server = some host → slash ∉ host)
    {name : Bytes} (some_ : name ≠ []) (validity : Option Nat) {uid : Nat} (positive : 0 < uid)
    (bounded : uid < 2 ^ 32) (section_ : Option Bytes) :
    parseIMAPURLPath (url server name validity uid section_) =
        .ok (normalizeMailbox name, uid, section_.getD []) ↔
      slash ∉ name ∧ (∀ s, section_ = some s → slash ∉ s ∧ ∀ o ∈ s, bchar o = true) ∧
        (section_ = none → ¬ SectionLike name) := by
  rw [← nameSection_eq_nil]
  constructor
  · intro ok
    obtain ⟨mailbox, text⟩ := parse_flat hosts ok
    have flat := slash_normalizeMailbox mailbox
    have sections : ∀ s, section_ = some s → slash ∉ s := by
      rintro s rfl
      exact text
    rw [parse_url some_ flat sections hosts positive bounded] at ok
    have same := congrArg (fun found : Bytes × Nat × Bytes => found.2.2) (Except.ok.inj ok)
    refine ⟨flat, fun s given => ⟨sections s given, ?_⟩, fun missing => ?_⟩
    · subst given
      exact encode_eq_self.mp same
    · subst missing
      exact same
  · rintro ⟨flat, sections, plain⟩
    rw [parse_url some_ flat (fun s given => (sections s given).1) hosts positive bounded]
    cases section_ with
    | none =>
      rw [Option.map_none, Option.getD_none, plain rfl]
      rfl
    | some s =>
      rw [Option.map_some, Option.getD_some, encode_eq_self.mpr (sections s rfl).2]
      rfl

/-- A mailbox below another is read as the one above it. -/
theorem url_of_child_names_parent :
    url none (ascii "Work/2024") none 7 none = ascii "/Work/2024/;UID=7" ∧
      parseIMAPURLPath (url none (ascii "Work/2024") none 7 none) = .ok (ascii "Work", 7, []) := by
  decide +kernel

theorem url_addresses_escaped :
    url (some (ascii "mail.example.org")) (ascii "R&D; notes") (some 3) 7 (some (ascii "1.2")) =
        ascii "imap://mail.example.org/R&D%3B%20notes;UIDVALIDITY=3/;UID=7/;SECTION=1.2" ∧
      parseIMAPURLPath
          (url (some (ascii "mail.example.org")) (ascii "R&D; notes") (some 3) 7
            (some (ascii "1.2"))) =
        .ok (ascii "R&D; notes", 7, ascii "1.2") := by
  have given : url (some (ascii "mail.example.org")) (ascii "R&D; notes") (some 3) 7
        (some (ascii "1.2")) =
        ascii "imap://mail.example.org/R&D%3B%20notes;UIDVALIDITY=3/;UID=7/;SECTION=1.2" ∧
      slash ∉ ascii "mail.example.org" ∧ ascii "R&D; notes" ≠ [] ∧ slash ∉ ascii "R&D; notes" ∧
      slash ∉ ascii "1.2" ∧ ∀ o ∈ ascii "1.2", bchar o = true := by decide +kernel
  obtain ⟨text, host, some_, flat, part⟩ := given
  refine ⟨text, ?_⟩
  have hosts : ∀ host, some (ascii "mail.example.org") = some host → slash ∉ host := by
    intro host same
    cases same
    assumption
  refine (url_addresses hosts some_ (some 3) (by decide) (by decide) (some (ascii "1.2"))).mpr
    ⟨flat, ?_, fun missing => by cases missing⟩
  intro s same
  cases same
  exact part

end OctoMail.Imap.UrlPaths
