import Mathlib.Algebra.Group.Nat.Defs
import Mathlib.Data.List.Basic
import Mathlib.Data.List.Induction
import UzScript.Loading.Utf8
import UzScript.Session

/-! # Loading inverts the encoding of texts

A text is encoded character by character, each in one byte or in a lead byte and up to three bytes that
continue it. With any reader that decodes one character as it should, loading a file accepts exactly the
encodings of texts, and gives back the text. Any other file is a longest encoding and a flaw after it,
and the flaw decides how loading fails. -/

set_option autoImplicit false

namespace UzScript.Text

def utf8Bytes (text : String) : List UInt8 := text.toUTF8.data.toList

theorem utf8Bytes_eq (text : String) :
    utf8Bytes text = text.toList.flatMap String.utf8EncodeChar := by
  rw [utf8Bytes, String.toUTF8, ← String.utf8Encode_toList, List.utf8Encode,
    List.toList_data_toByteArray]

/-! ## Sequences of bytes for one character -/

/-- A byte that continues a character. -/
def IsContinuation (b : UInt8) : Prop := 0x80 ≤ b.toNat ∧ b.toNat < 0xC0

instance (b : UInt8) : Decidable (IsContinuation b) := inferInstanceAs (Decidable (_ ∧ _))

/-- How many bytes have to continue the character that a byte begins. -/
def following (lead : UInt8) : Nat :=
  if lead.toNat < 0xC0 then 0
  else if lead.toNat < 0xE0 then 1
  else if lead.toNat < 0xF0 then 2
  else if lead.toNat < 0xF8 then 3
  else 0

def leastCode : Nat → Nat
  | 0 => 0
  | 1 => 0x80
  | 2 => 0x800
  | _ => 0x10000

/-- The code point that a lead byte and the bytes after it spell. The more bytes follow, the less of it
stands in the lead byte; each of the others holds six bits. -/
def codePoint (lead : UInt8) (conts : List UInt8) : Nat :=
  conts.foldl (fun code b => code * 64 + b.toNat % 64) (lead.toNat % 2 ^ (6 - following lead))

theorem following_pos_iff {lead : UInt8} :
    0 < following lead ↔ 0xC0 ≤ lead.toNat ∧ lead.toNat ≤ 0xF7 := by
  unfold following
  grind

theorem following_cases {lead : UInt8} (h : 0 < following lead) :
    (following lead = 1 ∧ 0xC0 ≤ lead.toNat ∧ lead.toNat < 0xE0) ∨
      (following lead = 2 ∧ 0xE0 ≤ lead.toNat ∧ lead.toNat < 0xF0) ∨
        (following lead = 3 ∧ 0xF0 ≤ lead.toNat ∧ lead.toNat < 0xF8) := by
  unfold following at h ⊢
  grind

theorem val_ofNat {n : Nat} (h : n.isValidChar) : (Char.ofNat n).val.toNat = n := by
  rw [Char.ofNat, dif_pos h]
  rfl

theorem ofNat_eq_byte {n : Nat} {b : UInt8} (h : n = b.toNat) : UInt8.ofNat n = b := by
  rw [h, UInt8.ofNat_toNat]

theorem encodeChar_ascii {b : UInt8} (h : b.toNat < 0x80) :
    String.utf8EncodeChar (Char.ofNat b.toNat) = [b] := by
  rw [String.utf8EncodeChar, val_ofNat (.inl (by omega))]
  rw [if_pos (by omega), UInt8.ofNat_toNat]

theorem encodeChar_codePoint {lead : UInt8} {conts : List UInt8}
    (hlead : 0 < following lead) (hlength : conts.length = following lead)
    (hconts : ∀ b ∈ conts, IsContinuation b)
    (hleast : leastCode (following lead) ≤ codePoint lead conts)
    (hvalid : (codePoint lead conts).isValidChar) :
    String.utf8EncodeChar (Char.ofNat (codePoint lead conts)) = lead :: conts := by
  rw [String.utf8EncodeChar, val_ofNat hvalid]
  unfold codePoint IsContinuation at *
  rcases following_cases hlead with ⟨hn, hlow, hhigh⟩ | ⟨hn, hlow, hhigh⟩ | ⟨hn, hlow, hhigh⟩
  · obtain ⟨b, rfl⟩ := List.length_eq_one_iff.1 (hlength.trans hn)
    simp only [hn, List.foldl_cons, List.foldl_nil, leastCode, List.mem_singleton, forall_eq] at *
    rw [if_neg (by omega), if_pos (by omega)]
    simp only [List.cons.injEq, and_true]
    exact ⟨ofNat_eq_byte (by omega), ofNat_eq_byte (by omega)⟩
  · obtain ⟨b, d, rfl⟩ := List.length_eq_two.1 (hlength.trans hn)
    simp only [hn, List.foldl_cons, List.foldl_nil, leastCode, List.mem_cons, List.not_mem_nil,
      or_false, forall_eq_or_imp, forall_eq] at *
    rw [if_neg (by omega), if_neg (by omega), if_pos (by omega)]
    simp only [List.cons.injEq, and_true]
    exact ⟨ofNat_eq_byte (by omega), ofNat_eq_byte (by omega), ofNat_eq_byte (by omega)⟩
  · obtain ⟨b, d, e, rfl⟩ := List.length_eq_three.1 (hlength.trans hn)
    simp only [hn, List.foldl_cons, List.foldl_nil, leastCode, List.mem_cons, List.not_mem_nil,
      or_false, forall_eq_or_imp, forall_eq] at *
    rw [if_neg (by omega), if_neg (by omega), if_neg (by omega)]
    simp only [List.cons.injEq, and_true]
    exact ⟨ofNat_eq_byte (by omega), ofNat_eq_byte (by omega), ofNat_eq_byte (by omega),
      ofNat_eq_byte (by omega)⟩

/-- The bytes of a character that is not encoded in one byte. -/
structure Encodes (c : Char) (lead : UInt8) (conts : List UInt8) : Prop where
  isLead : 0 < following lead
  length : conts.length = following lead
  continuations : ∀ b ∈ conts, IsContinuation b
  least : leastCode (following lead) ≤ c.toNat
  code : codePoint lead conts = c.toNat

theorem Encodes.bytes {c : Char} {lead : UInt8} {conts : List UInt8} (h : Encodes c lead conts) :
    String.utf8EncodeChar c = lead :: conts := by
  have hbytes := encodeChar_codePoint h.isLead h.length h.continuations (h.code ▸ h.least)
    (h.code ▸ c.valid)
  rwa [h.code, Char.ofNat_toNat] at hbytes

theorem exists_byte {n : Nat} (h : n < 256) : ∃ b : UInt8, b.toNat = n :=
  ⟨UInt8.ofNat n, UInt8.toNat_ofNat_of_lt h⟩

theorem encodes_cases (c : Char) :
    (c.toNat < 0x80 ∧ String.utf8EncodeChar c = [UInt8.ofNat c.toNat]) ∨
      ∃ lead conts, Encodes c lead conts := by
  have hvalid : c.toNat < 0xD800 ∨ 0xDFFF < c.toNat ∧ c.toNat < 0x110000 := c.valid
  by_cases hone : c.toNat < 0x80
  · refine .inl ⟨hone, ?_⟩
    rw [String.utf8EncodeChar]
    exact if_pos (Nat.le_of_lt_succ hone)
  right
  obtain ⟨b₀, hb₀⟩ := exists_byte (n := c.toNat % 64 + 0x80) (by omega)
  obtain ⟨b₁, hb₁⟩ := exists_byte (n := c.toNat / 64 % 64 + 0x80) (by omega)
  obtain ⟨b₂, hb₂⟩ := exists_byte (n := c.toNat / 4096 % 64 + 0x80) (by omega)
  by_cases htwo : c.toNat < 0x800
  · obtain ⟨lead, hlead⟩ := exists_byte (n := c.toNat / 64 + 0xC0) (by omega)
    have hpos : 0 < following lead := following_pos_iff.2 (by omega)
    have hn : following lead = 1 := by
      have hcases := following_cases hpos
      omega
    refine ⟨lead, [b₀], hpos, hn.symm, ?_, ?_, ?_⟩
    all_goals simp only [List.mem_singleton, forall_eq, IsContinuation, hn, leastCode, codePoint,
      List.foldl_cons, List.foldl_nil]
    all_goals omega
  by_cases hthree : c.toNat < 0x10000
  · obtain ⟨lead, hlead⟩ := exists_byte (n := c.toNat / 4096 + 0xE0) (by omega)
    have hpos : 0 < following lead := following_pos_iff.2 (by omega)
    have hn : following lead = 2 := by
      have hcases := following_cases hpos
      omega
    refine ⟨lead, [b₁, b₀], hpos, hn.symm, ?_, ?_, ?_⟩
    all_goals simp only [List.mem_cons, List.not_mem_nil, or_false, forall_eq_or_imp, forall_eq,
      IsContinuation, hn, leastCode, codePoint, List.foldl_cons, List.foldl_nil]
    all_goals omega
  · obtain ⟨lead, hlead⟩ := exists_byte (n := c.toNat / 262144 + 0xF0) (by omega)
    have hpos : 0 < following lead := following_pos_iff.2 (by omega)
    have hn : following lead = 3 := by
      have hcases := following_cases hpos
      omega
    refine ⟨lead, [b₂, b₁, b₀], hpos, hn.symm, ?_, ?_, ?_⟩
    all_goals simp only [List.mem_cons, List.not_mem_nil, or_false, forall_eq_or_imp, forall_eq,
      IsContinuation, hn, leastCode, codePoint, List.foldl_cons, List.foldl_nil]
    all_goals omega

/-! ## Flaws -/

/-- The bytes begin with a flaw, because of which no character can be read. -/
inductive Flawed : List UInt8 → LoadCause → Prop
  | stray {b : UInt8} (rest : List UInt8) (noAscii : 0x80 ≤ b.toNat) (noLead : following b = 0) :
      Flawed (b :: rest) .invalidData
  | interrupted {lead b : UInt8} {conts : List UInt8} (rest : List UInt8)
      (continuations : ∀ c ∈ conts, IsContinuation c) (short : conts.length < following lead)
      (other : ¬ IsContinuation b) : Flawed (lead :: conts ++ b :: rest) .invalidData
  | noCharacter {lead : UInt8} {conts : List UInt8} (rest : List UInt8)
      (isLead : 0 < following lead) (continuations : ∀ c ∈ conts, IsContinuation c)
      (length : conts.length = following lead)
      (code : codePoint lead conts < leastCode (following lead) ∨
        (0xD800 ≤ codePoint lead conts ∧ codePoint lead conts ≤ 0xDFFF) ∨
          0x10FFFF < codePoint lead conts) :
      Flawed (lead :: conts ++ rest) .invalidData
  | ended {lead : UInt8} {conts : List UInt8} (continuations : ∀ c ∈ conts, IsContinuation c)
      (short : conts.length < following lead) : Flawed (lead :: conts) .unexpectedEnd

/-- The encoding of a text, and a flaw after it. -/
def Broken (bytes : List UInt8) (cause : LoadCause) : Prop :=
  ∃ text rest, bytes = utf8Bytes text ++ rest ∧ Flawed rest cause

/-- The encoding of a text, and a last character of which bytes are missing. -/
def Truncated (bytes : List UInt8) : Prop :=
  ∃ text lead conts, bytes = utf8Bytes text ++ lead :: conts ∧
    0xC0 ≤ lead.toNat ∧ lead.toNat ≤ 0xF7 ∧
    conts.length < following lead ∧ ∀ b ∈ conts, IsContinuation b

theorem broken_unexpectedEnd_iff {bytes : List UInt8} :
    Broken bytes .unexpectedEnd ↔ Truncated bytes := by
  constructor
  · rintro ⟨text, rest, rfl, hflawed⟩
    cases hflawed with
    | @ended lead conts continuations short =>
      have hlead := following_pos_iff.1 (Nat.lt_of_le_of_lt (Nat.zero_le _) short)
      exact ⟨text, lead, conts, rfl, hlead.1, hlead.2, short, continuations⟩
  · rintro ⟨text, lead, conts, rfl, -, -, hshort, hconts⟩
    exact ⟨text, _, rfl, .ended hconts hshort⟩

theorem Broken.cause {bytes : List UInt8} {cause : LoadCause} (h : Broken bytes cause) :
    cause = .invalidData ∨ cause = .unexpectedEnd := by
  obtain ⟨text, rest, -, hflawed⟩ := h
  cases hflawed with
  | ended continuations short => exact .inr rfl
  | _ => exact .inl rfl

theorem continuations_cases (n : Nat) (bytes : List UInt8) :
    (∃ conts rest, bytes = conts ++ rest ∧ conts.length = n ∧ ∀ c ∈ conts, IsContinuation c) ∨
      (bytes.length < n ∧ ∀ c ∈ bytes, IsContinuation c) ∨
        ∃ conts b rest, bytes = conts ++ b :: rest ∧ conts.length < n ∧
          (∀ c ∈ conts, IsContinuation c) ∧ ¬ IsContinuation b := by
  induction n generalizing bytes with
  | zero => exact .inl ⟨[], bytes, rfl, rfl, by simp⟩
  | succ n ih =>
    cases bytes with
    | nil => exact .inr (.inl ⟨Nat.succ_pos n, by simp⟩)
    | cons b bytes =>
      by_cases hb : IsContinuation b
      · rcases ih bytes with ⟨conts, rest, rfl, hlength, hconts⟩ | ⟨hshort, hconts⟩ |
          ⟨conts, d, rest, rfl, hshort, hconts, hd⟩
        · exact .inl ⟨b :: conts, rest, rfl, congrArg (· + 1) hlength,
            List.forall_mem_cons.2 ⟨hb, hconts⟩⟩
        · exact .inr (.inl ⟨Nat.succ_lt_succ hshort, List.forall_mem_cons.2 ⟨hb, hconts⟩⟩)
        · exact .inr (.inr ⟨b :: conts, d, rest, rfl, Nat.succ_lt_succ hshort,
            List.forall_mem_cons.2 ⟨hb, hconts⟩, hd⟩)
      · exact .inr (.inr ⟨[], b, bytes, rfl, Nat.succ_pos n, by simp, hb⟩)

theorem bytes_cases (bytes : List UInt8) :
    bytes = [] ∨ (∃ c rest, bytes = String.utf8EncodeChar c ++ rest) ∨
      ∃ cause, Flawed bytes cause := by
  cases bytes with
  | nil => exact .inl rfl
  | cons lead bytes =>
    right
    by_cases hascii : lead.toNat < 0x80
    · exact .inl ⟨Char.ofNat lead.toNat, bytes, by rw [encodeChar_ascii hascii]; rfl⟩
    rcases Nat.eq_zero_or_pos (following lead) with hlead | hlead
    · exact .inr ⟨_, .stray bytes (Nat.le_of_not_lt hascii) hlead⟩
    rcases continuations_cases (following lead) bytes with ⟨conts, rest, rfl, hlength, hconts⟩ |
      ⟨hshort, hconts⟩ | ⟨conts, b, rest, rfl, hshort, hconts, hb⟩
    · by_cases hgood : leastCode (following lead) ≤ codePoint lead conts ∧
          (codePoint lead conts).isValidChar
      · exact .inl ⟨_, rest, by
          rw [encodeChar_codePoint hlead hlength hconts hgood.1 hgood.2]; rfl⟩
      · refine .inr ⟨_, .noCharacter rest hlead hconts hlength ?_⟩
        unfold Nat.isValidChar at hgood
        omega
    · exact .inr ⟨_, .ended hconts hshort⟩
    · exact .inr ⟨_, .interrupted rest hconts hshort hb⟩

theorem encoding_or_broken (bytes : List UInt8) :
    (∃ text, bytes = utf8Bytes text) ∨ ∃ cause, Broken bytes cause := by
  induction hlength : bytes.length using Nat.strongRecOn generalizing bytes with
  | ind n ih =>
    rcases bytes_cases bytes with rfl | ⟨c, rest, rfl⟩ | ⟨cause, hflawed⟩
    · exact .inl ⟨"", rfl⟩
    · have hcons (text : String) :
          String.utf8EncodeChar c ++ utf8Bytes text = utf8Bytes (c.toString ++ text) := by
        simp [utf8Bytes_eq]
      have hshorter : rest.length < n := by
        have := String.length_utf8EncodeChar c
        have := c.utf8Size_pos
        rw [List.length_append] at hlength
        omega
      rcases ih _ hshorter rest rfl with ⟨text, rfl⟩ | ⟨cause, text, flaw, rfl, hflawed⟩
      · exact .inl ⟨_, hcons text⟩
      · exact .inr ⟨cause, _, flaw, by rw [← List.append_assoc, hcons], hflawed⟩
    · exact .inr ⟨cause, "", bytes, rfl, hflawed⟩

end UzScript.Text

namespace UzScript

open Text

/-! ## Readers of one character -/

/-- What is assumed of a reader. The lead byte decides how many bytes follow; these are checked one by
one, and then the code point, which must need as many bytes and be that of a character. -/
structure CharReader.DecodesUtf8 (reader : CharReader) : Prop where
  atEnd : reader.read [] = none
  single {b : UInt8} (rest : List UInt8) :
    b.toNat < 0x80 → reader.read (b :: rest) = some (.ok (Char.ofNat b.toNat, rest))
  stray {b : UInt8} (rest : List UInt8) :
    (0x80 ≤ b.toNat ∧ b.toNat ≤ 0xBF) ∨ 0xF8 ≤ b.toNat →
      reader.read (b :: rest) = some (.error .invalidData)
  ended {lead : UInt8} {conts : List UInt8} :
    conts.length < following lead → (∀ c ∈ conts, IsContinuation c) →
      reader.read (lead :: conts) = some (.error .unexpectedEnd)
  interrupted {lead b : UInt8} {conts : List UInt8} (rest : List UInt8) :
    conts.length < following lead → (∀ c ∈ conts, IsContinuation c) → ¬ IsContinuation b →
      reader.read (lead :: conts ++ b :: rest) = some (.error .invalidData)
  overlong {lead : UInt8} {conts : List UInt8} (rest : List UInt8) :
    0 < following lead → conts.length = following lead → (∀ c ∈ conts, IsContinuation c) →
      codePoint lead conts < leastCode (following lead) →
        reader.read (lead :: conts ++ rest) = some (.error .invalidData)
  noCharacter {lead : UInt8} {conts : List UInt8} (rest : List UInt8) :
    0 < following lead → conts.length = following lead → (∀ c ∈ conts, IsContinuation c) →
      (0xD800 ≤ codePoint lead conts ∧ codePoint lead conts ≤ 0xDFFF) ∨
        0x10FFFF < codePoint lead conts →
        reader.read (lead :: conts ++ rest) = some (.error .invalidData)
  character {lead : UInt8} {conts : List UInt8} (rest : List UInt8) :
    0 < following lead → conts.length = following lead → (∀ c ∈ conts, IsContinuation c) →
      leastCode (following lead) ≤ codePoint lead conts → (codePoint lead conts).isValidChar →
        reader.read (lead :: conts ++ rest) =
          some (.ok (Char.ofNat (codePoint lead conts), rest))

namespace CharReader

section Runs

variable {reader : CharReader} {bytes rest : List UInt8} {c : Char} {cause : LoadCause}

theorem readAll_none (h : reader.read bytes = none) (text : String) :
    reader.readAll text bytes = .ok text := by
  rw [readAll]
  split <;> simp_all

theorem readAll_error (h : reader.read bytes = some (.error cause)) (text : String) :
    reader.readAll text bytes = .error cause := by
  rw [readAll]
  split <;> simp_all

theorem readAll_ok (h : reader.read bytes = some (.ok (c, rest))) (text : String) :
    reader.readAll text bytes = reader.readAll (text.push c) rest := by
  rw [readAll]
  split <;> simp_all

end Runs

namespace DecodesUtf8

variable {reader : CharReader} (hreader : reader.DecodesUtf8)

include hreader

theorem read_char (c : Char) (rest : List UInt8) :
    reader.read (String.utf8EncodeChar c ++ rest) = some (.ok (c, rest)) := by
  rcases encodes_cases c with ⟨hascii, hbytes⟩ | ⟨lead, conts, hencodes⟩
  · have hbyte : (UInt8.ofNat c.toNat).toNat = c.toNat :=
      UInt8.toNat_ofNat_of_lt (Nat.lt_trans hascii (by decide))
    have hread := hreader.single rest (hbyte ▸ hascii)
    rwa [hbyte, Char.ofNat_toNat, ← List.singleton_append, ← hbytes] at hread
  · have hread := hreader.character rest hencodes.isLead hencodes.length hencodes.continuations
      (hencodes.code ▸ hencodes.least) (hencodes.code ▸ c.valid)
    rwa [← hencodes.bytes, hencodes.code, Char.ofNat_toNat] at hread

theorem read_flawed {bytes : List UInt8} {cause : LoadCause} (h : Flawed bytes cause) :
    reader.read bytes = some (.error cause) := by
  cases h with
  | @stray b rest noAscii noLead =>
    refine hreader.stray rest ?_
    have hlead : ¬ (0xC0 ≤ b.toNat ∧ b.toNat ≤ 0xF7) :=
      following_pos_iff.not.1 (Nat.not_lt_of_le (Nat.le_of_eq noLead))
    omega
  | interrupted rest continuations short other =>
    exact hreader.interrupted rest short continuations other
  | noCharacter rest isLead continuations length code =>
    rcases code with hover | hnone
    · exact hreader.overlong rest isLead length continuations hover
    · exact hreader.noCharacter rest isLead length continuations hnone
  | ended continuations short => exact hreader.ended short continuations

theorem readAll_encoded (cs : List Char) (text : String) (rest : List UInt8) :
    reader.readAll text (cs.flatMap String.utf8EncodeChar ++ rest) =
      reader.readAll (text ++ String.ofList cs) rest := by
  induction cs generalizing text with
  | nil => simp
  | cons c cs ih =>
    have hpush : text.push c ++ String.ofList cs = text ++ String.ofList (c :: cs) :=
      String.toList_injective (by simp)
    rw [List.flatMap_cons, List.append_assoc, readAll_ok (hreader.read_char c _), ih, hpush]

theorem readAll_text (text : String) (rest : List UInt8) :
    reader.readAll "" (utf8Bytes text ++ rest) = reader.readAll text rest := by
  rw [utf8Bytes_eq, hreader.readAll_encoded, String.ofList_toList, String.empty_append]

theorem readAll_broken {bytes : List UInt8} {cause : LoadCause} (h : Broken bytes cause) :
    reader.readAll "" bytes = .error cause := by
  obtain ⟨text, rest, rfl, hflawed⟩ := h
  rw [hreader.readAll_text, readAll_error (hreader.read_flawed hflawed)]

theorem readAll_eq_ok_iff {bytes : List UInt8} {text : String} :
    reader.readAll "" bytes = .ok text ↔ bytes = utf8Bytes text := by
  have hencoded : ∀ other, reader.readAll "" (utf8Bytes other) = .ok other := by
    intro other
    rw [← List.append_nil (utf8Bytes other), hreader.readAll_text, readAll_none hreader.atEnd]
  constructor
  · intro h
    rcases encoding_or_broken bytes with ⟨other, rfl⟩ | ⟨cause, hbroken⟩
    · cases h.symm.trans (hencoded other)
      rfl
    · cases h.symm.trans (hreader.readAll_broken hbroken)
  · rintro rfl
    exact hencoded text

theorem readAll_eq_error_iff {bytes : List UInt8} {cause : LoadCause} :
    reader.readAll "" bytes = .error cause ↔ Broken bytes cause := by
  refine ⟨fun h => ?_, hreader.readAll_broken⟩
  rcases encoding_or_broken bytes with ⟨text, htext⟩ | ⟨other, hbroken⟩
  · cases h.symm.trans (hreader.readAll_eq_ok_iff.2 htext)
  · cases h.symm.trans (hreader.readAll_broken hbroken)
    exact hbroken

theorem broken_invalidData_iff {bytes : List UInt8} :
    Broken bytes .invalidData ↔ (∀ text, bytes ≠ utf8Bytes text) ∧ ¬ Truncated bytes := by
  rw [← broken_unexpectedEnd_iff]
  simp only [Ne, ← hreader.readAll_eq_ok_iff, ← hreader.readAll_eq_error_iff]
  cases hread : reader.readAll "" bytes with
  | ok text => simp
  | error cause =>
    rcases (hreader.readAll_eq_error_iff.1 hread).cause with rfl | rfl <;> simp

end DecodesUtf8

end CharReader

/-! ## A reader that decodes UTF-8 -/

namespace Utf8

variable {lead b : UInt8} {conts : List UInt8}

theorem readChar_lead (h : 0 < following lead) (rest : List UInt8) :
    readChar (lead :: rest) =
      some (readRest (leastCode (following lead)) (following lead) (codePoint lead []) rest) := by
  rcases following_cases h with ⟨hn, hlow, hhigh⟩ | ⟨hn, hlow, hhigh⟩ | ⟨hn, hlow, hhigh⟩
  all_goals
    simp only [readChar, codePoint, List.foldl_nil, hn, leastCode]
    grind

theorem readContinuations_append (hconts : ∀ c ∈ conts, IsContinuation c) (missing code : Nat)
    (rest : List UInt8) :
    readContinuations (missing + conts.length) code (conts ++ rest) =
      readContinuations missing
        (conts.foldl (fun code b => code * 64 + b.toNat % 64) code) rest := by
  induction conts generalizing code with
  | nil => rfl
  | cons b conts ih =>
    obtain ⟨hb, hconts⟩ := List.forall_mem_cons.1 hconts
    unfold IsContinuation at hb
    have hbits : b.toNat - 0x80 = b.toNat % 64 := by omega
    rw [List.length_cons, ← Nat.add_assoc, List.cons_append, readContinuations,
      if_neg (by omega), ih hconts, List.foldl_cons, hbits]

theorem readChar_short (hshort : conts.length < following lead)
    (hconts : ∀ c ∈ conts, IsContinuation c) {cause : LoadCause} (rest : List UInt8)
    (hrest : ∀ missing code, readContinuations (missing + 1) code rest = .error cause) :
    readChar (lead :: conts ++ rest) = some (.error cause) := by
  obtain ⟨missing, hmissing⟩ := Nat.exists_eq_add_of_lt hshort
  rw [List.cons_append, readChar_lead (Nat.zero_lt_of_lt hshort), readRest, hmissing,
    show conts.length + missing + 1 = missing + 1 + conts.length by omega,
    readContinuations_append hconts, hrest]

theorem readChar_full (hlead : 0 < following lead) (hlength : conts.length = following lead)
    (hconts : ∀ c ∈ conts, IsContinuation c) (rest : List UInt8) :
    readChar (lead :: conts ++ rest) =
      some (if leastCode (following lead) ≤ codePoint lead conts ∧
          (codePoint lead conts).isValidChar then .ok (Char.ofNat (codePoint lead conts), rest)
        else .error .invalidData) := by
  have hread := readContinuations_append hconts 0 (codePoint lead []) rest
  rw [Nat.zero_add, hlength] at hread
  rw [List.cons_append, readChar_lead hlead, readRest, hread]
  rfl

theorem reader_read : reader.read = readChar := rfl

theorem reader_decodesUtf8 : reader.DecodesUtf8 where
  atEnd := rfl
  single rest hascii := congrArg some (if_pos hascii)
  stray rest hstray := by
    rw [reader_read]
    grind [readChar]
  ended hshort hconts := by
    have hread := readChar_short hshort hconts [] fun _ _ => rfl
    rwa [List.append_nil] at hread
  interrupted rest hshort hconts hb := by
    refine readChar_short hshort hconts (_ :: rest) fun missing code => if_pos ?_
    unfold IsContinuation at hb
    omega
  overlong rest hlead hlength hconts hover := by
    refine (readChar_full hlead hlength hconts rest).trans (congrArg some (if_neg ?_))
    omega
  noCharacter rest hlead hlength hconts hnone := by
    refine (readChar_full hlead hlength hconts rest).trans (congrArg some (if_neg ?_))
    unfold Nat.isValidChar
    omega
  character rest hlead hlength hconts hleast hvalid :=
    (readChar_full hlead hlength hconts rest).trans (congrArg some (if_pos ⟨hleast, hvalid⟩))

end Utf8

namespace Script

variable {reader : CharReader}

theorem load_eq_ok_iff (hreader : reader.DecodesUtf8) {path : String} {bytes : List UInt8}
    {script : Script} :
    Script.load reader path (.ok bytes) = .ok script ↔
      script.path = path ∧ bytes = utf8Bytes script.source := by
  rw [← hreader.readAll_eq_ok_iff, Script.load]
  obtain ⟨other, source⟩ := script
  cases reader.readAll "" bytes with
  | ok text => simp [eq_comm]
  | error cause => simp

theorem load_eq_error_iff (hreader : reader.DecodesUtf8) {path : String} {bytes : List UInt8}
    {failure : Failure} :
    Script.load reader path (.ok bytes) = .error failure ↔
      ∃ cause, failure = .loading cause ∧ Broken bytes cause := by
  simp only [← hreader.readAll_eq_error_iff, Script.load]
  cases reader.readAll "" bytes with
  | ok text => simp
  | error cause => simp [eq_comm]

/-- Loading a file gives the text that its bytes encode. When there is none, the file is an encoding
with a flaw after it, and the first flaw decides: the file ends too early exactly when the last
character has begun and lacks bytes, and in every other case its data are invalid. -/
theorem load_inverts_encoding (hreader : reader.DecodesUtf8) (path : String)
    (bytes : List UInt8) :
    (∀ script : Script, Script.load reader path (.ok bytes) = .ok script ↔
      script.path = path ∧ bytes = utf8Bytes script.source) ∧
    (Script.load reader path (.ok bytes) = .error (.loading .unexpectedEnd) ↔ Truncated bytes) ∧
    (Script.load reader path (.ok bytes) = .error (.loading .invalidData) ↔
      (∀ text, bytes ≠ utf8Bytes text) ∧ ¬ Truncated bytes) ∧
    ∀ failure, Script.load reader path (.ok bytes) = .error failure ↔
      ∃ cause, failure = .loading cause ∧ Broken bytes cause := by
  refine ⟨fun _ => load_eq_ok_iff hreader, ?_, ?_, fun _ => load_eq_error_iff hreader⟩
  · rw [load_eq_error_iff hreader, ← broken_unexpectedEnd_iff]
    simp
  · rw [load_eq_error_iff hreader, ← hreader.broken_invalidData_iff]
    simp

/-- A text in three lengths of characters, one cut off in its last character, and a surrogate before
a character that is cut off. -/
theorem load_inverts_encoding_mixed :
    let load (bytes : List UInt8) := Script.load Utf8.reader "a.uz" (.ok bytes)
    Utf8.reader.DecodesUtf8 ∧
      load [0x63, 0xC3, 0xA9, 0xE2, 0x82, 0xAC] = .ok ⟨"a.uz", "cé€"⟩ ∧
      load [0x63, 0xC3, 0xA9, 0xE2, 0x82] = .error (.loading .unexpectedEnd) ∧
      load [0x63, 0xED, 0xA0, 0x80, 0xE2] = .error (.loading .invalidData) := by
  intro load
  have hreader := Utf8.reader_decodesUtf8
  have hall (bytes : List UInt8) := load_inverts_encoding hreader "a.uz" bytes
  refine ⟨hreader, ((hall _).1 _).2 ⟨rfl, by decide +kernel⟩, (hall _).2.1.2 ?_,
    ((hall _).2.2.2 _).2 ?_⟩
  · exact ⟨"cé", 0xE2, [0x82], by decide +kernel, by decide, by decide, by decide,
      List.forall_mem_singleton.2 (by decide)⟩
  · refine ⟨_, rfl, "c", [0xED, 0xA0, 0x80, 0xE2], by decide +kernel, ?_⟩
    have hconts : ∀ c ∈ ([0xA0, 0x80] : List UInt8), IsContinuation c :=
      List.forall_mem_cons.2 ⟨by decide, List.forall_mem_singleton.2 (by decide)⟩
    exact .noCharacter [0xE2] (by decide) hconts rfl (.inr (.inl (by decide)))

end Script

end UzScript
