import UzScript.Loading.Basic

/-! # Reading UTF-8

The first byte of a character gives the number of bytes that continue it. These are checked one by
one, and then the code point that they spell. -/

set_option autoImplicit false

namespace UzScript.Utf8

def readContinuations : Nat → Nat → List UInt8 → Except LoadCause (Nat × List UInt8)
  | 0, code, rest => .ok (code, rest)
  | _ + 1, _, [] => .error .unexpectedEnd
  | missing + 1, code, b :: rest =>
    if b.toNat < 0x80 ∨ 0xC0 ≤ b.toNat then .error .invalidData
    else readContinuations missing (code * 64 + (b.toNat - 0x80)) rest

/-- The rest of a character whose code point is not less than `least`. -/
def readRest (least missing code : Nat) (bytes : List UInt8) :
    Except LoadCause (Char × List UInt8) :=
  match readContinuations missing code bytes with
  | .error cause => .error cause
  | .ok (code, rest) =>
    if least ≤ code ∧ code.isValidChar then .ok (Char.ofNat code, rest) else .error .invalidData

def readChar : List UInt8 → Option (Except LoadCause (Char × List UInt8))
  | [] => none
  | b :: rest =>
    some <|
      if b.toNat < 0x80 then .ok (Char.ofNat b.toNat, rest)
      else if b.toNat < 0xC0 then .error .invalidData
      else if b.toNat < 0xE0 then readRest 0x80 1 (b.toNat - 0xC0) rest
      else if b.toNat < 0xF0 then readRest 0x800 2 (b.toNat - 0xE0) rest
      else if b.toNat < 0xF8 then readRest 0x10000 3 (b.toNat - 0xF0) rest
      else .error .invalidData

theorem readContinuations_length {missing code code' : Nat} {bytes rest : List UInt8}
    (h : readContinuations missing code bytes = .ok (code', rest)) :
    rest.length ≤ bytes.length := by
  induction missing generalizing code bytes with
  | zero =>
    cases h
    exact Nat.le_refl _
  | succ missing ih =>
    cases bytes with
    | nil => cases h
    | cons b bytes =>
      rw [readContinuations] at h
      split at h
      · cases h
      · exact Nat.le_succ_of_le (ih h)

theorem readRest_length {least missing code : Nat} {bytes rest : List UInt8} {c : Char}
    (h : readRest least missing code bytes = .ok (c, rest)) : rest.length ≤ bytes.length := by
  rw [readRest] at h
  split at h
  · cases h
  · next hrest =>
    split at h
    · cases h
      exact readContinuations_length hrest
    · cases h

theorem readChar_shorter {bytes rest : List UInt8} {c : Char}
    (h : readChar bytes = some (.ok (c, rest))) : rest.length < bytes.length := by
  cases bytes with
  | nil => cases h
  | cons b bytes =>
    have h := Option.some.inj h
    apply Nat.lt_succ_of_le
    split at h
    · cases h
      exact Nat.le_refl _
    · split at h
      · cases h
      · split at h
        · exact readRest_length h
        · split at h
          · exact readRest_length h
          · split at h
            · exact readRest_length h
            · cases h

def reader : CharReader := ⟨readChar, readChar_shorter⟩

end UzScript.Utf8
