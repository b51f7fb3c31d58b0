/-! # Integers of the language

An integer of the language is a whole number that fits into 64 bits with a sign. Arithmetic is
exact: a result outside that range is no integer of the language. -/

set_option autoImplicit false

namespace UzScript

structure Integer where
  val : Int
  inRange : -9223372036854775808 ≤ val ∧ val ≤ 9223372036854775807
deriving DecidableEq

namespace Integer

def least : Int := -9223372036854775808

def greatest : Int := 9223372036854775807

/-- The condition under which a whole number is an integer of the language. -/
def Fits (n : Int) : Prop := least ≤ n ∧ n ≤ greatest

instance (n : Int) : Decidable (Fits n) :=
  inferInstanceAs (Decidable (least ≤ n ∧ n ≤ greatest))

def ofInt? (n : Int) : Option Integer :=
  if h : Fits n then some ⟨n, h⟩ else none

def zero : Integer := ⟨0, by decide⟩

def one : Integer := ⟨1, by decide⟩

instance : Inhabited Integer := ⟨zero⟩

def text (i : Integer) : String := toString i.val

theorem fits (i : Integer) : Fits i.val := i.inRange

@[ext] theorem ext {i j : Integer} (h : i.val = j.val) : i = j := by
  cases i
  cases j
  cases h
  rfl

theorem ofInt?_eq_some_iff {n : Int} {i : Integer} : ofInt? n = some i ↔ i.val = n := by
  unfold ofInt?
  split
  · next h =>
    rw [Option.some.injEq]
    exact ⟨fun e => e ▸ rfl, fun e => ext e.symm⟩
  · next h =>
    constructor
    · intro e
      cases e
    · intro e
      exact absurd (e ▸ i.fits) h

theorem ofInt?_eq_none_iff {n : Int} : ofInt? n = none ↔ ¬ Fits n := by
  unfold ofInt?
  split <;> simp_all

@[simp] theorem ofInt?_val (i : Integer) : ofInt? i.val = some i :=
  ofInt?_eq_some_iff.2 rfl

end Integer

end UzScript
