/-! # Elapsed time

A duration is shown in seconds with two decimals. The seconds are held with a significand of 24
bits: the whole milliseconds are rounded to it, and so is their thousandth. Every rounding goes
to the nearest value, and halfway to the even one. -/

set_option autoImplicit false

namespace UzScript.Elapsed

/-- The nearest whole number to a fraction; a half goes to the even neighbour. -/
def roundDiv (num den : Nat) : Nat :=
  let q := num / den
  let r := num % den
  if 2 * r < den then q
  else if den < 2 * r then q + 1
  else if q % 2 = 0 then q else q + 1

structure Fraction where
  num : Nat
  den : Nat

/-- The exponent of the greatest power of two that is at most the fraction, counted from
`2 ^ -64`; fractions below that are not told apart. -/
def exponent (x : Fraction) : Nat := (x.num * Nat.pow 2 64 / x.den).log2

def toBinary24 (x : Fraction) : Fraction :=
  let e := exponent x
  -- The significand counts units of `2 ^ (e - 64 - 23)`.
  let up := Nat.pow 2 (64 + 23 - e)
  let down := Nat.pow 2 (e - (64 + 23))
  ⟨roundDiv (x.num * up) (x.den * down) * down, up⟩

def twoDecimals (x : Fraction) : String :=
  let hundredths := roundDiv (x.num * 100) x.den
  let digits := toString (hundredths % 100)
  toString (hundredths / 100) ++ "." ++ (if digits.length = 1 then "0" ++ digits else digits)

def seconds (milliseconds : Nat) : String :=
  let millis := toBinary24 ⟨milliseconds, 1⟩
  twoDecimals (toBinary24 ⟨millis.num, millis.den * 1000⟩) ++ "s"

end UzScript.Elapsed
