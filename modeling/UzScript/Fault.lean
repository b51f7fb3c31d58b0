import UzScript.Span

/-! # Faults

A fault is a cause of failure at a place in the source. What it tells the reader is a title and
notes that go with it. -/

set_option autoImplicit false

namespace UzScript

structure Fault (Cause : Type) where
  cause : Cause
  span : Span
deriving DecidableEq

structure Message where
  title : String
  notes : List String
deriving DecidableEq

end UzScript
