/-! # Spans

A span is a range of byte offsets into a source text, from `start` up to but not including
`stop`. -/

set_option autoImplicit false

namespace UzScript

@[ext] structure Span where
  start : Nat
  stop : Nat
deriving DecidableEq, Inhabited

namespace Span

def zero : Span := ⟨0, 0⟩

def merge (s t : Span) : Span := ⟨min s.start t.start, max s.stop t.stop⟩

/-- The same span when `n` bytes are put in front of the text. -/
def shift (n : Nat) (s : Span) : Span := ⟨s.start + n, s.stop + n⟩

theorem merge_self (s : Span) : s.merge s = s := by simp [merge]

theorem merge_comm (s t : Span) : s.merge t = t.merge s := by
  simp [merge, Nat.min_comm, Nat.max_comm]

theorem merge_assoc (s t u : Span) : (s.merge t).merge u = s.merge (t.merge u) := by
  simp [merge, Nat.min_assoc, Nat.max_assoc]

theorem shift_merge (n : Nat) (s t : Span) : (s.merge t).shift n = (s.shift n).merge (t.shift n) := by
  simp only [merge, shift, Span.mk.injEq]
  omega

end Span

end UzScript
