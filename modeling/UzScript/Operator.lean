import UzScript.Integer

/-! # Binary operators

The ten operators, how they are written, how tightly they bind, and what they compute. -/

set_option autoImplicit false

namespace UzScript

inductive Operator where
  | add
  | subtract
  | multiply
  | divide
  | equal
  | notEqual
  | less
  | lessOrEqual
  | greater
  | greaterOrEqual
deriving DecidableEq, Inhabited

namespace Operator

def symbol : Operator → String
  | .add => "+"
  | .subtract => "-"
  | .multiply => "*"
  | .divide => "/"
  | .equal => "=="
  | .notEqual => "!="
  | .less => "<"
  | .lessOrEqual => "<="
  | .greater => ">"
  | .greaterOrEqual => ">="

def precedence : Operator → Nat
  | .multiply | .divide => 3
  | .add | .subtract => 2
  | _ => 1

def isMultiplicative (op : Operator) : Bool := op.precedence == 3

def isAdditive (op : Operator) : Bool := op.precedence == 2

def isComparison (op : Operator) : Bool := op.precedence == 1

/-- The result over the unbounded integers, if there is one. Division goes towards zero, and a
comparison gives one or zero. -/
def result? (op : Operator) (a b : Int) : Option Int :=
  match op with
  | .add => some (a + b)
  | .subtract => some (a - b)
  | .multiply => some (a * b)
  | .divide => if b = 0 then none else some (a.tdiv b)
  | .equal => some (if a = b then 1 else 0)
  | .notEqual => some (if a = b then 0 else 1)
  | .less => some (if a < b then 1 else 0)
  | .lessOrEqual => some (if a ≤ b then 1 else 0)
  | .greater => some (if b < a then 1 else 0)
  | .greaterOrEqual => some (if b ≤ a then 1 else 0)

inductive Undefined where
  | divisionByZero
  | overflow
deriving DecidableEq

/-- The exact result, when there is one and it fits. -/
def apply (op : Operator) (a b : Integer) : Except Undefined Integer :=
  match op.result? a.val b.val with
  | none => .error .divisionByZero
  | some n =>
    match Integer.ofInt? n with
    | none => .error .overflow
    | some i => .ok i

theorem result?_eq_none_iff {op : Operator} {a b : Int} :
    op.result? a b = none ↔ op = .divide ∧ b = 0 := by
  cases op <;> simp [result?]

end Operator

end UzScript
