import UzScript.Proofs.Stepping

/-! # Exact arithmetic

An expression without texts and calls is worth a whole number: what its operators give over the
unbounded integers. Evaluation finds that number when every part of the expression has one that
fits, and otherwise fails at the first part, operands before their operation, that has none. -/

set_option autoImplicit false

namespace UzScript

/-! ## Operators over the unbounded integers -/

namespace Operator

/-- A quotient rounded towards zero: what is left over is smaller than the divisor and lies on the
side of the dividend. -/
def IsQuotient (a b q : Int) : Prop :=
  b ≠ 0 ∧ ∃ r, a = b * q + r ∧ r.natAbs < b.natAbs ∧ (0 ≤ a → 0 ≤ r) ∧ (a ≤ 0 → r ≤ 0)

def IsTruth (holds : Prop) (n : Int) : Prop := (holds ∧ n = 1) ∨ (¬ holds ∧ n = 0)

/-- What an operator gives for two whole numbers. -/
def Gives : Operator → Int → Int → Int → Prop
  | .add, a, b, n => n = a + b
  | .subtract, a, b, n => n = a - b
  | .multiply, a, b, n => n = a * b
  | .divide, a, b, n => IsQuotient a b n
  | .equal, a, b, n => IsTruth (a = b) n
  | .notEqual, a, b, n => IsTruth (a ≠ b) n
  | .less, a, b, n => IsTruth (a < b) n
  | .lessOrEqual, a, b, n => IsTruth (a ≤ b) n
  | .greater, a, b, n => IsTruth (a > b) n
  | .greaterOrEqual, a, b, n => IsTruth (a ≥ b) n

theorem isQuotient_tdiv {a b : Int} (hb : b ≠ 0) : IsQuotient a b (a.tdiv b) := by
  refine ⟨hb, a.tmod b, (Int.mul_tdiv_add_tmod a b).symm, ?_, ?_, ?_⟩
  · rw [Int.natAbs_tmod]
    exact Nat.mod_lt _ (by omega)
  · exact Int.tmod_nonneg b
  · intro ha
    have hflip := Int.tmod_nonneg b (Int.neg_nonneg_of_nonpos ha)
    rw [Int.neg_tmod] at hflip
    omega

/-- Two quotients leave remainders on the same side, so these differ by less than the divisor. -/
theorem IsQuotient.unique {a b p q : Int} (hp : IsQuotient a b p) (hq : IsQuotient a b q) :
    p = q := by
  obtain ⟨hb, r, hr, hrsize, hrpos, hrneg⟩ := hp
  obtain ⟨-, s, hs, hssize, hspos, hsneg⟩ := hq
  have hdvd : b ∣ r - s := ⟨q - p, by rw [Int.mul_sub]; omega⟩
  have hsmall : (r - s).natAbs < b.natAbs := by omega
  have hsame := Int.eq_zero_of_dvd_of_natAbs_lt_natAbs hdvd hsmall
  have hmul : b * p = b * q := by omega
  exact Int.eq_of_mul_eq_mul_left hb hmul

theorem isTruth_iff {holds : Prop} [Decidable holds] {n : Int} :
    IsTruth holds n ↔ (if holds then 1 else 0) = n := by
  unfold IsTruth
  by_cases h : holds <;> simp [h, eq_comm]

theorem gives_iff {op : Operator} {a b n : Int} : op.Gives a b n ↔ op.result? a b = some n := by
  cases op with
  | divide =>
    rw [Gives, result?]
    by_cases hb : b = 0
    · simp [hb, IsQuotient]
    · rw [if_neg hb, Option.some.injEq]
      exact ⟨(isQuotient_tdiv hb).unique, fun h => h ▸ isQuotient_tdiv hb⟩
  | notEqual =>
    rw [Gives, isTruth_iff, result?, Option.some.injEq, ite_not]
  | add | subtract | multiply => rw [Gives, result?, Option.some.injEq, eq_comm]
  | equal | less | lessOrEqual | greater | greaterOrEqual =>
    rw [Gives, isTruth_iff, result?, Option.some.injEq]

theorem apply_of_gives {op : Operator} {a b i : Integer} (h : op.Gives a.val b.val i.val) :
    op.apply a b = .ok i := by
  rw [apply, gives_iff.1 h]
  simp

theorem apply_of_not_fits {op : Operator} {a b : Integer} {n : Int}
    (h : op.Gives a.val b.val n) (hn : ¬ Integer.Fits n) : op.apply a b = .error .overflow := by
  rw [apply, gives_iff.1 h]
  simp [Integer.ofInt?_eq_none_iff.2 hn]

theorem apply_divide_zero {a b : Integer} (hb : b.val = 0) :
    divide.apply a b = .error .divisionByZero := by
  rw [apply, result?_eq_none_iff.2 ⟨rfl, hb⟩]

theorem gives_or_divides_by_zero (op : Operator) (a b : Int) :
    (∃ n, op.Gives a b n) ∨ op = .divide ∧ b = 0 := by
  cases h : op.result? a b with
  | none => exact .inr (result?_eq_none_iff.1 h)
  | some n => exact .inl ⟨n, gives_iff.2 h⟩

theorem Gives.unique {op : Operator} {a b m n : Int} (hm : op.Gives a b m)
    (hn : op.Gives a b n) : m = n := by
  rw [gives_iff] at hm hn
  exact Option.some.inj (hm.symm.trans hn)

end Operator

/-! ## What an expression is worth -/

namespace Expr

/-- Built by operators from integers, lists and variables that hold integers. -/
def Arithmetic (env : Environment) : Expr → Prop
  | .integer _ _ | .list _ _ => True
  | .text _ _ | .call _ _ _ => False
  | .variable ident => ∃ i, env.get? ident.name = some (.integer i)
  | .binary _ left right _ => left.Arithmetic env ∧ right.Arithmetic env

/-- The whole number that an expression is worth. A list is worth the number of its elements. -/
def Worth (env : Environment) : Expr → Int → Prop
  | .integer value _, n => n = value.val
  | .text _ _, _ | .call _ _ _, _ => False
  | .variable ident, n => ∃ i, env.get? ident.name = some (.integer i) ∧ n = i.val
  | .binary op left right _, n => ∃ a b, left.Worth env a ∧ right.Worth env b ∧ op.Gives a b n
  | .list elements _, n => n = elements.length

/-- The parts of an expression that have a value of their own, operands before their operation. The
elements of a list are not evaluated. -/
def parts : Expr → List Expr
  | .binary op left right location =>
    left.parts ++ (right.parts ++ [.binary op left right location])
  | e => [e]

/-- The expression is worth an integer of the language. -/
def InRange (env : Environment) (e : Expr) : Prop := ∃ n, e.Worth env n ∧ Integer.Fits n

def DividesByZero (env : Environment) : Expr → Prop
  | .binary .divide _ right _ => right.Worth env 0
  | _ => False

theorem Worth.unique {env : Environment} : {e : Expr} → {m n : Int} → e.Worth env m →
    e.Worth env n → m = n
  | .integer _ _, _, _, hm, hn => hm.trans hn.symm
  | .variable _, _, _, ⟨i, hi, hm⟩, ⟨j, hj, hn⟩ => by
    have hsame : i = j := Value.integer.inj (Option.some.inj (hi.symm.trans hj))
    rw [hm, hn, hsame]
  | .binary _ _ _ _, _, _, ⟨a, b, ha, hb, hm⟩, ⟨c, d, hc, hd, hn⟩ => by
    rw [ha.unique hc, hb.unique hd] at hm
    exact hm.unique hn
  | .list _ _, _, _, hm, hn => hm.trans hn.symm

theorem Worth.not_dividesByZero {env : Environment} {e : Expr} {n : Int} (h : e.Worth env n) :
    ¬ e.DividesByZero env := by
  unfold DividesByZero
  split
  · obtain ⟨a, b, -, hb, hquotient⟩ := h
    exact fun hzero => hquotient.1 (hb.unique hzero)
  · exact id

theorem mem_parts_self (e : Expr) : e ∈ e.parts := by
  cases e <;> simp [parts]

/-- Why a part has no integer of the language for a value. -/
def Undefined (env : Environment) (part : Expr) : RuntimeCause → Prop
  | .divisionByZero => part.DividesByZero env
  | .integerOverflow => ¬ part.DividesByZero env ∧ ∃ n, part.Worth env n ∧ ¬ Integer.Fits n
  | _ => False

theorem Undefined.not_inRange {env : Environment} {part : Expr} {cause : RuntimeCause}
    (h : part.Undefined env cause) : ¬ part.InRange env := by
  rintro ⟨n, hn, hfits⟩
  unfold Undefined at h
  split at h
  · exact hn.not_dividesByZero h
  · obtain ⟨-, k, hk, hout⟩ := h
    exact hout (hn.unique hk ▸ hfits)
  · exact h

/-- The first part that is worth no integer of the language, and why. -/
def FirstUndefined (env : Environment) (e part : Expr) (cause : RuntimeCause) : Prop :=
  ∃ front back, e.parts = front ++ part :: back ∧ (∀ d ∈ front, d.InRange env) ∧
    part.Undefined env cause

variable {env : Environment} {op : Operator} {left right part : Expr} {location : Span}
  {cause : RuntimeCause}

theorem FirstUndefined.of_left (h : left.FirstUndefined env part cause) :
    (Expr.binary op left right location).FirstUndefined env part cause := by
  obtain ⟨front, back, hparts, hfront, hpart⟩ := h
  refine ⟨front, back ++ (right.parts ++ [.binary op left right location]), ?_, hfront, hpart⟩
  rw [parts, hparts, List.append_assoc, List.cons_append]

theorem FirstUndefined.of_right (hleft : ∀ d ∈ left.parts, d.InRange env)
    (h : right.FirstUndefined env part cause) :
    (Expr.binary op left right location).FirstUndefined env part cause := by
  obtain ⟨front, back, hparts, hfront, hpart⟩ := h
  refine ⟨left.parts ++ front, back ++ [.binary op left right location], ?_, ?_, hpart⟩
  · rw [parts, hparts]
    simp
  · intro d hd
    exact (List.mem_append.1 hd).elim (hleft d) (hfront d)

theorem FirstUndefined.of_operation (hleft : ∀ d ∈ left.parts, d.InRange env)
    (hright : ∀ d ∈ right.parts, d.InRange env)
    (h : (Expr.binary op left right location).Undefined env cause) :
    (Expr.binary op left right location).FirstUndefined env (.binary op left right location)
      cause := by
  refine ⟨left.parts ++ right.parts, [], ?_, ?_, h⟩
  · rw [parts, List.append_assoc]
  · intro d hd
    exact (List.mem_append.1 hd).elim (hleft d) (hright d)

theorem FirstUndefined.mem (h : left.FirstUndefined env part cause) : part ∈ left.parts := by
  obtain ⟨front, back, hparts, -, -⟩ := h
  rw [hparts]
  exact List.mem_append_right _ List.mem_cons_self

end Expr

/-! ## Evaluation -/

namespace Eval

inductive Computes (m : Machine) (e : Expr) : EStateM.Result RuntimeFault Machine Value → Prop
  | value (i : Integer) (hworth : e.Worth m.env i.val) (hparts : ∀ d ∈ e.parts, d.InRange m.env) :
      Computes m e (.ok (.integer i) m)
  | fault (part : Expr) (cause : RuntimeCause) (hfirst : e.FirstUndefined m.env part cause) :
      Computes m e (.error ⟨cause, part.location⟩ m)

theorem Computes.of_single {m : Machine} {e : Expr} {i : Integer} (hparts : e.parts = [e])
    (hworth : e.Worth m.env i.val) : Computes m e (.ok (.integer i) m) := by
  refine .value i hworth fun d hd => ?_
  rw [hparts, List.mem_singleton] at hd
  exact hd ▸ ⟨i.val, hworth, i.fits⟩

theorem computes_operation {m : Machine} {op : Operator} {left right : Expr} {location : Span}
    {i j : Integer} (hi : left.Worth m.env i.val) (hj : right.Worth m.env j.val)
    (hleft : ∀ d ∈ left.parts, d.InRange m.env) (hright : ∀ d ∈ right.parts, d.InRange m.env) :
    Computes m (.binary op left right location)
      ((operation op i j location >>= fun k => (return .integer k : Eval Value)) m) := by
  unfold operation
  rcases op.gives_or_divides_by_zero i.val j.val with ⟨n, hn⟩ | ⟨rfl, hzero⟩
  · have hworth : (Expr.binary op left right location).Worth m.env n := ⟨_, _, hi, hj, hn⟩
    by_cases hfits : Integer.Fits n
    · rw [Operator.apply_of_gives (i := ⟨n, hfits⟩) hn]
      refine .value ⟨n, hfits⟩ hworth fun d hd => ?_
      rw [Expr.parts, List.mem_append, List.mem_append, List.mem_singleton] at hd
      rcases hd with hd | hd | rfl
      · exact hleft d hd
      · exact hright d hd
      · exact ⟨n, hworth, hfits⟩
    · rw [Operator.apply_of_not_fits hn hfits]
      exact .fault (.binary op left right location) .integerOverflow
        (.of_operation hleft hright ⟨hworth.not_dividesByZero, n, hworth, hfits⟩)
  · rw [Operator.apply_divide_zero hzero]
    have hdivides : (Expr.binary .divide left right location).DividesByZero m.env := by
      rw [hzero] at hj
      exact hj
    exact .fault (.binary .divide left right location) .divisionByZero
      (.of_operation hleft hright hdivides)

theorem computes (invoke : Invoke) (m : Machine) : (e : Expr) → e.Arithmetic m.env →
    Computes m e (expr invoke e m)
  | .integer value _, _ => by
    rw [expr]
    exact .of_single rfl rfl
  | .variable ident, ⟨i, hi⟩ => by
    rw [expr, get_bind, hi]
    exact .of_single rfl ⟨i, hi, rfl⟩
  | .list elements location, _ => by
    rw [expr]
    by_cases hfits : Integer.Fits elements.length
    · rw [(Integer.ofInt?_eq_some_iff (i := ⟨_, hfits⟩)).2 rfl]
      exact .of_single rfl rfl
    · rw [Integer.ofInt?_eq_none_iff.2 hfits]
      exact .fault (.list elements location) .integerOverflow
        ⟨[], [], rfl, nofun, id, _, rfl, hfits⟩
  | .binary op left right location, ⟨hleft, hright⟩ => by
    rw [expr]
    have hl := computes invoke m left hleft
    have hr := computes invoke m right hright
    generalize hrunl : expr invoke left m = resultl at hl
    generalize hrunr : expr invoke right m = resultr at hr
    cases hl with
    | fault part cause hfirst =>
      rw [bind_of_error hrunl]
      exact .fault part cause hfirst.of_left
    | value i hi hpartsl =>
      rw [bind_of_ok hrunl]
      cases hr with
      | fault part cause hfirst =>
        rw [bind_of_error hrunr]
        exact .fault part cause (hfirst.of_right hpartsl)
      | value j hj hpartsr =>
        rw [bind_of_ok hrunr]
        exact computes_operation hi hj hpartsl hpartsr

/-- Arithmetic is exact or an error: an expression evaluates to a value just when every part is
worth an integer of the language, and then to the integer that the whole is worth. Otherwise
evaluation fails at the first part that is worth none, because this part divides by zero or because
what it is worth does not fit. Neither way does the machine change. -/
theorem expr_exact (invoke : Invoke) (m : Machine) (e : Expr) (harithmetic : e.Arithmetic m.env) :
    (∀ value after, expr invoke e m = .ok value after ↔
      after = m ∧ (∀ d ∈ e.parts, d.InRange m.env) ∧
        ∃ i, value = .integer i ∧ e.Worth m.env i.val) ∧
    ((¬ ∀ d ∈ e.parts, d.InRange m.env) → ∃ part cause, e.FirstUndefined m.env part cause ∧
      expr invoke e m = .error ⟨cause, part.location⟩ m) := by
  have hcomputes := computes invoke m e harithmetic
  generalize expr invoke e m = result at hcomputes
  cases hcomputes with
  | value i hworth hparts =>
    refine ⟨fun value after => ⟨?_, ?_⟩, fun hnot => absurd hparts hnot⟩
    · rintro ⟨⟩
      exact ⟨rfl, hparts, i, rfl, hworth⟩
    · rintro ⟨rfl, -, j, rfl, hj⟩
      rw [Integer.ext (hworth.unique hj)]
  | fault part cause hfirst =>
    refine ⟨fun value after => ⟨nofun, ?_⟩, fun _ => ⟨part, cause, hfirst, rfl⟩⟩
    rintro ⟨-, hparts, -⟩
    have hinRange := hparts part hfirst.mem
    obtain ⟨front, back, -, -, hundefined⟩ := hfirst
    exact absurd hinRange hundefined.not_inRange

/-- The least integer over minus one, the divisor written as an empty list less one. -/
theorem expr_exact_least_quotient :
    let m : Machine := ⟨Environment.initial.declare "a" (.integer ⟨Integer.least, by decide⟩), #[]⟩
    let e : Expr := .binary .divide (.variable ⟨"a", ⟨0, 1⟩⟩)
      (.binary .subtract (.list [] ⟨5, 7⟩) (.integer .one ⟨10, 11⟩) ⟨5, 11⟩) ⟨0, 11⟩
    e.Arithmetic m.env ∧ ∃ part cause, e.FirstUndefined m.env part cause ∧
      expr (invoke 0) e m = .error ⟨cause, part.location⟩ m := by
  intro m e
  have harithmetic : e.Arithmetic m.env := ⟨⟨_, rfl⟩, trivial, trivial⟩
  refine ⟨harithmetic, (expr_exact (invoke 0) m e harithmetic).2 fun hparts => ?_⟩
  obtain ⟨n, ⟨a, b, ⟨i, hi, ha⟩, ⟨c, d, hc, hd, hb⟩, hn⟩, hfits⟩ := hparts e e.mem_parts_self
  have hleast : i.val = Integer.least := by
    cases hi
    rfl
  change c = 0 at hc
  change d = 1 at hd
  change b = c - d at hb
  rw [ha, hleast, hb, hc, hd] at hn
  have hquotient : some (Integer.greatest + 1) = some n := Operator.gives_iff.1 hn
  rw [← Option.some.inj hquotient] at hfits
  exact absurd hfits (by decide)

end Eval

end UzScript
