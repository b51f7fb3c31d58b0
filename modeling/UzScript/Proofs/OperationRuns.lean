import UzScript.Proofs.EarliestFault
import UzScript.Proofs.Relocation

/-! # How operations are read

Operands are joined in a loop, from the left, so that an operation is what the loop has made by the
time when it has read the right operand, and the loop may still go on. Such a run up to an operation
can be moved to another place. When nothing continues it there, the operation is all that is read. -/

set_option autoImplicit false

namespace UzScript

/-- The expression is made of the other one by operations, or it is the other one. -/
inductive Expr.MadeOf : Expr → Expr → Prop
  | self (e : Expr) : MadeOf e e
  | left {op : Operator} {left right e : Expr} {location : Span} (part : MadeOf left e) :
      MadeOf (.binary op left right location) e
  | right {op : Operator} {left right e : Expr} {location : Span} (part : MadeOf right e) :
      MadeOf (.binary op left right location) e

theorem Expr.madeOf_combine {op : Operator} {left right e : Expr}
    (h : (Expr.combine op left right).MadeOf e) :
    e = .combine op left right ∨ left.MadeOf e ∨ right.MadeOf e := by
  rw [Expr.combine] at h
  cases h with
  | self => exact .inl rfl
  | left part => exact .inr (.inl part)
  | right part => exact .inr (.inr part)

namespace Parser

open Grammar (Phrase)

/-- The loop over operands, up to some operand: `rest` is left then, whatever it starts with. -/
inductive ChainRun (accepts : Operator → Bool) (operand : Parser Expr) (ls : List Lexeme) :
    Expr → List Lexeme → Prop
  | first {e : Expr} {rest : List Lexeme} (run : operand ls = .ok e rest) :
      ChainRun accepts operand ls e rest
  | further {op : Operator} {span : Span} {left right : Expr} {mid rest : List Lexeme}
      (front : ChainRun accepts operand ls left (⟨.operator op, span⟩ :: mid))
      (accepted : accepts op = true) (last : operand mid = .ok right rest) :
      ChainRun accepts operand ls (.combine op left right) rest

/-- The runs that come to an operation. -/
inductive OperationRun (operand : Parser Expr) (ls : List Lexeme) : Expr → List Lexeme → Prop
  | multiplied {op : Operator} {span : Span} {left right : Expr} {mid rest : List Lexeme}
      (front : ChainRun Operator.isMultiplicative operand ls left (⟨.operator op, span⟩ :: mid))
      (accepted : op.isMultiplicative = true) (last : operand mid = .ok right rest) :
      OperationRun operand ls (.combine op left right) rest
  | added {op : Operator} {span : Span} {left right : Expr} {mid rest : List Lexeme}
      (front : ChainRun Operator.isAdditive (operandChain Operator.isMultiplicative operand) ls left
        (⟨.operator op, span⟩ :: mid))
      (accepted : op.isAdditive = true)
      (last : operandChain Operator.isMultiplicative operand mid = .ok right rest) :
      OperationRun operand ls (.combine op left right) rest
  | compared {op : Operator} {span : Span} {left right : Expr} {mid rest : List Lexeme}
      (front : additive operand ls = .ok left (⟨.operator op, span⟩ :: mid))
      (accepted : op.isComparison = true) (last : additive operand mid = .ok right rest) :
      OperationRun operand ls (.combine op left right) rest

section Runs

variable {accepts : Operator → Bool} {operand operand' : Parser Expr} {phrase : Phrase Expr}
  {limit : Nat} {ls ls' rest : List Lexeme} {e : Expr} (hsound : Sound operand Expr.erase phrase limit)

theorem Sound.suffix {α : Type} {p : Parser α} {erase : α → α} {phrase : Phrase α}
    (h : Sound p erase phrase limit) {a : α} (hrun : p ls = .ok a rest) : rest <:+ ls := by
  obtain ⟨front, -, rfl, -⟩ := h hrun
  exact List.suffix_append front rest

/-! ## The runs of a parser -/

theorem ChainRun.of_furtherOperands {rounds mid : List Lexeme} {left : Expr}
    (hfront : ChainRun accepts operand ls left mid)
    (hrun : furtherOperands accepts operand rounds left mid = .ok e rest) :
    ChainRun accepts operand ls e rest := by
  induction rounds generalizing left mid with
  | nil =>
    obtain ⟨rfl, rfl⟩ := pure_ok.1 hrun
    exact hfront
  | cons _ rounds ih =>
    cases hop : operatorAt accepts mid with
    | none =>
      rw [furtherOperands_end hop] at hrun
      cases hrun
      exact hfront
    | some op =>
      obtain ⟨haccepts, span, mid, rfl⟩ := operatorAt_eq_some hop
      rw [furtherOperands, currentOperator_bind] at hrun
      simp only [hop, step_bind, List.tail_cons, bind_ok] at hrun
      obtain ⟨right, mid', hright, hmore⟩ := hrun
      exact ih (.further hfront haccepts hright) hmore

theorem ChainRun.of_operandChain (hrun : operandChain accepts operand ls = .ok e rest) :
    ChainRun accepts operand ls e rest := by
  simp only [operandChain, bind_ok, remaining_bind] at hrun
  obtain ⟨left, mid, hleft, hmore⟩ := hrun
  exact .of_furtherOperands (.first hleft) hmore

theorem ChainRun.alone (h : ChainRun accepts operand ls e rest) (hoperand : e.operator? = none) :
    operand ls = .ok e rest := by
  cases h with
  | first run => exact run
  | further => cases hoperand

theorem operand_of_comparison (hrun : comparison operand ls = .ok e rest)
    (hoperand : e.operator? = none) : operand ls = .ok e rest := by
  rcases comparison_ok.1 hrun with ⟨hplain, -⟩ | ⟨op, left, right, span, mid, -, -, -, rfl⟩
  · have hfactor := (ChainRun.of_operandChain hplain).alone hoperand
    exact (ChainRun.of_operandChain hfactor).alone hoperand
  · cases hoperand

/-- The loop goes on from where the run has come to. -/
theorem ChainRun.operandChain_eq (hs : Shrinks operand) (h : ChainRun accepts operand ls e rest) :
    operandChain accepts operand ls = (get >>= (furtherOperands accepts operand · e)) rest := by
  induction h with
  | first run => exact bind_of_ok run
  | @further op span left right mid rest _ accepted last ih =>
    rw [ih, get_bind, (furtherOperands_rounds hs).unroll, operandRound, get_bind,
      operatorAt_operator accepted]
    exact bind_of_ok last

theorem ChainRun.run (hs : Shrinks operand) (h : ChainRun accepts operand ls e rest)
    (hend : operatorAt accepts rest = none) : operandChain accepts operand ls = .ok e rest := by
  rw [h.operandChain_eq hs, get_bind, furtherOperands_end hend]

include hsound

theorem ChainRun.suffix (h : ChainRun accepts operand ls e rest) : rest <:+ ls := by
  induction h with
  | first run => exact hsound.suffix run
  | further _ _ last ih => exact ((hsound.suffix last).trans (List.suffix_cons _ _)).trans ih

theorem OperationRun.run (h : OperationRun operand ls e rest) (hrest : ContinueNothing rest) :
    comparison operand ls = .ok e rest := by
  have hend (accepts : Operator → Bool) : operatorAt accepts rest = none := hrest.operatorAt accepts
  cases h with
  | multiplied front accepted last =>
    have hchain := (ChainRun.further front accepted last).run hsound.shrinks (hend _)
    exact comparison_ok.2 (.inl ⟨operandChain_end hchain (hend _), hend _⟩)
  | added front accepted last =>
    have hchain := (ChainRun.further front accepted last).run (operandChain_sound hsound).shrinks
      (hend _)
    exact comparison_ok.2 (.inl ⟨hchain, hend _⟩)
  | compared front accepted last =>
    exact comparison_ok.2 (.inr ⟨_, _, _, _, _, front, accepted, last, rfl⟩)

/-! ## The parts of an expression -/

theorem ChainRun.parts {r : Expr} (h : ChainRun accepts operand ls r rest) (hpart : r.MadeOf e) :
    (∃ op span left right mid back, ChainRun accepts operand ls left (⟨.operator op, span⟩ :: mid) ∧
      accepts op = true ∧ operand mid = .ok right back ∧ e = .combine op left right) ∨
    ∃ x mid back, mid <:+ ls ∧ operand mid = .ok x back ∧ x.MadeOf e := by
  induction h with
  | first run => exact .inr ⟨_, ls, _, List.suffix_refl ls, run, hpart⟩
  | @further op span left right mid rest front accepted last ih =>
    rcases Expr.madeOf_combine hpart with rfl | hleft | hright
    · exact .inl ⟨op, span, left, right, mid, rest, front, accepted, last, rfl⟩
    · exact ih hleft
    · exact .inr ⟨right, mid, rest, (List.suffix_cons _ _).trans (front.suffix hsound), last, hright⟩

theorem additive_parts {r : Expr} (hrun : additive operand ls = .ok r rest) (hpart : r.MadeOf e) :
    (∃ mid back, mid <:+ ls ∧ OperationRun operand mid e back) ∨
    ∃ x mid back, mid <:+ ls ∧ operand mid = .ok x back ∧ x.MadeOf e := by
  rcases (ChainRun.of_operandChain hrun).parts (operandChain_sound hsound) hpart with
    ⟨op, span, left, right, mid, back, front, accepted, last, rfl⟩ | ⟨x, mid, back, hmid, hx, hpart⟩
  · exact .inl ⟨ls, back, List.suffix_refl ls, .added front accepted last⟩
  rcases (ChainRun.of_operandChain hx).parts hsound hpart with
    ⟨op, span, left, right, mid', back, front, accepted, last, rfl⟩ | ⟨y, mid', back, hmid', hy, hpart⟩
  · exact .inl ⟨mid, back, hmid, .multiplied front accepted last⟩
  · exact .inr ⟨y, mid', back, hmid'.trans hmid, hy, hpart⟩

theorem comparison_parts {r : Expr} (hrun : comparison operand ls = .ok r rest)
    (hpart : r.MadeOf e) :
    (∃ mid back, mid <:+ ls ∧ OperationRun operand mid e back) ∨
    ∃ x mid back, mid <:+ ls ∧ operand mid = .ok x back ∧ x.MadeOf e := by
  rcases comparison_ok.1 hrun with
    ⟨hplain, -⟩ | ⟨op, left, right, span, mid, hleft, haccepts, hright, rfl⟩
  · exact additive_parts hsound hplain hpart
  · rcases Expr.madeOf_combine hpart with rfl | hpart | hpart
    · exact .inl ⟨ls, rest, List.suffix_refl ls, .compared hleft haccepts hright⟩
    · exact additive_parts hsound hleft hpart
    · have hafter := (operandChain_sound (operandChain_sound hsound)).suffix hleft
      have hmid := (List.suffix_cons _ mid).trans hafter
      rcases additive_parts hsound hright hpart with ⟨mid', back, hmid', h⟩ | ⟨x, mid', back, hmid', h⟩
      · exact .inl ⟨mid', back, hmid'.trans hmid, h⟩
      · exact .inr ⟨x, mid', back, hmid'.trans hmid, h⟩

end Runs

/-! ## Runs in another place -/

section Moves

variable {M : Relocation} {accepts : Operator → Bool} {operand operand' : Parser Expr}
  {phrase : Phrase Expr} {limit : Nat} {ls ls' rest : List Lexeme} {e : Expr}

theorem right_moves {op : Operator} {span : Span} {left left' right : Expr} {mid : List Lexeme}
    (hsound : Sound operand Expr.erase phrase limit) (hoperand : Moves M Expr.shift operand operand')
    (hbeside : M.Beside (⟨.operator op, span⟩ :: mid) ls')
    (hleft : left.shift M.n = left'.shift M.n') (hrun : operand mid = .ok right rest)
    (hlength : M.ending.length ≤ rest.length) :
    ∃ span' mid' right' rest', ls' = ⟨.operator op, span'⟩ :: mid' ∧ M.Beside rest rest' ∧
      operand' mid' = .ok right' rest' ∧
        (Expr.combine op left right).shift M.n = (Expr.combine op left' right').shift M.n' := by
  have hmid := hsound.length_le hrun
  obtain ⟨span', mid', rfl, -, hbeside'⟩ := hbeside.take (by omega)
  obtain ⟨right', rest', hrest, hrun', hright⟩ := hoperand hbeside' hrun hlength
  refine ⟨span', mid', right', rest', rfl, hrest, hrun', ?_⟩
  rw [Expr.shift_combine, hleft, hright, Expr.shift_combine]

theorem ChainRun.moves (hsound : Sound operand Expr.erase phrase limit)
    (hoperand : Moves M Expr.shift operand operand') (hbeside : M.Beside ls ls')
    (h : ChainRun accepts operand ls e rest) (hlength : M.ending.length ≤ rest.length) :
    ∃ e' rest', M.Beside rest rest' ∧ ChainRun accepts operand' ls' e' rest' ∧
      e.shift M.n = e'.shift M.n' := by
  induction h with
  | first run =>
    obtain ⟨e', rest', hrest, hrun', hsame⟩ := hoperand hbeside run hlength
    exact ⟨e', rest', hrest, .first hrun', hsame⟩
  | @further op span left right mid rest _ accepted last ih =>
    have hmid := hsound.length_le last
    obtain ⟨left', mid₀, hmid₀, hfront, hleft⟩ := ih (by rw [List.length_cons]; omega)
    obtain ⟨span', mid', right', rest', rfl, hrest, hlast, hsame⟩ :=
      right_moves hsound hoperand hmid₀ hleft last hlength
    exact ⟨_, rest', hrest, .further hfront accepted hlast, hsame⟩

theorem OperationRun.moves (hsound : Sound operand Expr.erase phrase limit)
    (hoperand : Moves M Expr.shift operand operand') (hbeside : M.Beside ls ls')
    (h : OperationRun operand ls e rest) (hlength : M.ending.length ≤ rest.length) :
    ∃ e' rest', M.Beside rest rest' ∧ OperationRun operand' ls' e' rest' ∧
      e.shift M.n = e'.shift M.n' := by
  have hsound' : Sound (operandChain Operator.isMultiplicative operand) Expr.erase _ limit :=
    operandChain_sound hsound
  have hoperand' : Moves M Expr.shift (operandChain Operator.isMultiplicative operand)
      (operandChain Operator.isMultiplicative operand') :=
    operandChain_moves hsound hoperand
  cases h with
  | @multiplied op span left right mid rest front accepted last =>
    have hmid := hsound.length_le last
    obtain ⟨left', mid₀, hmid₀, hfront, hleft⟩ :=
      front.moves hsound hoperand hbeside (by rw [List.length_cons]; omega)
    obtain ⟨span', mid', right', rest', rfl, hrest, hlast, hsame⟩ :=
      right_moves hsound hoperand hmid₀ hleft last hlength
    exact ⟨_, rest', hrest, .multiplied hfront accepted hlast, hsame⟩
  | @added op span left right mid rest front accepted last =>
    have hmid := hsound'.length_le last
    obtain ⟨left', mid₀, hmid₀, hfront, hleft⟩ :=
      front.moves hsound' hoperand' hbeside (by rw [List.length_cons]; omega)
    obtain ⟨span', mid', right', rest', rfl, hrest, hlast, hsame⟩ :=
      right_moves hsound' hoperand' hmid₀ hleft last hlength
    exact ⟨_, rest', hrest, .added hfront accepted hlast, hsame⟩
  | @compared op span left right mid rest front accepted last =>
    have hsound'' : Sound (additive operand) Expr.erase _ limit := operandChain_sound hsound'
    have hmid := hsound''.length_le last
    obtain ⟨left', mid₀, hmid₀, hfront, hleft⟩ :=
      additive_moves hsound hoperand hbeside front (by rw [List.length_cons]; omega)
    obtain ⟨span', mid', right', rest', rfl, hrest, hlast, hsame⟩ :=
      right_moves hsound'' (additive_moves hsound hoperand) hmid₀ hleft last hlength
    exact ⟨_, rest', hrest, .compared hfront accepted hlast, hsame⟩

end Moves

end Parser

end UzScript
