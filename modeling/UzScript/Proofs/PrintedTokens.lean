import UzScript.Proofs.Grammar
import UzScript.Syntax.Printer

/-! # The tokens of a printed program

The tokens that a printed program consists of are themselves a phrase of the grammar for that
program, and no higher than any other phrase for it: a parenthesis is only printed where every
phrase for the program has one. The printed tokens are what is left of such a phrase when needless
parentheses are taken out. -/

set_option autoImplicit false

namespace UzScript

def wrapTokens (wrap : Bool) (ts : List Token) : List Token :=
  if wrap then .opening .round :: ts ++ [.closing .round] else ts

namespace Expr

mutual

def tokens : Expr → List Token
  | .integer value _ => [.integer value]
  | .text value _ => [.text value]
  | .variable ident => [.ident ident.name]
  | .binary op left right _ =>
    wrapTokens (left.operator?.any op.wrapsLeft) left.tokens
      ++ .operator op :: wrapTokens (right.operator?.any op.wrapsRight) right.tokens
  | .call function arguments _ =>
    .ident function.name :: .opening .round :: [Token.comma].intercalate (tokensAll arguments)
      ++ [.closing .round]
  | .list elements _ =>
    .opening .square :: [Token.comma].intercalate (tokensAll elements) ++ [.closing .square]

def tokensAll : List Expr → List (List Token)
  | [] => []
  | e :: es => e.tokens :: tokensAll es

end

theorem tokensAll_eq_map (es : List Expr) : tokensAll es = es.map tokens := by
  induction es with
  | nil => rfl
  | cons e es ih => rw [tokensAll, ih, List.map_cons]

/-- How tightly the outermost operator binds; what is no operation binds tightest. -/
def rank (e : Expr) : Nat := (e.operator?.map Operator.precedence).getD 4

end Expr

def Ident.tokens (ident : Ident) : List Token := [.ident ident.name]

mutual

def Stmt.tokens : Stmt → List Token
  | .declare ident value _ =>
    .keyword .declare :: .ident ident.name :: .assign :: value.tokens ++ [.semicolon]
  | .print value _ => .keyword .print :: value.tokens ++ [.semicolon]
  | .branch condition thenBlock elseBlock _ =>
    .keyword .branch :: .opening .round :: condition.tokens
      ++ .closing .round :: thenBlock.tokens ++ Block.elseTokens elseBlock
  | .define function => function.tokens
  | .giveBack value _ => .keyword .giveBack :: value.tokens ++ [.semicolon]

def Stmt.tokensAll : List Stmt → List (List Token)
  | [] => []
  | s :: ss => s.tokens :: Stmt.tokensAll ss

def Block.tokens : Block → List Token
  | ⟨statements, _⟩ =>
    .opening .curly :: (Stmt.tokensAll statements).flatten ++ [.closing .curly]

def Block.elseTokens : Option Block → List Token
  | none => []
  | some block => .keyword .otherwise :: block.tokens

def FunctionDef.tokens : FunctionDef → List Token
  | ⟨ident, parameters, body, _⟩ =>
    .keyword .define :: .ident ident.name :: .opening .round
      :: [Token.comma].intercalate (parameters.map Ident.tokens) ++ .closing .round :: body.tokens

end

theorem Stmt.tokensAll_eq_map (ss : List Stmt) : Stmt.tokensAll ss = ss.map Stmt.tokens := by
  induction ss with
  | nil => rfl
  | cons s ss ih => rw [Stmt.tokensAll, ih, List.map_cons]

def Program.tokens (program : Program) : List Token :=
  (Stmt.tokensAll program.statements).flatten

/-! ## Where operands are wrapped -/

/-- The least rank of a left operand that is not wrapped. -/
def Operator.leftRank (op : Operator) : Nat :=
  if op.isComparison then 2 else op.precedence

theorem Operator.precedence_bounds (op : Operator) : 1 ≤ op.precedence ∧ op.precedence ≤ 3 := by
  cases op <;> decide

theorem Expr.any_wrapsLeft (op : Operator) (e : Expr) :
    e.operator?.any op.wrapsLeft = decide (e.rank < op.leftRank) := by
  have hop := op.precedence_bounds
  unfold rank
  cases e.operator? with
  | none =>
    simp only [Option.any_none, Option.map_none, Option.getD_none, Operator.leftRank]
    split
    · simp
    · simp; omega
  | some inner =>
    have hinner := inner.precedence_bounds
    rw [Bool.eq_iff_iff]
    simp only [Option.any_some, Option.map_some, Option.getD_some, Operator.wrapsLeft,
      Operator.leftRank, Operator.isComparison, Bool.or_eq_true, Bool.and_eq_true,
      decide_eq_true_eq, beq_iff_eq]
    split <;> omega

theorem Expr.any_wrapsRight (op : Operator) (e : Expr) :
    e.operator?.any op.wrapsRight = decide (e.rank < op.precedence + 1) := by
  have hop := op.precedence_bounds
  unfold rank
  cases e.operator? with
  | none => simp; omega
  | some inner =>
    simp only [Option.any_some, Option.map_some, Option.getD_some, Operator.wrapsRight,
      Nat.lt_succ_iff]

namespace Grammar

/-! ## Layers of expressions

An operand of the given rank needs no parentheses in a phrase of the layer. -/

def layer : Nat → Phrase Expr
  | 4 => Primary Expression
  | 3 => Multiplicative
  | 2 => Additive
  | _ => Compared Additive

theorem layer_succ {q : Nat} (hq : q < 4) {ts : List Token} {h : Nat} {e : Expr}
    (phrase : layer (q + 1) ts h e) : layer q ts h e := by
  match q, hq with
  | 0, _ => exact phrase
  | 1, _ => exact .plain phrase
  | 2, _ => exact .first phrase
  | 3, _ => exact .first phrase

theorem layer_of_le {p q : Nat} (hqp : q ≤ p) (hp : p ≤ 4) {ts : List Token} {h : Nat} {e : Expr}
    (phrase : layer p ts h e) : layer q ts h e := by
  induction hqp with
  | refl => exact phrase
  | step hqp ih => exact ih (by omega) (layer_succ hp phrase)

theorem layer_expression {p : Nat} (hp : p ≤ 4) {ts : List Token} {h : Nat} {e : Expr}
    (phrase : layer p ts h e) : Expression ts (h + 1) e :=
  .intro (layer_of_le (Nat.zero_le p) hp phrase)

theorem rank_le (e : Expr) : e.rank ≤ 4 := by
  unfold Expr.rank
  cases e.operator? with
  | none => simp
  | some op =>
    have hop := op.precedence_bounds
    simp
    omega

/-- The tokens printed for `e` as an operand of rank `q` are a phrase of that layer, which is no
higher than a phrase of height `h` with the tokens `ts` and is part of it. -/
def Operand (q : Nat) : Phrase Expr := fun ts h e =>
  ∃ k, layer e.rank e.tokens k e ∧ (if e.rank < q then k < h else k ≤ h) ∧
    (wrapTokens (e.rank < q) e.tokens).Sublist ts

theorem Operand.unwrapped {q : Nat} {ts : List Token} {h k : Nat} {e : Expr} (hrank : q ≤ e.rank)
    (phrase : layer e.rank e.tokens k e) (hk : k ≤ h) (hpart : e.tokens.Sublist ts) :
    Operand q ts h e := by
  refine ⟨k, phrase, ?_, ?_⟩
  · rwa [if_neg (Nat.not_lt.2 hrank)]
  · rwa [decide_eq_false (Nat.not_lt.2 hrank), wrapTokens, if_neg (by simp)]

theorem Operand.layer {q : Nat} (hq : q ≤ 4) {ts : List Token} {h : Nat} {e : Expr}
    (operand : Operand q ts h e) :
    ∃ k, k ≤ h ∧ Grammar.layer q (wrapTokens (e.rank < q) e.tokens) k e := by
  obtain ⟨k, phrase, hk, -⟩ := operand
  by_cases hrank : e.rank < q
  · simp only [hrank, if_true] at hk
    refine ⟨k + 1, hk, layer_of_le hq (Nat.le_refl 4) ?_⟩
    rw [wrapTokens, decide_eq_true hrank, if_pos rfl]
    exact .group (layer_expression (rank_le e) phrase)
  · simp only [hrank, if_false] at hk
    refine ⟨k, hk, ?_⟩
    rw [wrapTokens, decide_eq_false hrank, if_neg (by simp)]
    exact layer_of_le (by omega) (rank_le e) phrase

theorem Operand.of_succ {q : Nat} {ts : List Token} {h : Nat} {e : Expr}
    (operand : Operand (q + 1) ts h e) : Operand q ts h e := by
  obtain ⟨k, phrase, hk, hpart⟩ := operand
  refine ⟨k, phrase, by split at hk <;> split <;> omega, ?_⟩
  by_cases hrank : e.rank < q
  · rw [decide_eq_true (Nat.lt_succ_of_lt hrank)] at hpart
    rwa [decide_eq_true hrank]
  · rw [decide_eq_false hrank]
    have hinside : e.tokens.Sublist (wrapTokens (decide (e.rank < q + 1)) e.tokens) := by
      unfold wrapTokens
      split <;> simp
    exact hinside.trans hpart

theorem layer_binary (op : Operator) {ts us : List Token} {h k : Nat} {left right : Expr}
    (first : layer op.leftRank ts h left) (second : layer (op.precedence + 1) us k right) :
    layer op.precedence (ts ++ .operator op :: us) (max h k) (.binary op left right .zero) := by
  cases op with
  | add | subtract | multiply | divide => exact .further first rfl second
  | _ => exact .compared first rfl second

theorem Operand.binary (op : Operator) {ts us : List Token} {h k : Nat} {left right : Expr}
    (first : Operand op.leftRank ts h left) (second : Operand (op.precedence + 1) us k right) :
    Operand op.precedence (ts ++ .operator op :: us) (max h k) (.binary op left right .zero) := by
  have hop := op.precedence_bounds
  have hleft : op.leftRank ≤ 4 := by
    unfold Operator.leftRank
    split <;> omega
  obtain ⟨h', hh, hfirst⟩ := first.layer hleft
  obtain ⟨k', hk, hsecond⟩ := second.layer (by omega)
  obtain ⟨-, -, -, hfirstPart⟩ := first
  obtain ⟨-, -, -, hsecondPart⟩ := second
  apply Operand.unwrapped (k := max h' k') (Nat.le_refl op.precedence)
  · simp only [Expr.tokens, Expr.any_wrapsLeft, Expr.any_wrapsRight]
    exact layer_binary op hfirst hsecond
  · omega
  · simp only [Expr.tokens, Expr.any_wrapsLeft, Expr.any_wrapsRight]
    exact hfirstPart.append (hsecondPart.cons_cons _)

theorem Chain.operand {accepts : Operator → Bool} {p : Nat}
    (haccepts : ∀ op, accepts op = true → op.precedence = p ∧ op.leftRank = p)
    {phrase : Phrase Expr}
    (hphrase : ∀ {ts : List Token} {h : Nat} {e : Expr}, phrase ts h e → Operand (p + 1) ts h e)
    {ts : List Token} {h : Nat} {e : Expr} (chain : Chain accepts phrase ts h e) :
    Operand p ts h e := by
  induction chain with
  | first phrase => exact (hphrase phrase).of_succ
  | @further _ _ _ _ _ _ op _ accepted last ih =>
    obtain ⟨hprecedence, hleft⟩ := haccepts op accepted
    rw [← hleft] at ih
    have hjoined := ih.binary op (by rw [hprecedence]; exact hphrase last)
    rwa [hprecedence] at hjoined

theorem Compared.operand {phrase : Phrase Expr}
    (hphrase : ∀ {ts : List Token} {h : Nat} {e : Expr}, phrase ts h e → Operand 2 ts h e)
    {ts : List Token} {h : Nat} {e : Expr} (compared : Compared phrase ts h e) :
    Operand 1 ts h e := by
  cases compared with
  | plain phrase => exact (hphrase phrase).of_succ
  | @compared _ _ _ _ _ _ op first accepted second =>
    have hprecedence : op.precedence = 1 := by simpa [Operator.isComparison] using accepted
    have hleft : op.leftRank = 2 := by rw [Operator.leftRank, accepted, if_pos rfl]
    have hfirst := hphrase first
    rw [← hleft] at hfirst
    have hjoined := hfirst.binary op (by rw [hprecedence]; exact hphrase second)
    rwa [hprecedence] at hjoined

/-! ## Printing phrases again -/

/-- The tokens printed for a tree are a phrase for it, no higher than the given one and part of it. -/
def Reprinted {α : Type} (tokens : α → List Token) (phrase : Phrase α) : Phrase α := fun ts h a =>
  ∃ k, k ≤ h ∧ phrase (tokens a) k a ∧ (tokens a).Sublist ts

section Lists

variable {α : Type} {item item' : Phrase α} {tokens : α → List Token}

theorem Repeated.reprinted
    (hitem : ∀ {ts : List Token} {h : Nat} {a : α}, item ts h a → Reprinted tokens item' ts h a)
    {ts : List Token} {h : Nat} {as : List α} (phrase : Repeated item ts h as) :
    Reprinted (fun as => (as.map tokens).flatten) (Repeated item') ts h as := by
  induction phrase with
  | none => exact ⟨0, Nat.le_refl 0, .none, List.Sublist.refl []⟩
  | more first others ih =>
    obtain ⟨k, hk, hfirst, hfirstPart⟩ := hitem first
    obtain ⟨l, hl, hothers, hothersPart⟩ := ih
    exact ⟨max k l, by omega, .more hfirst hothers, hfirstPart.append hothersPart⟩

theorem AfterComma.reprinted
    (hitem : ∀ {ts : List Token} {h : Nat} {a : α}, item ts h a → Reprinted tokens item' ts h a)
    {ts : List Token} {h : Nat} {a : α} (phrase : AfterComma item ts h a) :
    Reprinted (fun a => .comma :: tokens a) (AfterComma item') ts h a := by
  obtain ⟨phrase⟩ := phrase
  obtain ⟨k, hk, hphrase, hpart⟩ := hitem phrase
  exact ⟨k, hk, .intro hphrase, hpart.cons_cons _⟩

theorem intercalate_comma (ts : List Token) (rest : List (List Token)) :
    [Token.comma].intercalate (ts :: rest) = ts ++ (rest.map (Token.comma :: ·)).flatten := by
  induction rest generalizing ts with
  | nil => simp
  | cons us rest ih => simp [ih]

theorem Listed.reprinted
    (hitem : ∀ {ts : List Token} {h : Nat} {a : α}, item ts h a → Reprinted tokens item' ts h a)
    {ts : List Token} {h : Nat} {as : List α} (phrase : Listed item ts h as) :
    Reprinted (fun as => [Token.comma].intercalate (as.map tokens)) (Listed item') ts h as := by
  cases phrase with
  | none => exact ⟨0, Nat.le_refl 0, .none, List.Sublist.refl []⟩
  | some first others =>
    obtain ⟨k, hk, hfirst, hfirstPart⟩ := hitem first
    obtain ⟨l, hl, hothers, hothersPart⟩ := others.reprinted fun after => after.reprinted hitem
    refine ⟨max k l, by omega, ?_, ?_⟩
    · simp only [List.map_cons, intercalate_comma, List.map_map]
      exact .some hfirst hothers
    · simp only [List.map_cons, intercalate_comma, List.map_map]
      exact hfirstPart.append hothersPart

end Lists

theorem Primary.operand {inner : Phrase Expr}
    (hinner : ∀ {ts : List Token} {h : Nat} {e : Expr}, inner ts h e →
      ∃ k, k < h ∧ layer e.rank e.tokens k e ∧ e.tokens.Sublist ts)
    {ts : List Token} {h : Nat} {e : Expr} (primary : Primary inner ts h e) :
    Operand 4 ts h e := by
  have hexpression {ts : List Token} {h : Nat} {e : Expr} (phrase : inner ts h e) :
      Reprinted Expr.tokens Expression ts h e := by
    obtain ⟨k, hk, hlayer, hpart⟩ := hinner phrase
    exact ⟨k + 1, hk, layer_expression (rank_le e) hlayer, hpart⟩
  cases primary with
  | integer value =>
    exact .unwrapped (Nat.le_refl 4) (.integer value) (Nat.le_refl 0) (List.Sublist.refl _)
  | text value => exact .unwrapped (Nat.le_refl 4) (.text value) (Nat.le_refl 0) (List.Sublist.refl _)
  | name name => exact .unwrapped (Nat.le_refl 4) (.name name) (Nat.le_refl 0) (List.Sublist.refl _)
  | call name arguments =>
    obtain ⟨k, hk, hlisted, hpart⟩ := arguments.reprinted hexpression
    simp only [← Expr.tokensAll_eq_map] at hlisted hpart
    exact .unwrapped (Nat.le_refl 4) (.call name hlisted) hk
      (((hpart.append_right _).cons_cons _).cons_cons _)
  | group phrase =>
    obtain ⟨k, hk, hlayer, hpart⟩ := hinner phrase
    refine ⟨k, hlayer, by split <;> omega, ?_⟩
    unfold wrapTokens
    split
    · exact (hpart.append_right _).cons_cons _
    · exact (hpart.trans (List.sublist_append_left _ _)).cons _
  | list elements =>
    obtain ⟨k, hk, hlisted, hpart⟩ := elements.reprinted hexpression
    simp only [← Expr.tokensAll_eq_map] at hlisted hpart
    exact .unwrapped (Nat.le_refl 4) (.list hlisted) hk ((hpart.append_right _).cons_cons _)

theorem Expression.reprinted {ts : List Token} {h : Nat} {e : Expr} (phrase : Expression ts h e) :
    Reprinted Expr.tokens Expression ts h e := by
  have hlayer : ∃ k, k < h ∧ layer e.rank e.tokens k e ∧ e.tokens.Sublist ts := by
    apply Expression.induct (motive := fun ts h e =>
      ∃ k, k < h ∧ layer e.rank e.tokens k e ∧ e.tokens.Sublist ts) _ phrase
    intro ts h e compared
    have hmultiplicative (op : Operator) (accepted : op.isMultiplicative = true) :
        op.precedence = 3 ∧ op.leftRank = 3 := by
      cases op <;> first | exact ⟨rfl, rfl⟩ | cases accepted
    have hadditive (op : Operator) (accepted : op.isAdditive = true) :
        op.precedence = 2 ∧ op.leftRank = 2 := by
      cases op <;> first | exact ⟨rfl, rfl⟩ | cases accepted
    have hone : Operand 1 ts h e := compared.operand fun sum => sum.operand hadditive
      fun product => product.operand hmultiplicative fun primary => primary.operand id
    obtain ⟨k, hphrase, hk, hpart⟩ := hone.of_succ
    exact ⟨k, Nat.lt_succ_of_le hk, hphrase, hpart⟩
  obtain ⟨k, hk, hphrase, hpart⟩ := hlayer
  exact ⟨k + 1, hk, layer_expression (rank_le e) hphrase, hpart⟩

theorem Parameter.reprinted {ts : List Token} {h : Nat} {i : Ident} (parameter : Parameter ts h i) :
    Reprinted Ident.tokens Parameter ts h i := by
  obtain ⟨name⟩ := parameter
  exact ⟨0, Nat.le_refl 0, .intro name, List.Sublist.refl _⟩

theorem Statement.reprinted {block : Phrase UzScript.Block}
    (hblock : ∀ {ts : List Token} {h : Nat} {b : UzScript.Block}, block ts h b →
      Reprinted Block.tokens Block ts h b)
    {ts : List Token} {h : Nat} {s : Stmt} (statement : Statement block ts h s) :
    Reprinted Stmt.tokens (Statement Block) ts h s := by
  cases statement with
  | declare name value =>
    obtain ⟨k, hk, hvalue, hpart⟩ := value.reprinted
    exact ⟨k, hk, .declare name hvalue,
      (((hpart.append_right _).cons_cons _).cons_cons _).cons_cons _⟩
  | print value =>
    obtain ⟨k, hk, hvalue, hpart⟩ := value.reprinted
    exact ⟨k, hk, .print hvalue, (hpart.append_right _).cons_cons _⟩
  | branch condition thenBlock =>
    obtain ⟨k, hk, hcondition, hpart⟩ := condition.reprinted
    obtain ⟨l, hl, hthen, hthenPart⟩ := hblock thenBlock
    refine ⟨max k l, by omega, ?_, ?_⟩ <;>
      simp only [Stmt.tokens, Block.elseTokens, List.append_nil]
    · exact .branch hcondition hthen
    · exact ((hpart.append (hthenPart.cons_cons _)).cons_cons _).cons_cons _
  | branchElse condition thenBlock elseBlock =>
    obtain ⟨k, hk, hcondition, hpart⟩ := condition.reprinted
    obtain ⟨l, hl, hthen, hthenPart⟩ := hblock thenBlock
    obtain ⟨m, hm, helse, helsePart⟩ := hblock elseBlock
    exact ⟨max (max k l) m, by omega, .branchElse hcondition hthen helse,
      (((hpart.append (hthenPart.cons_cons _)).cons_cons _).cons_cons _).append
        (helsePart.cons_cons _)⟩
  | define name parameters body =>
    obtain ⟨k, hk, hparameters, hpart⟩ := parameters.reprinted Parameter.reprinted
    obtain ⟨l, hl, hbody, hbodyPart⟩ := hblock body
    exact ⟨max k l, by omega, .define name hparameters hbody,
      (((hpart.append (hbodyPart.cons_cons _)).cons_cons _).cons_cons _).cons_cons _⟩
  | giveBack value =>
    obtain ⟨k, hk, hvalue, hpart⟩ := value.reprinted
    exact ⟨k, hk, .giveBack hvalue, (hpart.append_right _).cons_cons _⟩

theorem Block.reprinted {ts : List Token} {h : Nat} {b : UzScript.Block} (block : Block ts h b) :
    Reprinted Block.tokens Block ts h b := by
  apply Block.induct (motive := Reprinted Block.tokens Block) _ block
  intro ts h ss statements
  obtain ⟨k, hk, hstatements, hpart⟩ := statements.reprinted fun statement => statement.reprinted id
  simp only [← Stmt.tokensAll_eq_map] at hstatements hpart
  exact ⟨k + 1, by omega, .intro hstatements, (hpart.append_right _).cons_cons _⟩

theorem Program.reprinted {ts : List Token} {h : Nat} {P : UzScript.Program}
    (program : Program ts h P) : Reprinted Program.tokens Program ts h P := by
  obtain ⟨statements⟩ := program
  obtain ⟨k, hk, hstatements, hpart⟩ :=
    statements.reprinted fun statement => statement.reprinted Block.reprinted
  simp only [← Stmt.tokensAll_eq_map] at hstatements hpart
  exact ⟨k, hk, .intro hstatements, hpart⟩

end Grammar

end UzScript
