import UzScript.Proofs.Erasure
import UzScript.Proofs.Grammar
import UzScript.Proofs.ParserRuns

/-! # The parser recognizes the expressions of the grammar

A parser with `limit` levels left takes exactly the phrases of at most that height. What it takes is
such a phrase, and it takes every such phrase that is not continued by what comes after it. Each
parser is compared with its class of phrases under the assumption that the parsers for its parts
agree with theirs; induction on the levels discharges the assumption. -/

set_option autoImplicit false

namespace UzScript.Parser

open Grammar

variable {α : Type}

/-- What the parser takes is a phrase of at most the given height. -/
def Sound (p : Parser α) (erase : α → α) (phrase : Phrase α) (limit : Nat) : Prop :=
  ∀ ⦃ls : List Lexeme⦄ ⦃a : α⦄ ⦃rest : List Lexeme⦄, p ls = .ok a rest →
    ∃ front h, ls = front ++ rest ∧ h ≤ limit ∧ phrase (front.map Lexeme.token) h (erase a)

theorem Sound.length_le {p : Parser α} {erase : α → α} {phrase : Phrase α} {limit : Nat}
    (h : Sound p erase phrase limit) {ls rest : List Lexeme} {a : α} (hrun : p ls = .ok a rest) :
    rest.length ≤ ls.length := by
  obtain ⟨front, -, rfl, -⟩ := h hrun
  rw [List.length_append]
  exact Nat.le_add_left _ _

/-- The parser takes a phrase of at most the given height when it stops before what follows. -/
def Complete (p : Parser α) (erase : α → α) (phrase : Phrase α) (limit : Nat)
    (stops : List Lexeme → Prop) : Prop :=
  ∀ ⦃ts : List Token⦄ ⦃h : Nat⦄ ⦃a : α⦄, phrase ts h a → h ≤ limit →
    ∀ ⦃front rest : List Lexeme⦄, front.map Lexeme.token = ts → stops rest →
      ∃ b, p (front ++ rest) = .ok b rest ∧ erase b = a

theorem map_token_eq_cons {front : List Lexeme} {t : Token} {ts : List Token}
    (h : front.map Lexeme.token = t :: ts) :
    ∃ span back, front = ⟨t, span⟩ :: back ∧ back.map Lexeme.token = ts := by
  obtain ⟨⟨token, span⟩, back, rfl, rfl, hback⟩ := List.map_eq_cons_iff.1 h
  exact ⟨span, back, rfl, hback⟩

theorem map_token_eq_append {front : List Lexeme} {ts us : List Token}
    (h : front.map Lexeme.token = ts ++ us) :
    ∃ f g, front = f ++ g ∧ f.map Lexeme.token = ts ∧ g.map Lexeme.token = us :=
  List.map_eq_append_iff.1 h

theorem map_token_eq_bracketed {front : List Lexeme} {t u : Token} {ts : List Token}
    (h : front.map Lexeme.token = t :: ts ++ [u]) :
    ∃ s s' mid, front = ⟨t, s⟩ :: mid ++ [⟨u, s'⟩] ∧ mid.map Lexeme.token = ts := by
  rw [List.cons_append] at h
  obtain ⟨s, back, rfl, hback⟩ := map_token_eq_cons h
  obtain ⟨mid, last, rfl, hmid, hlast⟩ := map_token_eq_append hback
  obtain ⟨s', _, rfl, hnil⟩ := map_token_eq_cons hlast
  rw [List.map_eq_nil_iff.1 hnil]
  exact ⟨s, s', mid, rfl, hmid⟩

/-! ## Lists of items -/

section Items

variable {item : Parser α} {erase : α → α} {phrase : Phrase α} {limit : Nat}
  {stops : List Lexeme → Prop}

theorem furtherItems_sound (hitem : Sound item erase phrase limit) (rounds : List Lexeme) :
    Sound (furtherItems item rounds) (List.map erase) (Repeated (AfterComma phrase)) limit := by
  induction rounds with
  | nil =>
    intro ls as rest h
    obtain ⟨rfl, rfl⟩ := pure_ok.1 h
    exact ⟨[], 0, rfl, Nat.zero_le _, .none⟩
  | cons _ rounds ih =>
    intro ls as rest h
    rw [furtherItems, currentIs_bind] at h
    split at h
    · next hcomma =>
      obtain ⟨span, ls, rfl⟩ := isAt_eq_true hcomma
      simp only [step_bind, List.tail_cons, bind_ok, pure_ok] at h
      obtain ⟨a, mid, ha, as, _, has, rfl, rfl⟩ := h
      obtain ⟨f, k, rfl, hk, hphrase⟩ := hitem ha
      obtain ⟨g, l, rfl, hl, hothers⟩ := ih has
      refine ⟨⟨.comma, span⟩ :: f ++ g, max k l, by simp, by omega, ?_⟩
      rw [List.map_append]
      exact .more (.intro hphrase) hothers
    · obtain ⟨rfl, rfl⟩ := pure_ok.1 h
      exact ⟨[], 0, rfl, Nat.zero_le _, .none⟩

theorem stops_furtherItems (hcomma : ∀ span more, stops (⟨.comma, span⟩ :: more)) {ts : List Token}
    {h : Nat} {as : List α} (hothers : Repeated (AfterComma phrase) ts h as)
    {front rest : List Lexeme} (hts : front.map Lexeme.token = ts) (hstops : stops rest) :
    stops (front ++ rest) := by
  cases hothers with
  | none => rwa [List.map_eq_nil_iff.1 hts, List.nil_append]
  | more second _ =>
    obtain ⟨_⟩ := second
    obtain ⟨span, front, rfl, -⟩ := map_token_eq_cons hts
    exact hcomma span _

theorem furtherItems_end {rest : List Lexeme} (hend : isAt .comma rest = false)
    (rounds : List Lexeme) : furtherItems item rounds rest = .ok [] rest := by
  cases rounds with
  | nil => rfl
  | cons _ rounds =>
    rw [furtherItems, currentIs_bind, hend]
    rfl

/-- Each round takes a comma, so that as many rounds as lexemes are enough. -/
theorem furtherItems_complete (hitem : Complete item erase phrase limit stops)
    (hcomma : ∀ span more, stops (⟨.comma, span⟩ :: more)) {ts : List Token} {h : Nat} {as : List α}
    (hphrase : Repeated (AfterComma phrase) ts h as) (hh : h ≤ limit) {front rest : List Lexeme}
    (hts : front.map Lexeme.token = ts) (hstops : stops rest) (hend : isAt .comma rest = false)
    (rounds : List Lexeme) (hrounds : front.length ≤ rounds.length) :
    ∃ bs, furtherItems item rounds (front ++ rest) = .ok bs rest ∧ bs.map erase = as := by
  induction hphrase generalizing front rounds with
  | none =>
    rw [List.map_eq_nil_iff.1 hts, List.nil_append]
    exact ⟨[], furtherItems_end hend rounds, rfl⟩
  | @more _ us k l a as first others ih =>
    obtain ⟨hitemPhrase⟩ := first
    obtain ⟨f, g, rfl, hf, hg⟩ := map_token_eq_append hts
    obtain ⟨span, f, rfl, hf'⟩ := map_token_eq_cons hf
    obtain ⟨b, hb, rfl⟩ := hitem hitemPhrase (by omega) hf'
      (stops_furtherItems hcomma others hg hstops)
    cases rounds with
    | nil => simp at hrounds
    | cons _ rounds =>
      obtain ⟨bs, hbs, rfl⟩ := ih (by omega) hg rounds (by simp at hrounds; omega)
      refine ⟨b :: bs, ?_, rfl⟩
      rw [furtherItems, currentIs_bind]
      simp only [List.cons_append, List.append_assoc, isAt_cons, decide_true, if_true, step_bind,
        List.tail_cons, bind_ok, pure_ok]
      exact ⟨b, _, hb, bs, _, hbs, rfl, rfl⟩

theorem delimited_sound {opening closing : Token} (hitem : Sound item erase phrase limit)
    {ls rest : List Lexeme} {as : List α} {span : Span}
    (hrun : delimited opening closing item ls = .ok (as, span) rest) :
    ∃ first last front h, ls = ⟨opening, first⟩ :: front ++ ⟨closing, last⟩ :: rest ∧ h ≤ limit ∧
      Listed phrase (front.map Lexeme.token) h (as.map erase) := by
  obtain ⟨first, last, mid, rfl, -, ⟨rfl, rfl⟩ | ⟨a, after, others, -, ha, hothers, rfl⟩⟩ :=
    delimited_ok.1 hrun
  · exact ⟨first, last, [], 0, rfl, Nat.zero_le _, .none⟩
  · obtain ⟨f, k, rfl, hk, hphrase⟩ := hitem ha
    obtain ⟨g, l, rfl, hl, hmore⟩ := furtherItems_sound hitem _ hothers
    refine ⟨first, last, f ++ g, max k l, by simp, by omega, ?_⟩
    rw [List.map_append]
    exact .some hphrase hmore

theorem delimited_complete {opening closing : Token}
    (hitem : Complete item erase phrase limit stops)
    (hcomma : ∀ span more, stops (⟨.comma, span⟩ :: more))
    (hclosing : ∀ span more, stops (⟨closing, span⟩ :: more)) (hne : closing ≠ .comma)
    (hstart : ∀ ts h a, phrase ts h a → ∃ t us, ts = t :: us ∧ t ≠ closing)
    {ts : List Token} {h : Nat} {as : List α} (hphrase : Listed phrase ts h as) (hh : h ≤ limit)
    {front rest : List Lexeme} (hts : front.map Lexeme.token = ts) (first last : Span) :
    ∃ bs span, delimited opening closing item
        (⟨opening, first⟩ :: front ++ ⟨closing, last⟩ :: rest) = .ok (bs, span) rest ∧
      bs.map erase = as := by
  cases hphrase with
  | none =>
    rw [List.map_eq_nil_iff.1 hts]
    exact ⟨[], _, delimited_ok.2 ⟨first, last, _, rfl, rfl, .inl ⟨rfl, rfl⟩⟩, rfl⟩
  | @some _ us k l a as hfirst hothers =>
    obtain ⟨f, g, rfl, hf, hg⟩ := map_token_eq_append hts
    have hend : isAt .comma (⟨closing, last⟩ :: rest) = false := by
      rw [isAt_cons, decide_eq_false_iff_not]
      exact hne
    have hopen : isAt closing (f ++ (g ++ ⟨closing, last⟩ :: rest)) = false := by
      obtain ⟨t, us, rfl, ht⟩ := hstart _ _ _ hfirst
      obtain ⟨span, f, rfl, -⟩ := map_token_eq_cons hf
      rw [List.cons_append, isAt_cons, decide_eq_false_iff_not]
      exact ht
    obtain ⟨b, hb, rfl⟩ := hitem hfirst (by omega) hf
      (stops_furtherItems hcomma hothers hg (hclosing last rest))
    obtain ⟨bs, hbs, rfl⟩ := furtherItems_complete hitem hcomma hothers (by omega) hg
      (hclosing last rest) hend (g ++ ⟨closing, last⟩ :: rest) (by simp)
    refine ⟨b :: bs, ⟨first.start, last.stop⟩, ?_, rfl⟩
    rw [List.cons_append, List.append_assoc]
    exact delimited_ok.2 ⟨first, last, _, rfl, rfl, .inr ⟨b, _, bs, hopen, hb, hbs, rfl⟩⟩

end Items

/-! ## Operands and operators -/

def EndsChain (accepts : Operator → Bool) (stops : List Lexeme → Prop) (rest : List Lexeme) : Prop :=
  stops rest ∧ operatorAt accepts rest = none

section Operands

variable {accepts : Operator → Bool} {operand : Parser Expr} {phrase : Phrase Expr} {limit : Nat}
  {stops : List Lexeme → Prop}

theorem furtherOperands_sound (hoperand : Sound operand Expr.erase phrase limit)
    (rounds : List Lexeme) {left e : Expr} {ls rest : List Lexeme}
    (hrun : furtherOperands accepts operand rounds left ls = .ok e rest) {ts : List Token} {h : Nat}
    (hleft : Chain accepts phrase ts h left.erase) (hh : h ≤ limit) :
    ∃ front k, ls = front ++ rest ∧ k ≤ limit ∧
      Chain accepts phrase (ts ++ front.map Lexeme.token) k e.erase := by
  -- the left operand is all that was read so far, and each round leaves it a chain
  induction rounds generalizing left ls ts h with
  | nil =>
    obtain ⟨rfl, rfl⟩ := pure_ok.1 hrun
    exact ⟨[], h, rfl, hh, by simpa using hleft⟩
  | cons _ rounds ih =>
    rw [furtherOperands, currentOperator_bind] at hrun
    cases hop : operatorAt accepts ls with
    | none =>
      simp only [hop] at hrun
      obtain ⟨rfl, rfl⟩ := pure_ok.1 hrun
      exact ⟨[], h, rfl, hh, by simpa using hleft⟩
    | some op =>
      obtain ⟨haccepts, span, ls, rfl⟩ := operatorAt_eq_some hop
      simp only [hop, step_bind, List.tail_cons, bind_ok] at hrun
      obtain ⟨right, mid, hright, hmore⟩ := hrun
      obtain ⟨f, k, rfl, hk, hphrase⟩ := hoperand hright
      have hjoined : Chain accepts phrase (ts ++ .operator op :: f.map Lexeme.token) (max h k)
          (Expr.combine op left right).erase := .further hleft haccepts hphrase
      obtain ⟨g, l, rfl, hl, hchain⟩ := ih hmore hjoined (by omega)
      refine ⟨⟨.operator op, span⟩ :: f ++ g, l, by simp, hl, ?_⟩
      simpa using hchain

theorem operandChain_sound (hoperand : Sound operand Expr.erase phrase limit) :
    Sound (operandChain accepts operand) Expr.erase (Chain accepts phrase) limit := by
  intro ls e rest hrun
  simp only [operandChain, bind_ok, remaining_bind] at hrun
  obtain ⟨left, mid, hleft, hmore⟩ := hrun
  obtain ⟨f, h, rfl, hh, hphrase⟩ := hoperand hleft
  obtain ⟨g, k, rfl, hk, hchain⟩ := furtherOperands_sound hoperand _ hmore (.first hphrase) hh
  exact ⟨f ++ g, k, by simp, hk, by simpa using hchain⟩

theorem furtherOperands_end {rest : List Lexeme} (hend : operatorAt accepts rest = none)
    (rounds : List Lexeme) (e : Expr) :
    furtherOperands accepts operand rounds e rest = .ok e rest := by
  cases rounds with
  | nil => rfl
  | cons _ rounds =>
    rw [furtherOperands, currentOperator_bind, hend]
    rfl

theorem operandChain_end {ls rest : List Lexeme} {e : Expr} (hrun : operand ls = .ok e rest)
    (hend : operatorAt accepts rest = none) : operandChain accepts operand ls = .ok e rest := by
  rw [operandChain, bind_of_ok hrun, remaining_bind]
  exact furtherOperands_end hend rest e

/-- After the operands of a chain, the loop stands before what follows, with their tree as its left
operand and rounds for all that is left. -/
theorem operandChain_run (hoperand : Complete operand Expr.erase phrase limit stops)
    (hop : ∀ op span more, accepts op = true → stops (⟨.operator op, span⟩ :: more))
    {ts : List Token} {h : Nat} {e : Expr} (hchain : Chain accepts phrase ts h e) (hh : h ≤ limit)
    {front rest : List Lexeme} (hts : front.map Lexeme.token = ts) (hstops : stops rest) :
    ∃ b rounds, operandChain accepts operand (front ++ rest) =
        furtherOperands accepts operand rounds b rest ∧
      b.erase = e ∧ rest.length ≤ rounds.length := by
  induction hchain generalizing front rest with
  -- a chain grows at its right end, so its last round is the one to run here
  | first hphrase =>
    obtain ⟨b, hb, rfl⟩ := hoperand hphrase hh hts hstops
    refine ⟨b, rest, ?_, rfl, Nat.le_refl _⟩
    rw [operandChain, bind_of_ok hb, remaining_bind]
  | @further _ _ k l left right op hfront haccepts hlast ih =>
    obtain ⟨f, g, rfl, hf, hg⟩ := map_token_eq_append hts
    obtain ⟨span, g, rfl, hg'⟩ := map_token_eq_cons hg
    obtain ⟨b, rounds, hrun, rfl, hrounds⟩ :=
      ih (by omega) hf (hop op span (g ++ rest) haccepts)
    obtain ⟨c, hc, rfl⟩ := hoperand hlast (by omega) hg' hstops
    cases rounds with
    | nil => simp at hrounds
    | cons _ rounds =>
      refine ⟨.combine op b c, rounds, ?_, rfl, by simp at hrounds; omega⟩
      have hnext : operatorAt accepts (⟨.operator op, span⟩ :: (g ++ rest)) = some op := by
        rw [operatorAt_cons]
        simp [Token.operator?, haccepts]
      rw [List.append_assoc, List.cons_append, hrun, furtherOperands, currentOperator_bind, hnext]
      simp only [step_bind, List.tail_cons]
      rw [bind_of_ok hc]

theorem operandChain_complete (hoperand : Complete operand Expr.erase phrase limit stops)
    (hop : ∀ op span more, accepts op = true → stops (⟨.operator op, span⟩ :: more)) :
    Complete (operandChain accepts operand) Expr.erase (Chain accepts phrase) limit
      (EndsChain accepts stops) := by
  rintro ts h e hchain hh front rest hts ⟨hstops, hend⟩
  obtain ⟨b, rounds, hrun, rfl, -⟩ := operandChain_run hoperand hop hchain hh hts hstops
  exact ⟨b, hrun.trans (furtherOperands_end hend rounds b), rfl⟩

end Operands

/-- No parenthesis follows, which would make a name the name of a call. -/
def EndsPrimary (rest : List Lexeme) : Prop := isAt (.opening .round) rest = false

def EndsMultiplicative : List Lexeme → Prop := EndsChain Operator.isMultiplicative EndsPrimary

def EndsAdditive : List Lexeme → Prop := EndsChain Operator.isAdditive EndsMultiplicative

def EndsExpression : List Lexeme → Prop := EndsChain Operator.isComparison EndsAdditive

theorem operatorAt_eq_none {accepts : Operator → Bool} {op : Operator} (h : accepts op = false)
    (span : Span) (more : List Lexeme) : operatorAt accepts (⟨.operator op, span⟩ :: more) = none := by
  simp [operatorAt_cons, Token.operator?, h]

theorem endsPrimary_operator (op : Operator) (span : Span) (more : List Lexeme) :
    EndsPrimary (⟨.operator op, span⟩ :: more) := by
  simp [EndsPrimary, isAt_cons]

theorem endsMultiplicative_operator {op : Operator} (h : op.isMultiplicative = false) (span : Span)
    (more : List Lexeme) : EndsMultiplicative (⟨.operator op, span⟩ :: more) :=
  ⟨endsPrimary_operator op span more, operatorAt_eq_none h span more⟩

theorem endsAdditive_operator {op : Operator} (h : op.isComparison = true) (span : Span)
    (more : List Lexeme) : EndsAdditive (⟨.operator op, span⟩ :: more) := by
  have hprecedence : op.precedence = 1 := by simpa [Operator.isComparison] using h
  have hmultiplicative : op.isMultiplicative = false := by
    simp [Operator.isMultiplicative, hprecedence]
  have hadditive : op.isAdditive = false := by simp [Operator.isAdditive, hprecedence]
  exact ⟨endsMultiplicative_operator hmultiplicative span more,
    operatorAt_eq_none hadditive span more⟩

theorem endsExpression_cons {token : Token} (hop : token.operator? = none)
    (hround : token ≠ .opening .round) (span : Span) (more : List Lexeme) :
    EndsExpression (⟨token, span⟩ :: more) := by
  have hnone (accepts : Operator → Bool) : operatorAt accepts (⟨token, span⟩ :: more) = none := by
    simp [operatorAt_cons, hop]
  have hprimary : EndsPrimary (⟨token, span⟩ :: more) := by
    simpa [EndsPrimary, isAt_cons] using hround
  exact ⟨⟨⟨hprimary, hnone _⟩, hnone _⟩, hnone _⟩

theorem endsExpression_comma (span : Span) (more : List Lexeme) :
    EndsExpression (⟨.comma, span⟩ :: more) :=
  endsExpression_cons rfl (by simp) span more

theorem endsExpression_closing (bracket : Bracket) (span : Span) (more : List Lexeme) :
    EndsExpression (⟨.closing bracket, span⟩ :: more) :=
  endsExpression_cons rfl (by simp) span more

theorem endsExpression_semicolon (span : Span) (more : List Lexeme) :
    EndsExpression (⟨.semicolon, span⟩ :: more) :=
  endsExpression_cons rfl (by simp) span more

/-! ## Expressions -/

section Expressions

variable {inner : Parser Expr} {limit : Nat}

def startsOperand : Token → Bool
  | .integer _ | .text _ | .ident _ | .opening .round | .opening .square => true
  | _ => false

theorem primary_start {phrase : Phrase Expr} {ts : List Token} {h : Nat} {e : Expr}
    (hprimary : Primary phrase ts h e) : ∃ t us, ts = t :: us ∧ startsOperand t = true := by
  cases hprimary <;> exact ⟨_, _, rfl, rfl⟩

theorem chain_start {accepts : Operator → Bool} {phrase : Phrase Expr}
    (hstart : ∀ ts h e, phrase ts h e → ∃ t us, ts = t :: us ∧ startsOperand t = true)
    {ts : List Token} {h : Nat} {e : Expr} (hchain : Chain accepts phrase ts h e) :
    ∃ t us, ts = t :: us ∧ startsOperand t = true := by
  induction hchain with
  | first hphrase => exact hstart _ _ _ hphrase
  | further _ _ _ ih =>
    obtain ⟨t, us, rfl, ht⟩ := ih
    exact ⟨t, _, rfl, ht⟩

theorem expression_start {ts : List Token} {h : Nat} {e : Expr} (hphrase : Expression ts h e) :
    ∃ t us, ts = t :: us ∧ startsOperand t = true := by
  have hadditive {ts : List Token} {h : Nat} {e : Expr} (ha : Additive ts h e) :
      ∃ t us, ts = t :: us ∧ startsOperand t = true :=
    chain_start (fun _ _ _ hm => chain_start (fun _ _ _ hp => primary_start hp) hm) ha
  obtain ⟨hphrase⟩ := hphrase
  cases hphrase with
  | plain ha => exact hadditive ha
  | compared ha _ _ =>
    obtain ⟨t, us, rfl, ht⟩ := hadditive ha
    exact ⟨t, _, rfl, ht⟩

theorem expression_start_ne {closing : Token} (hclosing : startsOperand closing = false)
    (ts : List Token) (h : Nat) (e : Expr) (hphrase : Expression ts h e) :
    ∃ t us, ts = t :: us ∧ t ≠ closing := by
  obtain ⟨t, us, rfl, ht⟩ := expression_start hphrase
  refine ⟨t, us, rfl, ?_⟩
  rintro rfl
  rw [hclosing] at ht
  cases ht

theorem primary_sound (hinner : Sound inner Expr.erase Expression limit) :
    Sound (primary inner) Expr.erase (Primary Expression) limit := by
  intro ls e rest hrun
  cases primary_ok.1 hrun with
  | integer value span => exact ⟨[⟨.integer value, span⟩], 0, rfl, Nat.zero_le _, .integer value⟩
  | text value span => exact ⟨[⟨.text value, span⟩], 0, rfl, Nat.zero_le _, .text value⟩
  | name i => exact ⟨[⟨.ident i.name, i.location⟩], 0, rfl, Nat.zero_le _, .name i.name⟩
  | call i items =>
    obtain ⟨first, last, front, h, rfl, hh, hlisted⟩ := delimited_sound hinner items
    refine ⟨⟨.ident i.name, i.location⟩ :: ⟨.opening .round, first⟩ :: front
      ++ [⟨.closing .round, last⟩], h, by simp, hh, ?_⟩
    simpa [Expr.erase, Ident.erase] using Primary.call i.name hlisted
  | group first last value =>
    obtain ⟨front, h, rfl, hh, hphrase⟩ := hinner value
    refine ⟨⟨.opening .round, first⟩ :: front ++ [⟨.closing .round, last⟩], h, by simp, hh, ?_⟩
    simpa using Primary.group hphrase
  | list items =>
    obtain ⟨first, last, front, h, rfl, hh, hlisted⟩ := delimited_sound hinner items
    refine ⟨⟨.opening .square, first⟩ :: front ++ [⟨.closing .square, last⟩], h, by simp, hh, ?_⟩
    simpa [Expr.erase] using Primary.list hlisted

theorem primary_complete (hinner : Complete inner Expr.erase Expression limit EndsExpression) :
    Complete (primary inner) Expr.erase (Primary Expression) limit EndsPrimary := by
  intro ts h e hprimary hh front rest hts hend
  cases hprimary with
  | integer value =>
    obtain ⟨span, _, rfl, hnil⟩ := map_token_eq_cons hts
    rw [List.map_eq_nil_iff.1 hnil]
    exact ⟨.integer value span, rfl, rfl⟩
  | text value =>
    obtain ⟨span, _, rfl, hnil⟩ := map_token_eq_cons hts
    rw [List.map_eq_nil_iff.1 hnil]
    exact ⟨.text value span, rfl, rfl⟩
  | name name =>
    obtain ⟨span, _, rfl, hnil⟩ := map_token_eq_cons hts
    rw [List.map_eq_nil_iff.1 hnil]
    exact ⟨.variable ⟨name, span⟩, primary_ok.2 (.name ⟨name, span⟩ hend), rfl⟩
  | call name hlisted =>
    obtain ⟨location, front, rfl, hfront⟩ := map_token_eq_cons hts
    obtain ⟨first, last, mid, rfl, hmid⟩ := map_token_eq_bracketed hfront
    obtain ⟨es, span, hitems, rfl⟩ := delimited_complete hinner endsExpression_comma
      (endsExpression_closing .round) (by simp) (expression_start_ne rfl) hlisted hh hmid first last
    refine ⟨.call ⟨name, location⟩ es ⟨location.start, span.stop⟩, ?_, ?_⟩
    · simp only [List.cons_append, List.append_assoc, List.nil_append]
      exact primary_ok.2 (.call ⟨name, location⟩ hitems)
    · simp [Expr.erase, Ident.erase]
  | group hphrase =>
    obtain ⟨first, last, mid, rfl, hmid⟩ := map_token_eq_bracketed hts
    obtain ⟨b, hb, rfl⟩ := hinner hphrase hh hmid (endsExpression_closing .round last rest)
    refine ⟨b, ?_, rfl⟩
    simp only [List.cons_append, List.append_assoc, List.nil_append]
    exact primary_ok.2 (.group first last hb)
  | list hlisted =>
    obtain ⟨first, last, mid, rfl, hmid⟩ := map_token_eq_bracketed hts
    obtain ⟨es, span, hitems, rfl⟩ := delimited_complete hinner endsExpression_comma
      (endsExpression_closing .square) (by simp) (expression_start_ne rfl) hlisted hh hmid first last
    refine ⟨.list es span, ?_, by simp [Expr.erase]⟩
    simp only [List.cons_append, List.append_assoc, List.nil_append]
    exact primary_ok.2 (.list hitems)

theorem additive_sound (hinner : Sound inner Expr.erase Expression limit) :
    Sound (additive (primary inner)) Expr.erase Additive limit :=
  operandChain_sound (operandChain_sound (primary_sound hinner))

theorem additive_complete (hinner : Complete inner Expr.erase Expression limit EndsExpression) :
    Complete (additive (primary inner)) Expr.erase Additive limit EndsAdditive := by
  have hmultiplicative : Complete (operandChain Operator.isMultiplicative (primary inner)) Expr.erase
      Multiplicative limit EndsMultiplicative :=
    operandChain_complete (primary_complete hinner) fun op span more _ =>
      endsPrimary_operator op span more
  apply operandChain_complete hmultiplicative
  intro op span more hop
  apply endsMultiplicative_operator
  have hprecedence : op.precedence = 2 := by simpa [Operator.isAdditive] using hop
  simp [Operator.isMultiplicative, hprecedence]

theorem comparison_sound (hinner : Sound inner Expr.erase Expression limit) :
    Sound (comparison (primary inner)) Expr.erase Expression (limit + 1) := by
  intro ls e rest hrun
  rcases comparison_ok.1 hrun with
    ⟨hplain, -⟩ | ⟨op, left, right, span, mid, hleft, haccepts, hright, rfl⟩
  · obtain ⟨f, h, rfl, hh, hphrase⟩ := additive_sound hinner hplain
    exact ⟨f, h + 1, rfl, by omega, .intro (.plain hphrase)⟩
  · obtain ⟨f, h, rfl, hh, hphrase⟩ := additive_sound hinner hleft
    obtain ⟨g, k, rfl, hk, hsecond⟩ := additive_sound hinner hright
    refine ⟨f ++ ⟨.operator op, span⟩ :: g, max h k + 1, by simp, by omega, ?_⟩
    rw [List.map_append]
    exact .intro (.compared hphrase haccepts hsecond)

theorem comparison_complete (hinner : Complete inner Expr.erase Expression limit EndsExpression) :
    Complete (comparison (primary inner)) Expr.erase Expression (limit + 1) EndsExpression := by
  rintro ts _ e ⟨hphrase⟩ hh front rest hts ⟨hadditive, hend⟩
  cases hphrase with
  | plain hphrase =>
    obtain ⟨b, hb, rfl⟩ := additive_complete hinner hphrase (by omega) hts hadditive
    exact ⟨b, comparison_ok.2 (.inl ⟨hb, hend⟩), rfl⟩
  | @compared _ _ h k left right op hfirst haccepts hsecond =>
    obtain ⟨f, g, rfl, hf, hg⟩ := map_token_eq_append hts
    obtain ⟨span, g, rfl, hg'⟩ := map_token_eq_cons hg
    obtain ⟨b, hb, rfl⟩ := additive_complete hinner hfirst (by omega) hf
      (endsAdditive_operator haccepts span (g ++ rest))
    obtain ⟨c, hc, rfl⟩ := additive_complete hinner hsecond (by omega) hg' hadditive
    refine ⟨.combine op b c, ?_, rfl⟩
    rw [List.append_assoc, List.cons_append]
    exact comparison_ok.2 (.inr ⟨op, b, c, span, g ++ rest, hb, haccepts, hc, rfl⟩)

end Expressions

theorem expression_sound (levels : Nat) :
    Sound (expression levels) Expr.erase Expression levels := by
  induction levels with
  | zero =>
    intro ls e rest hrun
    rw [expression_zero, nestingTooDeep, get_bind] at hrun
    exact absurd hrun throw_ok.1
  | succ levels ih => exact comparison_sound ih

theorem expression_complete (levels : Nat) :
    Complete (expression levels) Expr.erase Expression levels EndsExpression := by
  induction levels with
  | zero =>
    rintro ts _ e ⟨hphrase⟩ hh
    omega
  | succ levels ih => exact comparison_complete ih

end UzScript.Parser
