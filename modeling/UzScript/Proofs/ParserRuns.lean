import UzScript.Proofs.StatefulRuns
import UzScript.Syntax.Parser

/-! # Successful runs of the parsers

On which lexemes a parser succeeds, and what it leaves of them. A parser that is made of others
succeeds exactly when they succeed one after another. -/

set_option autoImplicit false

namespace UzScript.Parser

variable {α β : Type}

/-! ## Reading from a list -/

section Reading

variable (f : Unit → Parser β) (token : Token) (accepts : Operator → Bool) (ls : List Lexeme)

theorem step_bind : (step >>= f) ls = f () ls.tail := rfl

theorem current_bind (f : Option Lexeme → Parser β) :
    (LexemeReader.current >>= f) ls = f ls.head? ls := rfl

theorem remaining_bind (f : List Lexeme → Parser β) : (LexemeReader.remaining >>= f) ls = f ls ls :=
  rfl

theorem currentIs_bind (f : Bool → Parser β) :
    (LexemeReader.currentIs token >>= f) ls = f (isAt token ls) ls := rfl

theorem nextIs_bind (f : Bool → Parser β) :
    (LexemeReader.nextIs token >>= f) ls = f (isAt token ls.tail) ls := rfl

theorem currentSpan_bind (f : Span → Parser β) :
    (LexemeReader.currentSpan >>= f) ls = f (spanAt ls) ls := rfl

theorem currentOperator_bind (f : Option Operator → Parser β) :
    (LexemeReader.currentOperator accepts >>= f) ls = f (operatorAt accepts ls) ls := rfl

end Reading

theorem expression_zero : expression 0 = nestingTooDeep := rfl

theorem block_zero : block 0 = nestingTooDeep := rfl

theorem expectAmong_cons (expected : List Expectation) (token : Token) (l : Lexeme)
    (ls : List Lexeme) :
    expectAmong expected token (l :: ls) =
      if l.token = token then .ok l.span ls
      else .error ⟨.unexpectedToken l.token expected, l.span⟩ (l :: ls) := by
  change (if l.token = token then _ else _ : Parser Span) (l :: ls) = _
  split <;> rfl

theorem expectAmong_ok {expected : List Expectation} {token : Token} {ls rest : List Lexeme}
    {span : Span} :
    expectAmong expected token ls = .ok span rest ↔ ls = ⟨token, span⟩ :: rest := by
  cases ls with
  | nil => exact ⟨nofun, nofun⟩
  | cons lexeme ls =>
    obtain ⟨found, place⟩ := lexeme
    rw [expectAmong_cons]
    by_cases h : found = token
    · simp only [h, if_true, EStateM.Result.ok.injEq, List.cons.injEq, Lexeme.mk.injEq, true_and]
    · simp only [h, if_false, reduceCtorEq, List.cons.injEq, Lexeme.mk.injEq, false_and]

theorem expect_ok {token : Token} {ls rest : List Lexeme} {span : Span} :
    expect token ls = .ok span rest ↔ ls = ⟨token, span⟩ :: rest :=
  expectAmong_ok

theorem ident_ok {ls rest : List Lexeme} {i : Ident} :
    ident ls = .ok i rest ↔ ls = ⟨.ident i.name, i.location⟩ :: rest := by
  obtain ⟨name, location⟩ := i
  rcases ls with _ | ⟨⟨found, place⟩, ls⟩
  · exact ⟨nofun, nofun⟩
  · cases found with
    | ident other =>
      change EStateM.Result.ok _ _ = _ ↔ _
      simp
    | _ => exact ⟨nofun, nofun⟩

theorem isAt_cons (token : Token) (lexeme : Lexeme) (ls : List Lexeme) :
    isAt token (lexeme :: ls) = decide (lexeme.token = token) := rfl

theorem isAt_eq_true {token : Token} {ls : List Lexeme} (h : isAt token ls = true) :
    ∃ span rest, ls = ⟨token, span⟩ :: rest := by
  cases ls with
  | nil => cases h
  | cons lexeme rest =>
    obtain ⟨found, span⟩ := lexeme
    rw [isAt_cons, decide_eq_true_eq] at h
    exact ⟨span, rest, h ▸ rfl⟩

theorem operatorAt_cons (accepts : Operator → Bool) (lexeme : Lexeme) (ls : List Lexeme) :
    operatorAt accepts (lexeme :: ls) = lexeme.token.operator?.filter accepts := rfl

theorem operatorAt_operator {accepts : Operator → Bool} {op : Operator} (h : accepts op = true)
    {span : Span} {ls : List Lexeme} :
    operatorAt accepts (⟨.operator op, span⟩ :: ls) = some op := by
  simp [operatorAt_cons, Token.operator?, h]

theorem operatorAt_eq_some {accepts : Operator → Bool} {ls : List Lexeme} {op : Operator}
    (h : operatorAt accepts ls = some op) :
    accepts op = true ∧ ∃ span rest, ls = ⟨.operator op, span⟩ :: rest := by
  cases ls with
  | nil => simp [operatorAt] at h
  | cons lexeme ls =>
    obtain ⟨token, span⟩ := lexeme
    rw [operatorAt_cons, Option.filter_eq_some_iff] at h
    obtain ⟨hop, haccepts⟩ := h
    cases token with
    | operator found =>
      cases hop
      exact ⟨haccepts, span, ls, rfl⟩
    | _ => cases hop

theorem delimited_ok {opening closing : Token} {item : Parser α} {ls rest : List Lexeme}
    {items : List α} {span : Span} :
    delimited opening closing item ls = .ok (items, span) rest ↔
      ∃ first last mid, ls = ⟨opening, first⟩ :: mid ∧ span = ⟨first.start, last.stop⟩ ∧
        ((items = [] ∧ mid = ⟨closing, last⟩ :: rest) ∨
          ∃ a after others, isAt closing mid = false ∧ item mid = .ok a after ∧
            furtherItems item after after = .ok others (⟨closing, last⟩ :: rest) ∧
              items = a :: others) := by
  simp only [delimited, bind_ok, expect_ok, currentIs_bind]
  constructor
  · rintro ⟨first, mid, rfl, hitems⟩
    cases hclosing : isAt closing mid with
    | true =>
      simp only [hclosing, if_true, bind_ok, pure_ok, expectAmong_ok] at hitems
      obtain ⟨_, _, ⟨rfl, rfl⟩, last, _, rfl, hresult, rfl⟩ := hitems
      obtain ⟨rfl, rfl⟩ := Prod.mk.inj hresult
      exact ⟨first, last, _, rfl, rfl, .inl ⟨rfl, rfl⟩⟩
    | false =>
      simp only [hclosing, Bool.false_eq_true, if_false, bind_ok, remaining_bind, pure_ok,
        expectAmong_ok] at hitems
      obtain ⟨a, after, hitem, others, _, hothers, _, _, ⟨rfl, rfl⟩, last, _, rfl, hresult, rfl⟩ :=
        hitems
      obtain ⟨rfl, rfl⟩ := Prod.mk.inj hresult
      exact ⟨first, last, mid, rfl, rfl, .inr ⟨a, after, others, hclosing, hitem, hothers, rfl⟩⟩
  · rintro ⟨first, last, mid, rfl, rfl, hitems⟩
    refine ⟨first, mid, rfl, ?_⟩
    rcases hitems with ⟨rfl, rfl⟩ | ⟨a, after, others, hclosing, hitem, hothers, rfl⟩
    · simp only [isAt_cons, decide_true, if_true, bind_ok, pure_ok, expectAmong_ok]
      exact ⟨[], _, ⟨rfl, rfl⟩, last, rest, rfl, rfl, rfl⟩
    · simp only [hclosing, Bool.false_eq_true, if_false, bind_ok, remaining_bind, pure_ok,
        expectAmong_ok]
      exact ⟨a, after, hitem, others, _, hothers, a :: others, _, ⟨rfl, rfl⟩, last, rest, rfl, rfl,
        rfl⟩

theorem comparison_ok {operand : Parser Expr} {ls rest : List Lexeme} {e : Expr} :
    comparison operand ls = .ok e rest ↔
      (additive operand ls = .ok e rest ∧ operatorAt Operator.isComparison rest = none) ∨
        ∃ op left right span mid, additive operand ls = .ok left (⟨.operator op, span⟩ :: mid) ∧
          op.isComparison = true ∧ additive operand mid = .ok right rest ∧
            e = .combine op left right := by
  constructor
  · intro hrun
    simp only [comparison, bind_ok, currentOperator_bind] at hrun
    obtain ⟨left, mid, hleft, hmore⟩ := hrun
    cases hop : operatorAt Operator.isComparison mid with
    | none =>
      simp only [hop, pure_ok] at hmore
      obtain ⟨rfl, rfl⟩ := hmore
      exact .inl ⟨hleft, hop⟩
    | some op =>
      obtain ⟨haccepts, span, mid, rfl⟩ := operatorAt_eq_some hop
      simp only [hop, step_bind, List.tail_cons, bind_ok, pure_ok] at hmore
      obtain ⟨right, _, hright, rfl, rfl⟩ := hmore
      exact .inr ⟨op, left, right, span, mid, hleft, haccepts, hright, rfl⟩
  · rintro (⟨hplain, hend⟩ | ⟨op, left, right, span, mid, hleft, haccepts, hright, rfl⟩)
    · rw [comparison, bind_of_ok hplain, currentOperator_bind, hend]
      rfl
    · rw [comparison, bind_of_ok hleft, currentOperator_bind, operatorAt_operator haccepts]
      exact bind_of_ok hright

theorem call_ok {argument : Parser Expr} {ls rest : List Lexeme} {e : Expr} :
    call argument ls = .ok e rest ↔
      ∃ name location mid es span, ls = ⟨.ident name, location⟩ :: mid ∧
        delimited (.opening .round) (.closing .round) argument mid = .ok (es, span) rest ∧
          e = .call ⟨name, location⟩ es ⟨location.start, span.stop⟩ := by
  simp only [call, bind_ok, ident_ok, pure_ok]
  constructor
  · rintro ⟨⟨name, location⟩, mid, rfl, ⟨es, span⟩, _, hitems, rfl, rfl⟩
    exact ⟨name, location, mid, es, span, rfl, hitems, rfl⟩
  · rintro ⟨name, location, mid, es, span, rfl, hitems, rfl⟩
    exact ⟨⟨name, location⟩, mid, rfl, (es, span), rest, hitems, rfl, rfl⟩

theorem listLiteral_ok {element : Parser Expr} {ls rest : List Lexeme} {e : Expr} :
    listLiteral element ls = .ok e rest ↔
      ∃ es span, delimited (.opening .square) (.closing .square) element ls = .ok (es, span) rest ∧
        e = .list es span := by
  simp only [listLiteral, bind_ok, pure_ok]
  constructor
  · rintro ⟨⟨es, span⟩, _, hitems, rfl, rfl⟩
    exact ⟨es, span, hitems, rfl⟩
  · rintro ⟨es, span, hitems, rfl⟩
    exact ⟨(es, span), rest, hitems, rfl, rfl⟩

/-- The lexemes that an operand is read from, the operand, and the lexemes that are left. -/
inductive PrimaryRun (inner : Parser Expr) : List Lexeme → Expr → List Lexeme → Prop where
  | integer (value : Integer) (span : Span) (rest : List Lexeme) :
      PrimaryRun inner (⟨.integer value, span⟩ :: rest) (.integer value span) rest
  | text (value : String) (span : Span) (rest : List Lexeme) :
      PrimaryRun inner (⟨.text value, span⟩ :: rest) (.text value span) rest
  | name (i : Ident) {rest : List Lexeme} (uncalled : isAt (.opening .round) rest = false) :
      PrimaryRun inner (⟨.ident i.name, i.location⟩ :: rest) (.variable i) rest
  | call (i : Ident) {mid rest : List Lexeme} {es : List Expr} {span : Span}
      (items : delimited (.opening .round) (.closing .round) inner mid = .ok (es, span) rest) :
      PrimaryRun inner (⟨.ident i.name, i.location⟩ :: mid)
        (.call i es ⟨i.location.start, span.stop⟩) rest
  | group (first last : Span) {mid rest : List Lexeme} {e : Expr}
      (value : inner mid = .ok e (⟨.closing .round, last⟩ :: rest)) :
      PrimaryRun inner (⟨.opening .round, first⟩ :: mid) e rest
  | list {ls rest : List Lexeme} {es : List Expr} {span : Span}
      (items : delimited (.opening .square) (.closing .square) inner ls = .ok (es, span) rest) :
      PrimaryRun inner ls (.list es span) rest

theorem primary_ok {inner : Parser Expr} {ls rest : List Lexeme} {e : Expr} :
    primary inner ls = .ok e rest ↔ PrimaryRun inner ls e rest := by
  constructor
  · intro hrun
    rw [primary, current_bind] at hrun
    generalize hls : ls.head? = head at hrun
    split at hrun
    · exact absurd hrun throw_ok.1
    · obtain ⟨ls, rfl⟩ := List.head?_eq_some_iff.1 hls
      obtain ⟨rfl, rfl⟩ := pure_ok.1 hrun
      exact .integer _ _ _
    · obtain ⟨ls, rfl⟩ := List.head?_eq_some_iff.1 hls
      obtain ⟨rfl, rfl⟩ := pure_ok.1 hrun
      exact .text _ _ _
    · next name span =>
      obtain ⟨ls, rfl⟩ := List.head?_eq_some_iff.1 hls
      rw [nextIs_bind, List.tail_cons] at hrun
      cases hround : isAt (.opening .round) ls with
      | true =>
        simp only [hround, if_true] at hrun
        obtain ⟨_, _, _, es, items, hcons, hitems, rfl⟩ := call_ok.1 hrun
        cases hcons
        exact .call ⟨name, span⟩ hitems
      | false =>
        simp only [hround, Bool.false_eq_true, if_false, bind_ok, ident_ok, pure_ok] at hrun
        obtain ⟨i, _, hcons, rfl, rfl⟩ := hrun
        cases hcons
        exact .name i hround
    · obtain ⟨ls, rfl⟩ := List.head?_eq_some_iff.1 hls
      simp only [step_bind, List.tail_cons, bind_ok, expect_ok, pure_ok] at hrun
      obtain ⟨value, _, hvalue, last, _, rfl, rfl, rfl⟩ := hrun
      exact .group _ last hvalue
    · obtain ⟨es, items, hitems, rfl⟩ := listLiteral_ok.1 hrun
      exact .list hitems
    · exact absurd hrun throw_ok.1
  · intro hrun
    cases hrun with
    | integer | text => rfl
    | name i uncalled =>
      rw [primary, current_bind]
      simp only [List.head?_cons, nextIs_bind, List.tail_cons, uncalled, Bool.false_eq_true, if_false,
        bind_ok, ident_ok, pure_ok]
      exact ⟨i, rest, rfl, rfl, rfl⟩
    | call i items =>
      obtain ⟨first, last, mid, rfl, -⟩ := delimited_ok.1 items
      exact call_ok.2 ⟨i.name, i.location, _, _, _, rfl, items, rfl⟩
    | group first last value =>
      rw [primary, current_bind]
      simp only [List.head?_cons, step_bind, List.tail_cons, bind_ok, expect_ok, pure_ok]
      exact ⟨e, _, value, last, rest, rfl, rfl, rfl⟩
    | list items =>
      obtain ⟨first, last, mid, rfl, -⟩ := delimited_ok.1 items
      exact listLiteral_ok.2 ⟨_, _, items, rfl⟩

theorem declaration_ok {value : Parser Expr} {ls rest : List Lexeme} {s : Stmt} :
    declaration value ls = .ok s rest ↔
      ∃ first name location assign last mid e,
        ls = ⟨.keyword .declare, first⟩ :: ⟨.ident name, location⟩ :: ⟨.assign, assign⟩ :: mid ∧
          value mid = .ok e (⟨.semicolon, last⟩ :: rest) ∧
            s = .declare ⟨name, location⟩ e ⟨first.start, last.stop⟩ := by
  simp only [declaration, bind_ok, expect_ok, ident_ok, pure_ok]
  constructor
  · rintro ⟨first, _, rfl, ⟨name, location⟩, _, rfl, assign, mid, rfl, e, _, hvalue, last, _, rfl,
      rfl, rfl⟩
    exact ⟨first, name, location, assign, last, mid, e, rfl, hvalue, rfl⟩
  · rintro ⟨first, name, location, assign, last, mid, e, rfl, hvalue, rfl⟩
    exact ⟨first, _, rfl, ⟨name, location⟩, _, rfl, assign, mid, rfl, e, _, hvalue, last, rest, rfl,
      rfl, rfl⟩

theorem printing_ok {value : Parser Expr} {ls rest : List Lexeme} {s : Stmt} :
    printing value ls = .ok s rest ↔
      ∃ first last mid e, ls = ⟨.keyword .print, first⟩ :: mid ∧
        value mid = .ok e (⟨.semicolon, last⟩ :: rest) ∧
          s = .print e ⟨first.start, last.stop⟩ := by
  simp only [printing, bind_ok, expect_ok, pure_ok]
  constructor
  · rintro ⟨first, mid, rfl, e, _, hvalue, last, _, rfl, rfl, rfl⟩
    exact ⟨first, last, mid, e, rfl, hvalue, rfl⟩
  · rintro ⟨first, last, mid, e, rfl, hvalue, rfl⟩
    exact ⟨first, mid, rfl, e, _, hvalue, last, rest, rfl, rfl, rfl⟩

theorem givingBack_ok {value : Parser Expr} {ls rest : List Lexeme} {s : Stmt} :
    givingBack value ls = .ok s rest ↔
      ∃ first last mid e, ls = ⟨.keyword .giveBack, first⟩ :: mid ∧
        value mid = .ok e (⟨.semicolon, last⟩ :: rest) ∧
          s = .giveBack e ⟨first.start, last.stop⟩ := by
  simp only [givingBack, bind_ok, expect_ok, pure_ok]
  constructor
  · rintro ⟨first, mid, rfl, e, _, hvalue, last, _, rfl, rfl, rfl⟩
    exact ⟨first, last, mid, e, rfl, hvalue, rfl⟩
  · rintro ⟨first, last, mid, e, rfl, hvalue, rfl⟩
    exact ⟨first, mid, rfl, e, _, hvalue, last, rest, rfl, rfl, rfl⟩

theorem branching_ok {condition : Parser Expr} {block : Parser Block} {ls rest : List Lexeme}
    {s : Stmt} :
    branching condition block ls = .ok s rest ↔
      ∃ first opening closing mid e after b rest',
        ls = ⟨.keyword .branch, first⟩ :: ⟨.opening .round, opening⟩ :: mid ∧
          condition mid = .ok e (⟨.closing .round, closing⟩ :: after) ∧
            block after = .ok b rest' ∧
              ((isAt (.keyword .otherwise) rest' = false ∧ rest' = rest ∧
                  s = .branch e b none ⟨first.start, b.location.stop⟩) ∨
                ∃ otherwise more c, rest' = ⟨.keyword .otherwise, otherwise⟩ :: more ∧
                  block more = .ok c rest ∧
                    s = .branch e b (some c) ⟨first.start, c.location.stop⟩) := by
  simp only [branching, bind_ok, expect_ok, currentIs_bind]
  constructor
  · rintro ⟨first, _, rfl, opening, mid, rfl, e, _, hcondition, closing, after, rfl, b, rest', hblock,
      hend⟩
    refine ⟨first, opening, closing, mid, e, after, b, rest', rfl, hcondition, hblock, ?_⟩
    cases hother : isAt (.keyword .otherwise) rest' with
    | false =>
      simp only [hother, Bool.false_eq_true, if_false, pure_ok] at hend
      exact .inl ⟨rfl, hend.2, hend.1.symm⟩
    | true =>
      obtain ⟨span, more, rfl⟩ := isAt_eq_true hother
      simp only [hother, if_true, step_bind, List.tail_cons, bind_ok, pure_ok] at hend
      obtain ⟨c, _, hmore, rfl, rfl⟩ := hend
      exact .inr ⟨span, more, c, rfl, hmore, rfl⟩
  · rintro ⟨first, opening, closing, mid, e, after, b, rest', rfl, hcondition, hblock, hend⟩
    refine ⟨first, _, rfl, opening, mid, rfl, e, _, hcondition, closing, after, rfl, b, rest', hblock,
      ?_⟩
    rcases hend with ⟨hother, rfl, rfl⟩ | ⟨otherwise, more, c, rfl, hmore, rfl⟩
    · simp only [hother, Bool.false_eq_true, if_false, pure_ok, and_self]
    · simp only [isAt_cons, decide_true, if_true, step_bind, List.tail_cons, bind_ok, pure_ok]
      exact ⟨c, rest, hmore, rfl, rfl⟩

theorem functionDef_ok {block : Parser Block} {ls rest : List Lexeme} {f : FunctionDef} :
    functionDef block ls = .ok f rest ↔
      ∃ first name location mid parameters span after body,
        ls = ⟨.keyword .define, first⟩ :: ⟨.ident name, location⟩ :: mid ∧
          delimited (.opening .round) (.closing .round) ident mid = .ok (parameters, span) after ∧
            block after = .ok body rest ∧
              f = ⟨⟨name, location⟩, parameters, body, ⟨first.start, body.location.stop⟩⟩ := by
  simp only [functionDef, bind_ok, expect_ok, ident_ok, pure_ok]
  constructor
  · rintro ⟨first, _, rfl, ⟨name, location⟩, mid, rfl, ⟨parameters, span⟩, after, hparameters, body, _,
      hbody, rfl, rfl⟩
    exact ⟨first, name, location, mid, parameters, span, after, body, rfl, hparameters, hbody, rfl⟩
  · rintro ⟨first, name, location, mid, parameters, span, after, body, rfl, hparameters, hbody, rfl⟩
    exact ⟨first, _, rfl, ⟨name, location⟩, mid, rfl, (parameters, span), after, hparameters, body, rest,
      hbody, rfl, rfl⟩

inductive StatementRun (value : Parser Expr) (block : Parser Block) (ls : List Lexeme) :
    Stmt → List Lexeme → Prop where
  | declare {s : Stmt} {rest : List Lexeme} (run : declaration value ls = .ok s rest) :
      StatementRun value block ls s rest
  | print {s : Stmt} {rest : List Lexeme} (run : printing value ls = .ok s rest) :
      StatementRun value block ls s rest
  | branch {s : Stmt} {rest : List Lexeme} (run : branching value block ls = .ok s rest) :
      StatementRun value block ls s rest
  | define {f : FunctionDef} {rest : List Lexeme} (run : functionDef block ls = .ok f rest) :
      StatementRun value block ls (.define f) rest
  | giveBack {s : Stmt} {rest : List Lexeme} (run : givingBack value ls = .ok s rest) :
      StatementRun value block ls s rest

theorem statementOf_ok {value : Parser Expr} {block : Parser Block} {ls rest : List Lexeme}
    {s : Stmt} :
    statementOf value block ls = .ok s rest ↔ StatementRun value block ls s rest := by
  constructor
  · intro hrun
    rw [statementOf, current_bind] at hrun
    generalize ls.head? = head at hrun
    split at hrun
    · exact absurd hrun throw_ok.1
    · exact .declare hrun
    · exact .print hrun
    · exact .branch hrun
    · obtain ⟨f, _, hf, hpure⟩ := bind_ok.1 hrun
      obtain ⟨rfl, rfl⟩ := pure_ok.1 hpure
      exact .define hf
    · exact .giveBack hrun
    · exact absurd hrun throw_ok.1
  · intro hrun
    rw [statementOf, current_bind]
    cases hrun with
    | declare run =>
      obtain ⟨_, _, _, _, _, _, _, rfl, -⟩ := declaration_ok.1 run
      exact run
    | print run =>
      obtain ⟨_, _, _, _, rfl, -⟩ := printing_ok.1 run
      exact run
    | branch run =>
      obtain ⟨_, _, _, _, _, _, _, _, rfl, -⟩ := branching_ok.1 run
      exact run
    | define run =>
      obtain ⟨_, _, _, _, _, _, _, _, rfl, -⟩ := functionDef_ok.1 run
      exact bind_of_ok run
    | giveBack run =>
      obtain ⟨_, _, _, _, rfl, -⟩ := givingBack_ok.1 run
      exact run

theorem blockOf_ok {statement : Parser Stmt} {ls rest : List Lexeme} {b : Block} :
    blockOf statement ls = .ok b rest ↔
      ∃ first last mid ss, ls = ⟨.opening .curly, first⟩ :: mid ∧
        blockStatements statement mid mid = .ok ss (⟨.closing .curly, last⟩ :: rest) ∧
          b = ⟨ss, ⟨first.start, last.stop⟩⟩ := by
  simp only [blockOf, bind_ok, expect_ok, remaining_bind, pure_ok]
  constructor
  · rintro ⟨first, mid, rfl, ss, _, hstatements, last, _, rfl, rfl, rfl⟩
    exact ⟨first, last, mid, ss, rfl, hstatements, rfl⟩
  · rintro ⟨first, last, mid, ss, rfl, hstatements, rfl⟩
    exact ⟨first, mid, rfl, ss, _, hstatements, last, rest, rfl, rfl, rfl⟩

end UzScript.Parser
