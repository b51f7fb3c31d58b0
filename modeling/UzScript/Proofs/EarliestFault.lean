import UzScript.Proofs.Prediction

/-! # Parse faults come as early as they can

All parsers of the grammar are predictive. So the lexemes before the one at which the parser stops
begin some program, those up to it begin none, and each token that the fault names could have stood
there. -/

set_option autoImplicit false

open Computability

namespace UzScript.Parser

open Grammar

/-! ## Operands and operators -/

section Operands

variable {accepts : Operator → Bool} {operand operand' : Parser Expr} {phrase : Phrase Expr}

def operators (accepts : Operator → Bool) : Language Token :=
  {ts | ∃ op, accepts op = true ∧ ts = [.operator op]}

theorem operatorAt_congr {ls ls' : List Lexeme} (h : ls'.head? = ls.head?)
    (accepts : Operator → Bool) : operatorAt accepts ls' = operatorAt accepts ls := by
  rw [operatorAt, h, operatorAt]

theorem Accounted.ifOperator {p q : Parser Expr} {f g : Operator → Parser Expr} {L M : Language Token}
    [Completable M] {ls : List Lexeme} (hL : operators accepts * M ≤ L)
    (hnone : Accounted q L ls (p ls))
    (hsome : ∀ op rest, rest.length < ls.length → Accounted (g op) M rest (f op rest)) :
    Accounted (get >>= fun ls => match operatorAt accepts ls with
        | none => q
        | some op => step >>= fun _ => g op) L ls
      ((get >>= fun ls => match operatorAt accepts ls with
        | none => p
        | some op => step >>= fun _ => f op) ls) := by
  cases hop : operatorAt accepts ls with
  | none =>
    refine hnone.recast (by rw [get_bind, hop]) fun ls' hls' => ?_
    rw [get_bind, operatorAt_congr hls', hop]
  | some op =>
    obtain ⟨haccepts, span, rest, rfl⟩ := operatorAt_eq_some hop
    have hmore := Accounted.bind (step_accounted (l := ⟨.operator op, span⟩) (by simp) rest)
      fun _ mid hmid => hsome op mid (by cases hmid; simp)
    have hone : just (.operator op) ≤ operators accepts := by
      rintro ts rfl
      exact ⟨op, haccepts, rfl⟩
    have hjoined := hmore.mono ((mul_le_mul_left hone _).trans hL)
    refine hjoined.recast (by rw [get_bind, hop]) fun ls' hls' => ?_
    rw [get_bind, operatorAt_congr hls', hop]

def operandRound (accepts : Operator → Bool) (operand : Parser Expr) (more : Expr → Parser Expr)
    (left : Expr) : Parser Expr := do
  match operatorAt accepts (← get) with
  | none => return left
  | some op =>
    step
    let right ← operand
    more (.combine op left right)

theorem furtherOperands_rounds (hoperand : Shrinks operand) :
    Rounds (furtherOperands accepts operand) (operandRound accepts operand) where
  exhausted _ _ := rfl
  round _ _ _ _ := rfl
  guarded {more more'} left ls h := by
    rw [operandRound, operandRound, get_bind, get_bind]
    cases hop : operatorAt accepts ls with
    | none => rfl
    | some op =>
      obtain ⟨-, span, ls, rfl⟩ := operatorAt_eq_some hop
      simp only [step_bind, List.tail_cons]
      refine bind_congr_run fun right mid hrun => h _ mid ?_
      exact Nat.lt_succ_of_le (hoperand hrun)

theorem furtherOperands_predicts {O : Language Token} [Completable O]
    (hoperand : Predicts operand operand' O) (hs : Shrinks operand) (hs' : Shrinks operand')
    (left : Expr) :
    Predicts (get >>= (furtherOperands accepts operand · left))
      (get >>= (furtherOperands accepts operand' · left)) ((operators accepts * O)∗) := by
  intro ls
  induction hn : ls.length using Nat.strong_induction_on generalizing ls left with
  | _ n ih =>
    subst hn
    refine Accounted.recast ?_ ((furtherOperands_rounds hs).unroll left ls) fun ls' _ =>
      (furtherOperands_rounds hs').unroll left ls'
    have hL : operators accepts * (O * (operators accepts * O)∗) ≤ (operators accepts * O)∗ := by
      rw [← mul_assoc]
      exact mul_kstar_le_kstar
    refine .ifOperator hL ((Accounted.pure left ls).mono one_le_kstar) fun op rest hrest => ?_
    refine .bind (hoperand rest) fun right mid hmid => ?_
    exact ih mid.length (Nat.lt_of_le_of_lt (hs hmid) hrest) _ mid rfl

theorem chain_words :
    words phrase * (operators accepts * words phrase)∗ ≤ words (Chain accepts phrase) := by
  have hfirst : words phrase ≤ words (Chain accepts phrase) := by
    rintro ts ⟨h, e, hphrase⟩
    exact ⟨h, e, .first hphrase⟩
  have hfurther : words (Chain accepts phrase) * (operators accepts * words phrase) ≤
      words (Chain accepts phrase) := by
    rintro _ ⟨ts, ⟨h, left, hchain⟩, _, ⟨_, ⟨op, haccepts, rfl⟩, us, ⟨k, right, hlast⟩, rfl⟩, rfl⟩
    exact ⟨_, _, .further hchain haccepts hlast⟩
  exact (mul_le_mul_left hfirst _).trans (mul_kstar_le_self hfurther)

instance [h : Completable (words phrase)] : Completable (words (Chain accepts phrase)) := by
  obtain ⟨ts, k, e, hphrase⟩ := h.word
  exact ⟨ts, k, e, .first hphrase⟩

theorem operandChain_predicts [Completable (words phrase)]
    (hoperand : Predicts operand operand' (words phrase)) (hs : Shrinks operand)
    (hs' : Shrinks operand') :
    Predicts (operandChain accepts operand) (operandChain accepts operand')
      (words (Chain accepts phrase)) := by
  intro ls
  have hchain : Accounted (operandChain accepts operand')
      (words phrase * (operators accepts * words phrase)∗) ls (operandChain accepts operand ls) :=
    .bind (hoperand ls) fun left mid _ => furtherOperands_predicts hoperand hs hs' left mid
  exact hchain.mono chain_words

end Operands

/-! ## Expressions -/

theorem repeated_words {α : Type} {phrase : Phrase α} :
    (words phrase)∗ ≤ words (Repeated phrase) := by
  rintro _ ⟨parts, rfl, hparts⟩
  induction parts with
  | nil => exact ⟨0, [], .none⟩
  | cons part parts ih =>
    obtain ⟨⟨h, a, hfirst⟩, hrest⟩ := List.forall_mem_cons.1 hparts
    obtain ⟨k, as, hothers⟩ := ih hrest
    exact ⟨max h k, a :: as, .more hfirst hothers⟩

theorem listing_words {α : Type} {phrase : Phrase α} :
    listing (words phrase) ≤ words (Listed phrase) := by
  have hcomma : just .comma * words phrase ≤ words (AfterComma phrase) := by
    rintro _ ⟨_, rfl, ts, ⟨h, a, hphrase⟩, rfl⟩
    exact ⟨h, a, .intro hphrase⟩
  rintro _ (rfl | ⟨ts, ⟨h, a, hfirst⟩, us, hus, rfl⟩)
  · exact ⟨0, [], .none⟩
  · obtain ⟨k, as, hothers⟩ := repeated_words (kstar_mono hcomma hus)
    exact ⟨max h k, a :: as, .some hfirst hothers⟩

section Expressions

variable {inner inner' : Parser Expr}

instance (phrase : Phrase Expr) : Completable (words (Primary phrase)) :=
  ⟨[.integer .zero], 0, _, .integer .zero⟩

instance : Completable (words Expression) :=
  ⟨[.integer .zero], 1, _, .intro (.plain (.first (.first (.integer .zero))))⟩

theorem operandStarts_viable {x : Expectation} (hx : x ∈ operandStarts) {u : Token}
    (hu : x.Admits u) : ∃ us, u :: us ∈ words (Primary Expression) := by
  obtain ⟨ts, h, e, hphrase⟩ := (inferInstance : Completable (words Expression)).word
  simp only [operandStarts, List.mem_cons, List.not_mem_nil, or_false] at hx
  rcases hx with rfl | rfl | rfl | rfl | rfl
  · obtain ⟨value, rfl⟩ := hu
    exact ⟨[], 0, _, .integer value⟩
  · obtain ⟨value, rfl⟩ := hu
    exact ⟨[], 0, _, .text value⟩
  · obtain ⟨name, rfl⟩ := hu
    exact ⟨[], 0, _, .name name⟩
  · cases hu
    exact ⟨_, h, e, .group hphrase⟩
  · cases hu
    exact ⟨[.closing .square], 0, _, .list .none⟩

def afterName (inner : Parser Expr) (function : Ident) : Parser Expr := do
  if isAt (.opening .round) (← get) then
    let items ← delimited (.opening .round) (.closing .round) inner
    return .call function items.1 ⟨function.location.start, items.2.stop⟩
  else return .variable function

theorem primary_ident (inner : Parser Expr) (name : String) (span : Span) (rest : List Lexeme) :
    primary inner (⟨.ident name, span⟩ :: rest) =
      (ident >>= afterName inner) (⟨.ident name, span⟩ :: rest) := by
  have hident : ident (⟨.ident name, span⟩ :: rest) = .ok ⟨name, span⟩ rest := rfl
  rw [primary, current_bind, List.head?_cons, bind_of_ok hident, afterName, get_bind]
  dsimp only
  rw [nextIs_bind, List.tail_cons]
  cases h : isAt (.opening .round) rest with
  | true => rfl
  | false => rfl

theorem bracketed_predicts (hinner : Predicts inner inner' (words Expression)) (hs : Shrinks inner)
    (hs' : Shrinks inner') (bracket : Bracket) :
    Predicts (delimited (.opening bracket) (.closing bracket) inner)
      (delimited (.opening bracket) (.closing bracket) inner')
      (just (.opening bracket) * (listing (words Expression) * just (.closing bracket))) :=
  delimited_predicts (by simp) (by simp) hinner hs hs'

theorem afterName_predicts (hinner : Predicts inner inner' (words Expression)) (hs : Shrinks inner)
    (hs' : Shrinks inner') (function : Ident) :
    Predicts (afterName inner function) (afterName inner' function)
      (1 + just (.opening .round) * (listing (words Expression) * just (.closing .round))) := by
  intro ls
  refine .ifAt (fun _ _ _ => ?_) ((Accounted.pure (Expr.variable function) ls).mono le_self_add)
  have hcall := (bracketed_predicts hinner hs hs' .round ls).map
    (f := fun items => Expr.call function items.1 ⟨function.location.start, items.2.stop⟩)
  exact hcall.mono le_add_self

theorem primary_refuses (inner inner' : Parser Expr) {t : Token} (h : startsOperand t = false)
    (span : Span) (rest : List Lexeme) :
    Accounted (primary inner') (words (Primary Expression)) (⟨t, span⟩ :: rest)
      (primary inner (⟨t, span⟩ :: rest)) := by
  have hrun (inner : Parser Expr) (post : List Lexeme) : primary inner (⟨t, span⟩ :: post) =
      .error ⟨.unexpectedToken t operandStarts, span⟩ (⟨t, span⟩ :: post) := by
    cases t with
    | opening bracket => cases bracket <;> first | rfl | cases h
    | integer _ | text _ | ident _ => cases h
    | _ => rfl
  rw [hrun]
  exact .refuse rfl (List.cons_ne_nil _ _) (fun x hx u hu => operandStarts_viable hx hu) (hrun inner')

theorem primary_named (hinner : Predicts inner inner' (words Expression)) (hs : Shrinks inner)
    (hs' : Shrinks inner') (name : String) (span : Span) (rest : List Lexeme) :
    Accounted (primary inner') (words (Primary Expression)) (⟨.ident name, span⟩ :: rest)
      (primary inner (⟨.ident name, span⟩ :: rest)) := by
  refine Accounted.recast_cons ?_ (primary_ident inner name span rest)
    (primary_ident inner' name span)
  have hname := Accounted.bind (ident_predicts (⟨.ident name, span⟩ :: rest))
    fun function mid _ => afterName_predicts hinner hs hs' function mid
  refine hname.mono ?_
  rintro _ ⟨_, ⟨_, _, ⟨name⟩⟩, _, (rfl | ⟨_, rfl, _, ⟨ts, hts, _, rfl, rfl⟩, rfl⟩), rfl⟩
  · exact ⟨0, _, .name name⟩
  · obtain ⟨h, es, hlisted⟩ := listing_words hts
    exact ⟨h, _, .call name hlisted⟩

theorem primary_predicts (hinner : Predicts inner inner' (words Expression)) (hs : Shrinks inner)
    (hs' : Shrinks inner') :
    Predicts (primary inner) (primary inner') (words (Primary Expression)) := by
  intro ls
  cases ls with
  | nil => exact .missing (by simp) rfl
  | cons l rest =>
    obtain ⟨t, span⟩ := l
    cases t with
    | integer value => exact .take (by simp) ⟨0, _, .integer value⟩ fun _ => rfl
    | text value => exact .take (by simp) ⟨0, _, .text value⟩ fun _ => rfl
    | ident name => exact primary_named hinner hs hs' name span rest
    | opening bracket =>
      cases bracket with
      | round =>
        have hgroup := Accounted.bind (step_accounted (l := ⟨.opening .round, span⟩) (by simp) rest)
          fun _ mid _ => Accounted.bind (hinner mid) fun value mid' _ =>
            (expect_predicts (.closing .round) (by simp) mid').map (f := fun _ => value)
        refine (hgroup.mono ?_).recast_cons rfl fun _ => rfl
        rintro _ ⟨_, rfl, _, ⟨ts, ⟨h, e, hphrase⟩, _, rfl, rfl⟩, rfl⟩
        exact ⟨h, e, .group hphrase⟩
      | square =>
        have hlist := (bracketed_predicts hinner hs hs' .square (⟨.opening .square, span⟩ :: rest)).map
          (f := fun items => Expr.list items.1 items.2)
        refine (hlist.mono ?_).recast_cons rfl fun _ => rfl
        rintro _ ⟨_, rfl, _, ⟨ts, hts, _, rfl, rfl⟩, rfl⟩
        obtain ⟨h, es, hlisted⟩ := listing_words hts
        exact ⟨h, _, .list hlisted⟩
      | curly => exact primary_refuses inner inner' rfl span rest
    | _ => exact primary_refuses inner inner' rfl span rest

theorem comparison_predicts {limit limit' : Nat} (hinner : Predicts inner inner' (words Expression))
    (hs : Sound inner Expr.erase Expression limit)
    (hs' : Sound inner' Expr.erase Expression limit') :
    Predicts (comparison (primary inner)) (comparison (primary inner')) (words Expression) := by
  have hprimary := primary_predicts hinner hs.shrinks hs'.shrinks
  have hmultiplicative : Predicts (operandChain Operator.isMultiplicative (primary inner))
      (operandChain Operator.isMultiplicative (primary inner')) (words Multiplicative) :=
    operandChain_predicts hprimary (primary_sound hs).shrinks (primary_sound hs').shrinks
  have hadditive : Predicts (additive (primary inner)) (additive (primary inner'))
      (words Additive) :=
    operandChain_predicts hmultiplicative (operandChain_sound (primary_sound hs)).shrinks
      (operandChain_sound (primary_sound hs')).shrinks
  intro ls
  have hcompared : Accounted (comparison (primary inner'))
      (words Additive * (1 + operators Operator.isComparison * words Additive)) ls
      (comparison (primary inner) ls) :=
    .bind (hadditive ls) fun left mid _ =>
      .ifOperator le_add_self ((Accounted.pure left mid).mono le_self_add) fun _ rest _ =>
        (hadditive rest).map
  refine hcompared.mono ?_
  rintro _ ⟨ts, ⟨h, e, hfirst⟩, _, (rfl | ⟨_, ⟨op, haccepts, rfl⟩, us, ⟨k, e', hsecond⟩, rfl⟩), rfl⟩
  · have hplain : Expression (ts ++ []) (h + 1) e := by
      rw [List.append_nil]
      exact .intro (.plain hfirst)
    exact ⟨h + 1, e, hplain⟩
  · exact ⟨_, _, .intro (.compared hfirst haccepts hsecond)⟩

end Expressions

theorem expression_predicts {levels levels' : Nat} (h : levels ≤ levels') :
    Predicts (expression levels) (expression levels') (words Expression) := by
  induction levels generalizing levels' with
  | zero => exact Accounted.nestingTooDeep (expression levels') (words Expression)
  | succ levels ih =>
    cases levels' with
    | zero => omega
    | succ levels' =>
      exact comparison_predicts (ih (Nat.le_of_succ_le_succ h)) (expression_sound levels)
        (expression_sound levels')

/-! ## Statements -/

section Statements

variable {value value' : Parser Expr} {block block' : Parser Block}

instance : Completable (words Grammar.Block) :=
  ⟨[.opening .curly, .closing .curly], 1, _, .intro .none⟩

theorem declaration_predicts (hvalue : Predicts value value' (words Expression)) :
    Predicts (declaration value) (declaration value') (words (Statement Grammar.Block)) := by
  intro ls
  have hparts : Accounted (declaration value') (just (.keyword .declare) * (words Parameter *
      (just .assign * (words Expression * just .semicolon)))) ls (declaration value ls) :=
    .bind (expect_predicts _ (by simp) ls) fun _ mid _ =>
      .bind (ident_predicts mid) fun _ mid _ =>
        .bind (expect_predicts _ (by simp) mid) fun _ mid _ =>
          .bind (hvalue mid) fun _ mid _ => (expect_predicts _ (by simp) mid).map
  refine hparts.mono ?_
  rintro _ ⟨_, rfl, _, ⟨_, ⟨_, _, ⟨name⟩⟩, _, ⟨_, rfl, _, ⟨ts, ⟨h, e, hphrase⟩, _, rfl, rfl⟩, rfl⟩,
    rfl⟩, rfl⟩
  exact ⟨h, _, .declare name hphrase⟩

theorem valued_predicts (hvalue : Predicts value value' (words Expression)) {word : Keyword}
    {build : Expr → Span → Stmt}
    (hbuild : ∀ {ts : List Token} {h : Nat} {e : Expr}, Expression ts h e →
      Statement Grammar.Block (.keyword word :: ts ++ [.semicolon]) h (build e .zero)) :
    Predicts
      (do
        let first ← expect (.keyword word)
        let e ← value
        let last ← expect .semicolon
        return build e ⟨first.start, last.stop⟩)
      (do
        let first ← expect (.keyword word)
        let e ← value'
        let last ← expect .semicolon
        return build e ⟨first.start, last.stop⟩)
      (words (Statement Grammar.Block)) := by
  intro ls
  have hparts := Accounted.bind (expect_predicts (.keyword word) (by simp) ls) fun first mid _ =>
    Accounted.bind (hvalue mid) fun e mid _ =>
      (expect_predicts .semicolon (by simp) mid).map
        (f := fun last => build e ⟨first.start, last.stop⟩)
  refine hparts.mono ?_
  rintro _ ⟨_, rfl, _, ⟨ts, ⟨h, e, hphrase⟩, _, rfl, rfl⟩, rfl⟩
  exact ⟨h, _, hbuild hphrase⟩

theorem printing_predicts (hvalue : Predicts value value' (words Expression)) :
    Predicts (printing value) (printing value') (words (Statement Grammar.Block)) :=
  valued_predicts hvalue .print

theorem givingBack_predicts (hvalue : Predicts value value' (words Expression)) :
    Predicts (givingBack value) (givingBack value') (words (Statement Grammar.Block)) :=
  valued_predicts hvalue .giveBack

theorem branching_predicts (hvalue : Predicts value value' (words Expression))
    (hblock : Predicts block block' (words Grammar.Block)) :
    Predicts (branching value block) (branching value' block')
      (words (Statement Grammar.Block)) := by
  intro ls
  have hparts : Accounted (branching value' block') (just (.keyword .branch) *
      (just (.opening .round) * (words Expression * (just (.closing .round) * (words Grammar.Block *
        (1 + just (.keyword .otherwise) * words Grammar.Block)))))) ls (branching value block ls) :=
    .bind (expect_predicts _ (by simp) ls) fun first mid _ =>
      .bind (expect_predicts _ (by simp) mid) fun _ mid _ =>
        .bind (hvalue mid) fun condition mid _ =>
          .bind (expect_predicts _ (by simp) mid) fun _ mid _ =>
            .bind (hblock mid) fun thenBlock mid _ =>
              .ifAt (fun span rest hmid => by
                subst hmid
                refine Accounted.mono (.bind (step_accounted (by simp) rest) fun _ mid _ =>
                  (hblock mid).map) le_add_self)
                ((Accounted.pure _ mid).mono le_self_add)
  refine hparts.mono ?_
  rintro _ ⟨_, rfl, _, ⟨_, rfl, _, ⟨ts, ⟨h, e, hphrase⟩, _, ⟨_, rfl, _, ⟨us, ⟨k, b, hthen⟩, _,
    (rfl | ⟨_, rfl, vs, ⟨l, c, helse⟩, rfl⟩), rfl⟩, rfl⟩, rfl⟩, rfl⟩, rfl⟩
  · have hbranch := Statement.branch hphrase hthen
    exact ⟨_, _, by simpa using hbranch⟩
  · have hbranch := Statement.branchElse hphrase hthen helse
    exact ⟨_, _, by simpa using hbranch⟩

theorem functionDef_predicts (hblock : Predicts block block' (words Grammar.Block)) :
    Predicts (functionDef block >>= fun f => pure (Stmt.define f))
      (functionDef block' >>= fun f => pure (Stmt.define f)) (words (Statement Grammar.Block)) := by
  intro ls
  have hshrinks : Shrinks ident := (ident_sound 0).shrinks
  have hparts : Accounted (functionDef block') (just (.keyword .define) * (words Parameter *
      ((just (.opening .round) * (listing (words Parameter) * just (.closing .round))) *
        words Grammar.Block))) ls (functionDef block ls) :=
    .bind (expect_predicts _ (by simp) ls) fun _ mid _ =>
      .bind (ident_predicts mid) fun _ mid _ =>
        .bind (delimited_predicts (by simp) (by simp) ident_predicts hshrinks hshrinks mid)
          fun _ mid _ => (hblock mid).map
  refine hparts.map.mono ?_
  rintro _ ⟨_, rfl, _, ⟨_, ⟨_, _, ⟨name⟩⟩, _, ⟨_, ⟨_, rfl, _, ⟨ts, hts, _, rfl, rfl⟩, rfl⟩, us,
    ⟨k, b, hbody⟩, rfl⟩, rfl⟩, rfl⟩
  obtain ⟨h, ps, hlisted⟩ := listing_words hts
  have hdefine := Statement.define name hlisted hbody
  exact ⟨_, _, by simpa using hdefine⟩

theorem statementStarts_viable {x : Expectation} (hx : x ∈ statementStarts) {u : Token}
    (hu : x.Admits u) : ∃ us, u :: us ∈ words (Statement Grammar.Block) := by
  obtain ⟨ts, h, e, hphrase⟩ := (inferInstance : Completable (words Expression)).word
  obtain ⟨us, k, b, hblock⟩ := (inferInstance : Completable (words Grammar.Block)).word
  simp only [statementStarts, List.map_cons, List.map_nil, List.mem_cons, List.not_mem_nil,
    or_false] at hx
  rcases hx with rfl | rfl | rfl | rfl | rfl <;> cases hu
  · exact ⟨_, h, _, .declare "" hphrase⟩
  · exact ⟨_, h, _, .print hphrase⟩
  · exact ⟨_, _, _, .branch hphrase hblock⟩
  · exact ⟨_, _, _, .define "" .none hblock⟩
  · exact ⟨_, h, _, .giveBack hphrase⟩

theorem statementOf_predicts (hvalue : Predicts value value' (words Expression))
    (hblock : Predicts block block' (words Grammar.Block)) :
    Predicts (statementOf value block) (statementOf value' block')
      (words (Statement Grammar.Block)) := by
  intro ls
  cases ls with
  | nil => exact .missing (by simp) rfl
  | cons l rest =>
    obtain ⟨t, span⟩ := l
    have hrefuse (h : ∀ post', statementOf value' block' (⟨t, span⟩ :: post') =
        .error ⟨.unexpectedToken t statementStarts, span⟩ (⟨t, span⟩ :: post')) :
        Accounted (statementOf value' block') (words (Statement Grammar.Block)) (⟨t, span⟩ :: rest)
          (.error ⟨.unexpectedToken t statementStarts, span⟩ (⟨t, span⟩ :: rest)) :=
      .refuse rfl (List.cons_ne_nil _ _) (fun x hx u hu => statementStarts_viable hx hu) h
    cases t with
    | keyword word =>
      cases word with
      | declare => exact (declaration_predicts hvalue _).recast_cons rfl fun _ => rfl
      | print => exact (printing_predicts hvalue _).recast_cons rfl fun _ => rfl
      | branch => exact (branching_predicts hvalue hblock _).recast_cons rfl fun _ => rfl
      | define => exact (functionDef_predicts hblock _).recast_cons rfl fun _ => rfl
      | giveBack => exact (givingBack_predicts hvalue _).recast_cons rfl fun _ => rfl
      | otherwise => exact hrefuse fun _ => rfl
    | _ => exact hrefuse fun _ => rfl

end Statements

/-! ## Blocks and programs -/

section Loops

variable {statement statement' : Parser Stmt}

def Consumes {α : Type} (p : Parser α) : Prop :=
  ∀ ⦃ls : List Lexeme⦄ ⦃a : α⦄ ⦃rest : List Lexeme⦄, p ls = .ok a rest → rest.length < ls.length

theorem consumes_of_sound {limit : Nat}
    (h : Sound statement Stmt.erase (Statement Grammar.Block) limit) : Consumes statement := by
  intro ls s rest hrun
  obtain ⟨word, span, more, rfl, hmore⟩ := h.keyword hrun
  exact Nat.lt_succ_of_le hmore

/-- The statements of a block with the brace after them. Only the two together do not depend on the
number of rounds: without a brace, both ways to stop fail in the same way. -/
def closedStatements (statement : Parser Stmt) (rounds : List Lexeme)
    (build : List Stmt → Span → Block) : Parser Block := do
  let statements ← blockStatements statement rounds
  let last ← expect (.closing .curly)
  return build statements last

def blockRound (statement : Parser Stmt) (more : (List Stmt → Span → Block) → Parser Block)
    (build : List Stmt → Span → Block) : Parser Block := do
  if isAt (.closing .curly) (← get) then return build [] (← expect (.closing .curly))
  else if isAt .endOfFile (← get) then
    throw ⟨.unexpectedToken .endOfFile (statementStarts ++ [.exactly (.closing .curly)]),
      spanAt (← get)⟩
  else
    let first ← statement
    more fun others => build (first :: others)

theorem isAt_eq_false {token : Token} {ls : List Lexeme}
    (h : ∀ span rest, ls = ⟨token, span⟩ :: rest → False) : isAt token ls = false := by
  by_contra hat
  obtain ⟨span, rest, hls⟩ := isAt_eq_true (eq_true_of_ne_false hat)
  exact h span rest hls

theorem blockStatements_cons (statement : Parser Stmt) (l : Lexeme) (rounds ls : List Lexeme) :
    blockStatements statement (l :: rounds) ls =
      (if isAt (.closing .curly) ls = true then pure []
      else if isAt .endOfFile ls = true then
        throw ⟨.unexpectedToken .endOfFile (statementStarts ++ [.exactly (.closing .curly)]),
          spanAt ls⟩
      else do
        let first ← statement
        return first :: (← blockStatements statement rounds) : Parser (List Stmt)) ls := by
  rw [blockStatements, current_bind]
  generalize hls : ls.head? = head
  split
  · obtain ⟨rest, rfl⟩ := List.head?_eq_some_iff.1 hls
    rfl
  · obtain ⟨rest, rfl⟩ := List.head?_eq_some_iff.1 hls
    rfl
  · next hclosing hend =>
    have hnot {token : Token} (h : ∀ span, head = some ⟨token, span⟩ → False) :
        isAt token ls = false :=
      isAt_eq_false fun span rest hcons => h span (by rw [← hls, hcons, List.head?_cons])
    rw [hnot hclosing, hnot hend]
    rfl

theorem closedStatements_rounds (hconsumes : Consumes statement)
    (hnil : statement [] = .error ⟨.missingToken, .zero⟩ []) :
    Rounds (closedStatements statement) (blockRound statement) where
  exhausted more build := by
    rw [blockRound, get_bind]
    exact (bind_of_error hnil).symm
  round l rounds build ls := by
    rw [closedStatements, bind_congr_left (blockStatements_cons statement l rounds ls), blockRound,
      get_bind]
    cases isAt (.closing .curly) ls with
    | true => rfl
    | false =>
      simp only [Bool.false_eq_true, if_false, get_bind]
      cases isAt .endOfFile ls with
      | true => rfl
      | false =>
        simp only [Bool.false_eq_true, if_false, bind_assoc, pure_bind]
        rfl
  guarded {more more'} build ls h := by
    rw [blockRound, blockRound, get_bind, get_bind]
    cases isAt (.closing .curly) ls with
    | true => rfl
    | false =>
      simp only [Bool.false_eq_true, if_false, get_bind]
      cases isAt .endOfFile ls with
      | true => rfl
      | false => exact bind_congr_run fun first mid hrun => h _ mid (hconsumes hrun)

theorem closedStatements_predicts
    (hstatement : Predicts statement statement' (words (Statement Grammar.Block)))
    (hconsumes : Consumes statement) (hconsumes' : Consumes statement')
    (hnil : statement [] = .error ⟨.missingToken, .zero⟩ [])
    (hnil' : statement' [] = .error ⟨.missingToken, .zero⟩ []) (build : List Stmt → Span → Block) :
    Predicts (get >>= (closedStatements statement · build))
      (get >>= (closedStatements statement' · build))
      ((words (Statement Grammar.Block))∗ * just (.closing .curly)) := by
  have hclosing : [.closing .curly] ∈
      (words (Statement Grammar.Block))∗ * just (.closing .curly) :=
    ⟨[], Language.nil_mem_kstar _, [.closing .curly], rfl, rfl⟩
  intro ls
  induction hn : ls.length using Nat.strong_induction_on generalizing ls build with
  | _ n ih =>
    subst hn
    refine Accounted.recast ?_ ((closedStatements_rounds hconsumes hnil).unroll build ls)
      fun ls' _ => (closedStatements_rounds hconsumes' hnil').unroll build ls'
    refine .ifAt (fun span rest hls => ?_) (.ifAt (fun span rest hls => ?_) ?_)
    · subst hls
      exact .take (by simp) hclosing fun _ => rfl
    · subst hls
      refine .refuse rfl (List.append_ne_nil_of_right_ne_nil _ (List.cons_ne_nil _ _))
        (fun x hx u hu => ?_) fun _ => rfl
      rcases List.mem_append.1 hx with hstart | hbrace
      · obtain ⟨us, hus⟩ := statementStarts_viable hstart hu
        have hone : words (Statement Grammar.Block) ≤ (words (Statement Grammar.Block))∗ := le_kstar
        exact ⟨us ++ [.closing .curly], u :: us, hone hus, [.closing .curly], rfl, rfl⟩
      · rw [List.mem_singleton.1 hbrace] at hu
        cases hu
        exact ⟨[], hclosing⟩
    · have hround := Accounted.bind (hstatement ls) fun first mid hmid =>
        ih mid.length (hconsumes hmid) (fun others => build (first :: others)) mid rfl
      refine hround.mono ?_
      rw [← mul_assoc]
      exact mul_le_mul_left mul_kstar_le_kstar _

def programRound (statement : Parser Stmt) (more : Unit → Parser (List Stmt)) (_ : Unit) :
    Parser (List Stmt) := do
  match ← LexemeReader.current with
  | none => return []
  | some ⟨.endOfFile, _⟩ => return []
  | _ =>
    let first ← statement
    return first :: (← more ())

theorem programStatements_rounds (hconsumes : Consumes statement) :
    Rounds (fun rounds _ => programStatements statement rounds) (programRound statement) where
  exhausted _ _ := rfl
  round _ _ _ _ := rfl
  guarded {more more'} _ ls h := by
    rw [programRound, programRound, current_bind, current_bind]
    generalize ls.head? = head
    split
    · rfl
    · rfl
    · exact bind_congr_run fun first mid hrun => bind_congr_left (h () mid (hconsumes hrun)) _

theorem programRound_cons (statement : Parser Stmt) (more : Unit → Parser (List Stmt)) {t : Token}
    (hend : t ≠ .endOfFile) (span : Span) (rest : List Lexeme) :
    programRound statement more () (⟨t, span⟩ :: rest) =
      (do
        let first ← statement
        return first :: (← more ()) : Parser (List Stmt)) (⟨t, span⟩ :: rest) := by
  cases t with
  | endOfFile => exact absurd rfl hend
  | _ => rfl

theorem programStatements_predicts
    (hstatement : Predicts statement statement' (words (Statement Grammar.Block)))
    (hconsumes : Consumes statement) (hconsumes' : Consumes statement') :
    Predicts (get >>= programStatements statement) (get >>= programStatements statement')
      ((words (Statement Grammar.Block))∗) := by
  intro ls
  induction hn : ls.length using Nat.strong_induction_on generalizing ls with
  | _ n ih =>
    subst hn
    refine Accounted.recast ?_ ((programStatements_rounds hconsumes).unroll () ls)
      fun ls' _ => (programStatements_rounds hconsumes').unroll () ls'
    have hnone := (Accounted.pure ([] : List Stmt) ls).mono
      (one_le_kstar : 1 ≤ (words (Statement Grammar.Block))∗)
    cases ls with
    | nil =>
      refine hnone.recast rfl fun ls' hls' => ?_
      rw [List.head?_eq_none_iff.1 hls']
      rfl
    | cons l rest =>
      obtain ⟨t, span⟩ := l
      by_cases hend : t = .endOfFile
      · subst hend
        exact hnone.recast_cons rfl fun _ => rfl
      · have hround := Accounted.bind (hstatement (⟨t, span⟩ :: rest)) fun first mid hmid =>
          (ih mid.length (hconsumes hmid) mid rfl).map (f := (first :: ·))
        exact (hround.mono mul_kstar_le_kstar).recast_cons (programRound_cons _ _ hend span rest)
          (programRound_cons _ _ hend span)

end Loops

theorem block_predicts {levels levels' : Nat} (h : levels ≤ levels') :
    Predicts (block levels) (block levels') (words Grammar.Block) := by
  induction levels generalizing levels' with
  | zero => exact Accounted.nestingTooDeep (block levels') (words Grammar.Block)
  | succ levels ih =>
    cases levels' with
    | zero => omega
    | succ levels' =>
      have hle := Nat.le_of_succ_le_succ h
      have hstatement := statementOf_predicts (expression_predicts hle) (ih hle)
      have hclosed := closedStatements_predicts hstatement
        (consumes_of_sound (statement_sound levels)) (consumes_of_sound (statement_sound levels'))
        rfl rfl
      intro ls
      have hblock := Accounted.bind (expect_predicts (.opening .curly) (by simp) ls)
        fun first mid _ => hclosed (fun ss last => ⟨ss, ⟨first.start, last.stop⟩⟩) mid
      refine hblock.mono ?_
      rintro _ ⟨_, rfl, _, ⟨ts, hts, _, rfl, rfl⟩, rfl⟩
      obtain ⟨k, ss, hstatements⟩ := repeated_words hts
      exact ⟨k + 1, _, .intro hstatements⟩

theorem program_predicts {levels levels' : Nat} (h : levels ≤ levels') :
    Predicts (program levels) (program levels') (words Grammar.Program) := by
  have hstatement : Predicts (statement levels) (statement levels')
      (words (Statement Grammar.Block)) :=
    statementOf_predicts (expression_predicts h) (block_predicts h)
  have hstatements := programStatements_predicts hstatement
    (consumes_of_sound (statement_sound levels)) (consumes_of_sound (statement_sound levels'))
  intro ls
  have hprogram : Accounted (program levels') ((words (Statement Grammar.Block))∗ * 1) ls
      (program levels ls) := by
    refine .loop (hstatements ls) fun ss mid _ => ?_
    refine (Accounted.pure (UzScript.Program.mk ss ⟨0, (spanAt mid).stop⟩) mid).recast rfl
      fun ls' hls' => ?_
    rw [currentSpan_bind, spanAt, hls', spanAt]
  rw [mul_one] at hprogram
  refine hprogram.mono fun ts hts => ?_
  obtain ⟨k, ss, hphrase⟩ := repeated_words hts
  exact ⟨k, _, .intro hphrase⟩

/-- A parser with more levels to open stops at the same token. -/
theorem program_fault {ls rest : List Lexeme} {fault : ParseFault} {levels : Nat} {found : Token}
    (hrun : program levels ls = .error fault rest) (hfound : fault.cause.found? = some found) :
    ∃ front post, ls = front ++ ⟨found, fault.span⟩ :: post ∧ fault.cause.expectations ≠ [] ∧
      (∀ x ∈ fault.cause.expectations, ∀ u, x.Admits u →
        ∃ us, front.map Lexeme.token ++ u :: us ∈ words Grammar.Program) ∧
      ∀ levels', levels ≤ levels' → ∀ post', program levels' (front ++ ⟨found, fault.span⟩ :: post') =
        .error fault (⟨found, fault.span⟩ :: post') := by
  have haccounted {levels' : Nat} (h : levels ≤ levels') := program_predicts h ls
  rw [hrun] at haccounted
  obtain ⟨front, post, hsplit, rfl, hnamed, hviable, -⟩ :=
    (haccounted (Nat.le_refl levels)).of_found hfound
  refine ⟨front, post, hsplit, hnamed, hviable, fun levels' h => ?_⟩
  obtain ⟨front', _, hsplit', -, -, -, hagain⟩ := (haccounted h).of_found hfound
  rw [hsplit] at hsplit'
  rwa [List.append_cancel_right hsplit']

end UzScript.Parser

namespace UzScript

/-- Some program of the grammar begins with the tokens. -/
def Grammar.Viable (ts : List Token) : Prop := ∃ us h P, Grammar.Program (ts ++ us) h P

theorem Expectation.exists_admits (x : Expectation) : ∃ t, x.Admits t := by
  cases x with
  | exactly token => exact ⟨token, rfl⟩
  | anyInteger => exact ⟨.integer .zero, .zero, rfl⟩
  | anyText => exact ⟨.text "", "", rfl⟩
  | anyIdent => exact ⟨.ident "", "", rfl⟩

theorem parse_error {ls : List Lexeme} {fault : ParseFault} :
    parse ls = .error fault ↔ ∃ rest, Parser.program nestingLimit ls = .error fault rest := by
  unfold parse
  cases hrun : Parser.program nestingLimit ls with
  | ok P rest => simp
  | error fault' rest => simp

/-- A fault about a token comes at the first token that cannot stand where it stands, however deep
programs may nest; and each token that the fault names could have stood there. -/
theorem parse_fault_earliest {lexemes : List Lexeme} {fault : ParseFault} {found : Token}
    (hparse : parse lexemes = .error fault) (hfound : fault.cause.found? = some found) :
    ∃ before after, lexemes = before ++ ⟨found, fault.span⟩ :: after ∧
      Grammar.Viable (before.map Lexeme.token) ∧
      ¬ Grammar.Viable (before.map Lexeme.token ++ [found]) ∧
      (found = .endOfFile → ¬ ∃ h P, Grammar.Program (before.map Lexeme.token) h P) ∧
      ∀ x ∈ fault.cause.expectations, ∀ t, x.Admits t →
        Grammar.Viable (before.map Lexeme.token ++ [t]) := by
  obtain ⟨rest, hrun⟩ := parse_error.1 hparse
  obtain ⟨before, after, hsplit, hnamed, hviable, hagain⟩ := Parser.program_fault hrun hfound
  have hexpected (x : Expectation) (hx : x ∈ fault.cause.expectations) (t : Token)
      (ht : x.Admits t) : Grammar.Viable (before.map Lexeme.token ++ [t]) := by
    obtain ⟨us, h, P, hprogram⟩ := hviable x hx t ht
    rw [List.append_cons] at hprogram
    exact ⟨us, h, P, hprogram⟩
  -- with any number of levels, and whatever follows, the parser stops here
  have hrefused {front rest after' : List Lexeme} {h : Nat} {P : Program}
      (hprogram : Grammar.Program (front.map Lexeme.token) h P) (hend : Parser.EndsProgram rest)
      (hjoin : front ++ rest = before ++ ⟨found, fault.span⟩ :: after') : False := by
    obtain ⟨Q, hok, -⟩ := Parser.program_complete hprogram (Nat.le_max_right nestingLimit h) rfl hend
    rw [hjoin, hagain _ (Nat.le_max_left nestingLimit h)] at hok
    cases hok
  refine ⟨before, after, hsplit, ?_, ?_, ?_, hexpected⟩
  · obtain ⟨x, hx⟩ := List.exists_mem_of_ne_nil _ hnamed
    obtain ⟨t, ht⟩ := x.exists_admits
    obtain ⟨us, h, P, hprogram⟩ := hexpected x hx t ht
    rw [List.append_assoc] at hprogram
    exact ⟨[t] ++ us, h, P, hprogram⟩
  · rintro ⟨us, h, P, hprogram⟩
    have hts : (before ++ ⟨found, fault.span⟩ :: us.map (Lexeme.mk · .zero)).map Lexeme.token =
        before.map Lexeme.token ++ [found] ++ us := by
      rw [List.map_append, List.map_cons, map_token_mk, List.append_cons]
    rw [← hts] at hprogram
    exact hrefused hprogram (.inl rfl) (List.append_nil _)
  · rintro rfl ⟨h, P, hprogram⟩
    exact hrefused hprogram (.inr ⟨fault.span, [], rfl⟩) rfl

/-- The lexemes of `chop f(1 0);`, where a comma is missing. -/
def unseparatedArguments : List Lexeme :=
  [⟨.keyword .print, ⟨0, 4⟩⟩, ⟨.ident "f", ⟨5, 6⟩⟩, ⟨.opening .round, ⟨6, 7⟩⟩, ⟨.integer .one, ⟨7, 8⟩⟩,
    ⟨.integer .zero, ⟨9, 10⟩⟩, ⟨.closing .round, ⟨10, 11⟩⟩, ⟨.semicolon, ⟨11, 12⟩⟩,
    ⟨.endOfFile, ⟨12, 12⟩⟩]

theorem parse_fault_earliest_argument :
    parse unseparatedArguments = .error ⟨.unexpectedToken (.integer .zero)
        [.exactly .comma, .exactly (.closing .round)], ⟨9, 10⟩⟩ ∧
      ∃ before after, unseparatedArguments = before ++ ⟨.integer .zero, ⟨9, 10⟩⟩ :: after ∧
        Grammar.Viable (before.map Lexeme.token) ∧
        ¬ Grammar.Viable (before.map Lexeme.token ++ [.integer .zero]) ∧
        Grammar.Viable (before.map Lexeme.token ++ [.comma]) := by
  have hparse : parse unseparatedArguments = .error ⟨.unexpectedToken (.integer .zero)
      [.exactly .comma, .exactly (.closing .round)], ⟨9, 10⟩⟩ := rfl
  obtain ⟨before, after, hsplit, hviable, hnot, -, hexpected⟩ := parse_fault_earliest hparse rfl
  exact ⟨hparse, before, after, hsplit, hviable, hnot, hexpected _ (List.mem_cons_self) _ rfl⟩

end UzScript
