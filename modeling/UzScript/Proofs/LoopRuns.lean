import UzScript.Proofs.EarliestFault

/-! # The loops of the parsers end

The parsers give each of their loops as many rounds as there are lexemes. A loop without this bound
makes rounds as long as there is something to do, and collects what they give. It ends by itself,
because every round takes a lexeme, and has the same result. -/

set_option autoImplicit false

namespace UzScript.Parser

open Grammar

variable {α β : Type}

/-- The finite runs of a loop that makes rounds as long as `goes` says so. It ends before a round,
or in a round that fails. -/
inductive LoopRun (goes : List Lexeme → Bool) (round : α → Parser α) :
    α → List Lexeme → EStateM.Result ParseFault (List Lexeme) α → Prop
  | stop {a : α} {ls : List Lexeme} (done : goes ls = false) : LoopRun goes round a ls (.ok a ls)
  | fault {a : α} {ls rest : List Lexeme} {fault : ParseFault} (on : goes ls = true)
      (failed : round a ls = .error fault rest) : LoopRun goes round a ls (.error fault rest)
  | go {a b : α} {ls mid : List Lexeme} {result : EStateM.Result ParseFault (List Lexeme) α}
      (on : goes ls = true) (passed : round a ls = .ok b mid)
      (others : LoopRun goes round b mid result) : LoopRun goes round a ls result

def followedBy (finish : α → Parser β) :
    EStateM.Result ParseFault (List Lexeme) α → EStateM.Result ParseFault (List Lexeme) β
  | .ok a rest => finish a rest
  | .error fault rest => .error fault rest

/-- The parser is a loop with `finish` after it, and every round of the loop takes a lexeme. -/
structure IsLoop (p : α → Parser β) (goes : List Lexeme → Bool) (round : α → Parser α)
    (finish : α → Parser β) : Prop where
  stop {a : α} {ls : List Lexeme} (done : goes ls = false) : p a ls = finish a ls
  go {a : α} {ls : List Lexeme} (on : goes ls = true) : p a ls = (round a >>= p) ls
  progress {a b : α} {ls mid : List Lexeme} (on : goes ls = true)
    (passed : round a ls = .ok b mid) : mid.length < ls.length

theorem IsLoop.ends {p : α → Parser β} {goes : List Lexeme → Bool} {round : α → Parser α}
    {finish : α → Parser β} (h : IsLoop p goes round finish) (a : α) (ls : List Lexeme) :
    ∃ result, LoopRun goes round a ls result ∧ p a ls = followedBy finish result := by
  induction hn : ls.length using Nat.strong_induction_on generalizing a ls with
  | _ n ih =>
    subst hn
    cases hgoes : goes ls with
    | false => exact ⟨.ok a ls, .stop hgoes, h.stop hgoes⟩
    | true =>
      rw [h.go hgoes]
      cases hround : round a ls with
      | ok b mid =>
        obtain ⟨result, hrun, hresult⟩ := ih mid.length (h.progress hgoes hround) b mid rfl
        exact ⟨result, .go hgoes hround hrun, (bind_of_ok hround).trans hresult⟩
      | error fault rest => exact ⟨.error fault rest, .fault hgoes hround, bind_of_error hround⟩

/-! ## Loops that collect what their rounds give -/

def collect (element : Parser α) (collected : List α) : Parser (List α) :=
  return collected ++ [← element]

theorem collect_ok {element : Parser α} {collected as : List α} {ls rest : List Lexeme}
    (h : collect element collected ls = .ok as rest) :
    ∃ a, element ls = .ok a rest ∧ as = collected ++ [a] := by
  obtain ⟨a, mid, helement, hpure⟩ := bind_ok.1 h
  obtain ⟨rfl, rfl⟩ := pure_ok.1 hpure
  exact ⟨a, helement, rfl⟩

/-- A loop of the parsers adds what its first round gives in front of what the others give; behind
what was collected before, this is the same. -/
theorem IsLoop.collecting {loop : List Lexeme → Parser (List α)}
    {body : (Unit → Parser (List α)) → Unit → Parser (List α)} {goes : List Lexeme → Bool}
    {element : Parser α} (hrounds : Rounds (fun rounds _ => loop rounds) body)
    (hstop : ∀ more {ls : List Lexeme}, goes ls = false → body more () ls = .ok [] ls)
    (hgo : ∀ more {ls : List Lexeme}, goes ls = true →
      body more () ls = (element >>= fun a => more () >>= fun as => pure (a :: as)) ls)
    (hprogress : ∀ {ls mid : List Lexeme} {a : α}, goes ls = true → element ls = .ok a mid →
      mid.length < ls.length) :
    IsLoop (fun collected => return collected ++ (← loop (← get))) goes (collect element) pure where
  stop {collected ls} done := by
    have hloop : loop ls ls = .ok [] ls := (hrounds.unroll () ls).trans (hstop _ done)
    rw [get_bind, bind_of_ok hloop, List.append_nil]
  go {collected ls} on := by
    have hloop : loop ls ls = _ := (hrounds.unroll () ls).trans (hgo _ on)
    rw [get_bind, bind_congr_left hloop]
    simp only [collect, bind_assoc, pure_bind, List.append_assoc, List.singleton_append]
  progress on passed := by
    obtain ⟨a, helement, -⟩ := collect_ok passed
    exact hprogress on helement

def moreItems (item : Parser α) (items : List α) : Parser (List α) :=
  return items ++ (← furtherItems item (← get))

def nextItem (item : Parser α) : Parser α := do
  step
  item

theorem moreItems_isLoop {item : Parser α} (hitem : Shrinks item) :
    IsLoop (moreItems item) (isAt .comma) (collect (nextItem item)) pure := by
  refine .collecting (furtherItems_rounds hitem) (fun more ls done => ?_) (fun more ls on => ?_)
    fun {ls mid a} on hrun => ?_
  · rw [itemRound, get_bind, done]
    rfl
  · rw [itemRound, get_bind, if_pos on, nextItem, bind_assoc]
  · obtain ⟨span, ls, rfl⟩ := isAt_eq_true on
    exact Nat.lt_succ_of_le (hitem hrun)

def goesOn (ls : List Lexeme) : Bool := !ls.isEmpty && !isAt .endOfFile ls

def moreStatements (statement : Parser Stmt) (statements : List Stmt) : Parser (List Stmt) :=
  return statements ++ (← programStatements statement (← get))

theorem moreStatements_isLoop {statement : Parser Stmt} (hconsumes : Consumes statement) :
    IsLoop (moreStatements statement) goesOn (collect statement) pure := by
  refine .collecting (programStatements_rounds hconsumes) (fun more ls done => ?_)
    (fun more ls on => ?_) fun _ hrun => hconsumes hrun
  · rcases ls with _ | ⟨⟨token, span⟩, ls⟩
    · rfl
    · have hend : token = .endOfFile := by simpa [goesOn, isAt] using done
      rw [hend]
      rfl
  · rcases ls with _ | ⟨⟨token, span⟩, ls⟩
    · simp [goesOn] at on
    · have hend : token ≠ .endOfFile := by simpa [goesOn, isAt] using on
      exact programRound_cons statement more hend span ls

/-! ## Chains of operands -/

section Operands

variable (accepts : Operator → Bool) (operand : Parser Expr)

def moreOperands (left : Expr) : Parser Expr := do
  furtherOperands accepts operand (← get) left

def joinOperand (left : Expr) : Parser Expr := do
  match operatorAt accepts (← get) with
  | none => return left
  | some op =>
    step
    return .combine op left (← operand)

theorem joinOperand_run {accepts : Operator → Bool} {ls : List Lexeme} {op : Operator}
    (hop : operatorAt accepts ls = some op) (left : Expr) :
    joinOperand accepts operand left ls =
      (operand >>= fun right => pure (Expr.combine op left right)) ls.tail := by
  rw [joinOperand, get_bind, hop]
  rfl

theorem moreOperands_unroll {operand : Parser Expr} (hoperand : Shrinks operand) (left : Expr)
    (ls : List Lexeme) : moreOperands accepts operand left ls =
      operandRound accepts operand (moreOperands accepts operand) left ls :=
  (furtherOperands_rounds hoperand).unroll left ls

theorem moreOperands_isLoop {operand : Parser Expr} (hoperand : Shrinks operand) :
    IsLoop (moreOperands accepts operand) (fun ls => (operatorAt accepts ls).isSome)
      (joinOperand accepts operand) pure where
  stop {left ls} done := by
    have hop : operatorAt accepts ls = none := by simpa using done
    rw [moreOperands_unroll accepts hoperand, operandRound, get_bind, hop]
  go {left ls} on := by
    obtain ⟨op, hop⟩ := Option.isSome_iff_exists.1 on
    rw [moreOperands_unroll accepts hoperand, operandRound, get_bind, hop, joinOperand, bind_assoc,
      get_bind, hop]
    simp only [bind_assoc, pure_bind]
  progress {left e ls mid} on passed := by
    obtain ⟨op, hop⟩ := Option.isSome_iff_exists.1 on
    rw [joinOperand_run operand hop left] at passed
    obtain ⟨right, rest, hright, hpure⟩ := bind_ok.1 passed
    obtain ⟨-, rfl⟩ := pure_ok.1 hpure
    obtain ⟨-, span, ls, rfl⟩ := operatorAt_eq_some hop
    exact Nat.lt_succ_of_le (hoperand hright)

end Operands

/-! ## Statements of a block -/

section Block

variable (statement : Parser Stmt) (build : List Stmt → Span → Block)

def moreOfBlock (statements : List Stmt) : Parser Block := do
  let others ← blockStatements statement (← get)
  return build (statements ++ others) (← expect (.closing .curly))

def blockStatement : Parser Stmt := do
  if isAt .endOfFile (← get) then
    throw ⟨.unexpectedToken .endOfFile (statementStarts ++ [.exactly (.closing .curly)]),
      spanAt (← get)⟩
  else statement

def closeBlock (statements : List Stmt) : Parser Block :=
  return build statements (← expect (.closing .curly))

theorem moreOfBlock_unroll {statement : Parser Stmt} (hconsumes : Consumes statement)
    (hnil : statement [] = .error ⟨.missingToken, .zero⟩ []) (statements : List Stmt)
    (ls : List Lexeme) : moreOfBlock statement build statements ls =
      blockRound statement (fun build => get >>= (closedStatements statement · build))
        (fun others => build (statements ++ others)) ls :=
  (closedStatements_rounds hconsumes hnil).unroll _ ls

theorem moreOfBlock_isLoop {statement : Parser Stmt} (hconsumes : Consumes statement)
    (hnil : statement [] = .error ⟨.missingToken, .zero⟩ []) :
    IsLoop (moreOfBlock statement build) (fun ls => !isAt (.closing .curly) ls)
      (collect (blockStatement statement)) (closeBlock build) where
  stop {statements ls} done := by
    have hclosing : isAt (.closing .curly) ls = true := by simpa using done
    rw [moreOfBlock_unroll build hconsumes hnil, blockRound, get_bind, if_pos hclosing,
      List.append_nil, closeBlock]
  go {statements ls} on := by
    have hclosing : isAt (.closing .curly) ls = false := by simpa using on
    rw [moreOfBlock_unroll build hconsumes hnil, blockRound, get_bind, hclosing]
    simp only [collect, blockStatement, bind_assoc, Bool.false_eq_true, if_false, get_bind]
    cases isAt .endOfFile ls with
    | true => rfl
    | false =>
      simp only [Bool.false_eq_true, if_false, pure_bind, moreOfBlock, List.append_assoc,
        List.singleton_append]
      rfl
  progress {statements as ls mid} _ passed := by
    obtain ⟨s, hrun, -⟩ := collect_ok passed
    rw [blockStatement, get_bind] at hrun
    split at hrun
    · cases hrun
    · exact hconsumes hrun

end Block

end UzScript.Parser
