import UzScript.Proofs.EarliestFault

/-! # Marked and unmarked ends

The lexemes of a source end with a mark, and a parser may also be given lexemes that just end, or that
go on after the mark. No parser looks behind a mark. Where the mark is met, or no lexeme is left, the
parsers do the same, apart from the fault: it names the mark, if there is one, and otherwise says that
a token is missing. -/

set_option autoImplicit false

namespace UzScript.Parser

open Grammar

def Unmarked (ls : List Lexeme) : Prop := ∀ l ∈ ls, l.token ≠ .endOfFile

/-- Two ways in which lexemes may end. -/
structure Endings where
  one : List Lexeme
  other : List Lexeme
  one_ends : EndsProgram one
  other_ends : EndsProgram other

def refusal (cause : Token → ParseCause) : List Lexeme → ParseFault
  | [] => ⟨.missingToken, .zero⟩
  | l :: _ => ⟨cause l.token, l.span⟩

theorem isAt_endsProgram {t : Token} (ht : t ≠ .endOfFile) {ls : List Lexeme} (h : EndsProgram ls) :
    isAt t ls = false := by
  rcases h with rfl | ⟨span, more, rfl⟩
  · rfl
  · rw [isAt_cons, decide_eq_false_iff_not]
    exact fun heq => ht heq.symm

theorem operatorAt_endsProgram (accepts : Operator → Bool) {ls : List Lexeme} (h : EndsProgram ls) :
    operatorAt accepts ls = none := by
  rcases h with rfl | ⟨span, more, rfl⟩
  · rfl
  · rfl

namespace Endings

variable {α β : Type}

/-- The fault before the one ending and the fault before the other. -/
inductive Faults (E : Endings) : ParseFault → ParseFault → Prop
  | before {fault : ParseFault} {found : Token} (names : fault.cause.found? = some found)
      (unmarked : found ≠ .endOfFile) : Faults E fault fault
  | ending (cause : Token → ParseCause) (names : ∀ t, (cause t).found? = some t) :
      Faults E (refusal cause E.one) (refusal cause E.other)
  | tooDeep (front : List Lexeme) :
      Faults E ⟨.nestingTooDeep, spanAt (front ++ E.one)⟩ ⟨.nestingTooDeep, spanAt (front ++ E.other)⟩

inductive Results (E : Endings) :
    EStateM.Result ParseFault (List Lexeme) α → EStateM.Result ParseFault (List Lexeme) α → Prop
  | ok (a : α) {rest : List Lexeme} (unmarked : Unmarked rest) :
      Results E (.ok a (rest ++ E.one)) (.ok a (rest ++ E.other))
  | error {fault fault' : ParseFault} {rest rest' : List Lexeme} (faults : E.Faults fault fault') :
      Results E (.error fault rest) (.error fault' rest')

/-- The parser does the same on these lexemes before both endings. -/
def AlikeAt (E : Endings) (front : List Lexeme) (p : Parser α) : Prop :=
  E.Results (p (front ++ E.one)) (p (front ++ E.other))

def Alike (E : Endings) (p : Parser α) : Prop := ∀ front, Unmarked front → E.AlikeAt front p

namespace AlikeAt

variable {E : Endings} {front : List Lexeme} {p q : Parser α} {f : α → Parser β}

theorem pure (hfront : Unmarked front) (a : α) : E.AlikeAt front (Pure.pure a) := .ok a hfront

theorem bind (hp : E.AlikeAt front p)
    (hf : ∀ a rest, Unmarked rest → p (front ++ E.one) = .ok a (rest ++ E.one) → E.AlikeAt rest (f a)) :
    E.AlikeAt front (p >>= f) := by
  unfold AlikeAt at hp ⊢
  generalize hone : p (front ++ E.one) = result at hp
  generalize hother : p (front ++ E.other) = result' at hp
  cases hp with
  | ok a unmarked =>
    rw [bind_of_ok hone, bind_of_ok hother]
    exact hf a _ unmarked hone
  | error faults =>
    rw [bind_of_error hone, bind_of_error hother]
    exact .error faults

theorem loop {rounds : List Lexeme → Parser α} (h : E.AlikeAt front (get >>= rounds))
    (hf : ∀ a rest, Unmarked rest → E.AlikeAt rest (f a)) :
    E.AlikeAt front (get >>= fun ls => rounds ls >>= f) :=
  h.bind fun a rest hrest _ => hf a rest hrest

theorem step_bind {f : Unit → Parser β} {l : Lexeme} (h : E.AlikeAt front (f ())) :
    E.AlikeAt (l :: front) (step >>= f) := h

theorem ifAt {t : Token} (ht : t ≠ .endOfFile)
    (hp : ∀ span rest, front = ⟨t, span⟩ :: rest → E.AlikeAt front p) (hq : E.AlikeAt front q) :
    E.AlikeAt front (get >>= fun ls => if isAt t ls then p else q) := by
  unfold AlikeAt
  rw [get_bind, get_bind]
  cases front with
  | nil =>
    rw [List.nil_append, List.nil_append, isAt_endsProgram ht E.one_ends,
      isAt_endsProgram ht E.other_ends]
    exact hq
  | cons l rest =>
    rw [List.cons_append, List.cons_append, isAt_cons, isAt_cons]
    by_cases heq : l.token = t
    · simp only [heq, decide_true, if_true]
      exact hp l.span rest (by rw [← heq])
    · simp only [heq, decide_false, Bool.false_eq_true, if_false]
      exact hq

theorem ifOperator {accepts : Operator → Bool} {f : Operator → Parser α} (hp : E.AlikeAt front p)
    (hf : ∀ op span rest, front = ⟨.operator op, span⟩ :: rest → E.AlikeAt front (f op)) :
    E.AlikeAt front (get >>= fun ls => match operatorAt accepts ls with
      | none => p
      | some op => f op) := by
  unfold AlikeAt
  rw [get_bind, get_bind]
  cases front with
  | nil =>
    rw [List.nil_append, List.nil_append, operatorAt_endsProgram accepts E.one_ends,
      operatorAt_endsProgram accepts E.other_ends]
    exact hp
  | cons l rest =>
    rw [List.cons_append, List.cons_append, operatorAt_cons, operatorAt_cons]
    cases hop : l.token.operator?.filter accepts with
    | none => exact hp
    | some op =>
      have hat : operatorAt accepts (l :: rest) = some op := hop
      obtain ⟨-, span, more, heq⟩ := operatorAt_eq_some hat
      exact hf op span more heq

theorem ending (cause : Token → ParseCause) (names : ∀ t, (cause t).found? = some t)
    (hp : ∀ ls, EndsProgram ls → ∃ rest, p ls = .error (refusal cause ls) rest) :
    E.AlikeAt [] p := by
  obtain ⟨rest, hone⟩ := hp E.one E.one_ends
  obtain ⟨rest', hother⟩ := hp E.other E.other_ends
  unfold AlikeAt
  rw [List.nil_append, List.nil_append, hone, hother]
  exact .error (.ending cause names)

end AlikeAt

namespace Alike

variable {E : Endings}

theorem nestingTooDeep : E.Alike (nestingTooDeep : Parser α) :=
  fun front _ => .error (.tooDeep front)

theorem expectAmong (expected : List Expectation) {t : Token} (ht : t ≠ .endOfFile) :
    E.Alike (expectAmong expected t) := by
  intro front hfront
  cases front with
  | nil =>
    refine .ending (.unexpectedToken · expected) (fun _ => rfl) fun ls hls => ?_
    rcases hls with rfl | ⟨span, more, rfl⟩
    · exact ⟨[], rfl⟩
    · refine ⟨⟨.endOfFile, span⟩ :: more, ?_⟩
      rw [expectAmong_cons, if_neg (Ne.symm ht)]
      rfl
  | cons l rest =>
    obtain ⟨hl, hrest⟩ := List.forall_mem_cons.1 hfront
    unfold AlikeAt
    rw [List.cons_append, List.cons_append, expectAmong_cons, expectAmong_cons]
    by_cases heq : l.token = t
    · rw [if_pos heq, if_pos heq]
      exact .ok l.span hrest
    · rw [if_neg heq, if_neg heq]
      exact .error (.before rfl hl)

theorem expect {t : Token} (ht : t ≠ .endOfFile) : E.Alike (expect t) := expectAmong _ ht

theorem ident : E.Alike ident := by
  intro front hfront
  cases front with
  | nil =>
    refine .ending .expectedIdent (fun _ => rfl) fun ls hls => ?_
    rcases hls with rfl | ⟨span, more, rfl⟩
    · exact ⟨[], rfl⟩
    · exact ⟨_, rfl⟩
  | cons l rest =>
    obtain ⟨hl, hrest⟩ := List.forall_mem_cons.1 hfront
    obtain ⟨token, span⟩ := l
    cases token with
    | ident name => exact .ok _ hrest
    | _ => exact .error (.before rfl hl)

/-! ## Loops -/

theorem furtherItems {item : Parser α} (hitem : E.Alike item) (hs : Shrinks item) :
    E.Alike (get >>= furtherItems item) := by
  intro front hfront
  induction hn : front.length using Nat.strong_induction_on generalizing front with
  | _ n ih =>
    subst hn
    have hround : (get >>= Parser.furtherItems item) =
        itemRound item (fun _ => get >>= Parser.furtherItems item) () :=
      funext fun ls => (furtherItems_rounds hs).unroll () ls
    rw [hround]
    refine .ifAt (by simp) (fun span rest heq => ?_) (.pure hfront _)
    subst heq
    have hrest : Unmarked rest := (List.forall_mem_cons.1 hfront).2
    refine .step_bind (.bind (hitem rest hrest) fun first mid hmid hrun => ?_)
    have hlength := hs hrun
    rw [List.length_append, List.length_append] at hlength
    refine .bind (ih mid.length ?_ mid hmid rfl) fun others last hlast _ => .pure hlast _
    rw [List.length_cons]
    omega

theorem delimited {opening closing : Token} {item : Parser α} (hopening : opening ≠ .endOfFile)
    (hclosing : closing ≠ .endOfFile) (hitem : E.Alike item) (hs : Shrinks item) :
    E.Alike (delimited opening closing item) := by
  intro front hfront
  refine .bind (expect hopening front hfront) fun first mid hmid _ => ?_
  have hlast (items : List α) : E.Alike (do
      let items ← pure items
      let last ← Parser.expectAmong [.exactly .comma, .exactly closing] closing
      return (items, Span.mk first.start last.stop)) := by
    intro front hfront
    exact .bind (.pure hfront items) fun items rest hrest _ =>
      .bind (expectAmong _ hclosing rest hrest) fun last rest' hrest' _ => .pure hrest' _
  refine .ifAt hclosing (fun _ _ _ => hlast [] mid hmid) ?_
  refine .bind (hitem mid hmid) fun head mid' hmid' _ => ?_
  exact .loop (hitem.furtherItems hs mid' hmid') fun tail mid'' hmid'' => hlast _ mid'' hmid''

theorem furtherOperands {accepts : Operator → Bool} {operand : Parser Expr} (hoperand : E.Alike operand)
    (hs : Shrinks operand) (left : Expr) :
    E.Alike (get >>= (furtherOperands accepts operand · left)) := by
  intro front hfront
  induction hn : front.length using Nat.strong_induction_on generalizing front left with
  | _ n ih =>
    subst hn
    have hround : (get >>= (Parser.furtherOperands accepts operand · left)) =
        operandRound accepts operand
          (fun left => get >>= (Parser.furtherOperands accepts operand · left)) left :=
      funext fun ls => (furtherOperands_rounds hs).unroll left ls
    rw [hround]
    refine .ifOperator (.pure hfront _) fun op span rest heq => ?_
    subst heq
    have hrest : Unmarked rest := (List.forall_mem_cons.1 hfront).2
    refine .step_bind (.bind (hoperand rest hrest) fun right mid hmid hrun => ?_)
    have hlength := hs hrun
    rw [List.length_append, List.length_append] at hlength
    refine ih mid.length ?_ _ mid hmid rfl
    rw [List.length_cons]
    omega

theorem operandChain {accepts : Operator → Bool} {operand : Parser Expr} (hoperand : E.Alike operand)
    (hs : Shrinks operand) : E.Alike (operandChain accepts operand) := by
  intro front hfront
  exact .bind (hoperand front hfront) fun left mid hmid _ => hoperand.furtherOperands hs left mid hmid

/-! ## Expressions -/

theorem comparison {operand : Parser Expr} (hoperand : E.Alike operand) (hs : Shrinks operand)
    (hs' : Shrinks (Parser.operandChain Operator.isMultiplicative operand)) :
    E.Alike (comparison operand) := by
  have hadditive : E.Alike (additive operand) := (hoperand.operandChain hs).operandChain hs'
  intro front hfront
  refine .bind (hadditive front hfront) fun left mid hmid _ => ?_
  refine .ifOperator (.pure hmid _) fun op span rest heq => ?_
  subst heq
  have hrest : Unmarked rest := (List.forall_mem_cons.1 hmid).2
  exact .step_bind (.bind (hadditive rest hrest) fun right last hlast _ => .pure hlast _)

theorem primary {inner : Parser Expr} (hinner : E.Alike inner) (hs : Shrinks inner) :
    E.Alike (primary inner) := by
  intro front hfront
  cases front with
  | nil =>
    refine .ending (.unexpectedToken · operandStarts) (fun _ => rfl) fun ls hls => ?_
    rcases hls with rfl | ⟨span, more, rfl⟩
    · exact ⟨[], rfl⟩
    · exact ⟨_, rfl⟩
  | cons l rest =>
    obtain ⟨hl, hrest⟩ := List.forall_mem_cons.1 hfront
    obtain ⟨token, span⟩ := l
    cases token with
    | integer | text => exact .ok _ hrest
    | ident name =>
      have hafter : E.AlikeAt rest (afterName inner ⟨name, span⟩) := by
        have hitems : E.Alike (Parser.delimited (.opening .round) (.closing .round) inner) :=
          hinner.delimited (by simp) (by simp) hs
        exact .ifAt (by simp) (fun _ _ _ => .bind (hitems rest hrest) fun _ _ h _ => .pure h _)
          (.pure hrest _)
      unfold AlikeAt
      rw [List.cons_append, List.cons_append, primary_ident, primary_ident]
      exact hafter
    | opening bracket =>
      cases bracket with
      | round =>
        have hgroup : E.AlikeAt rest (inner >>= fun value => do
            let _ ← Parser.expect (.closing .round)
            return value) :=
          .bind (hinner rest hrest) fun value mid hmid _ =>
            .bind (expect (by simp) mid hmid) fun _ last hlast _ => .pure hlast _
        exact hgroup
      | square =>
        have hlist : E.AlikeAt (⟨.opening .square, span⟩ :: rest) (listLiteral inner) :=
          .bind (hinner.delimited (by simp) (by simp) hs _ hfront) fun _ _ h _ => .pure h _
        exact hlist
      | curly => exact .error (.before rfl hl)
    | keyword | operator | closing | comma | semicolon | assign | endOfFile =>
      exact .error (.before rfl hl)

theorem expression (levels : Nat) : E.Alike (expression levels) := by
  induction levels with
  | zero => exact nestingTooDeep
  | succ levels ih =>
    have hsound := expression_sound levels
    have hoperand := primary_sound hsound
    exact (ih.primary hsound.shrinks).comparison hoperand.shrinks
      (operandChain_sound hoperand).shrinks

/-! ## Statements and blocks -/

section Statements

variable {value : Parser Expr} {block : Parser UzScript.Block}

theorem declaration (hvalue : E.Alike value) : E.Alike (declaration value) := by
  intro front hfront
  refine .bind (expect (by simp) front hfront) fun first ls hls _ => ?_
  refine .bind (ident ls hls) fun name ls hls _ => ?_
  refine .bind (expect (by simp) ls hls) fun _ ls hls _ => ?_
  refine .bind (hvalue ls hls) fun e ls hls _ => ?_
  exact .bind (expect (by simp) ls hls) fun last ls hls _ => .pure hls _

/-- Printing and giving back differ in their keyword and in what they make. -/
theorem valued (hvalue : E.Alike value) (word : Keyword) (make : Expr → Span → Stmt) :
    E.Alike (do
      let first ← Parser.expect (.keyword word)
      let value ← value
      let last ← Parser.expect .semicolon
      return make value ⟨first.start, last.stop⟩) := by
  intro front hfront
  refine .bind (expect (by simp) front hfront) fun first ls hls _ => ?_
  refine .bind (hvalue ls hls) fun e ls hls _ => ?_
  exact .bind (expect (by simp) ls hls) fun last ls hls _ => .pure hls _

theorem branching (hvalue : E.Alike value) (hblock : E.Alike block) :
    E.Alike (branching value block) := by
  intro front hfront
  refine .bind (expect (by simp) front hfront) fun first ls hls _ => ?_
  refine .bind (expect (by simp) ls hls) fun _ ls hls _ => ?_
  refine .bind (hvalue ls hls) fun condition ls hls _ => ?_
  refine .bind (expect (by simp) ls hls) fun _ ls hls _ => ?_
  refine .bind (hblock ls hls) fun thenBlock ls hls _ => ?_
  refine .ifAt (by simp) (fun span rest heq => ?_) (.pure hls _)
  subst heq
  have hrest : Unmarked rest := (List.forall_mem_cons.1 hls).2
  exact .step_bind (.bind (hblock rest hrest) fun elseBlock last hlast _ => .pure hlast _)

theorem functionDef (hblock : E.Alike block) : E.Alike (functionDef block) := by
  intro front hfront
  refine .bind (expect (by simp) front hfront) fun first ls hls _ => ?_
  refine .bind (ident ls hls) fun name ls hls _ => ?_
  have hparameters : E.Alike (Parser.delimited (.opening .round) (.closing .round) Parser.ident) :=
    ident.delimited (by simp) (by simp) (ident_sound 0).shrinks
  refine .bind (hparameters ls hls) fun parameters ls hls _ => ?_
  exact .bind (hblock ls hls) fun body ls hls _ => .pure hls _

theorem statementOf (hvalue : E.Alike value) (hblock : E.Alike block) :
    E.Alike (statementOf value block) := by
  intro front hfront
  cases front with
  | nil =>
    refine .ending (.unexpectedToken · statementStarts) (fun _ => rfl) fun ls hls => ?_
    rcases hls with rfl | ⟨span, more, rfl⟩
    · exact ⟨[], rfl⟩
    · exact ⟨_, rfl⟩
  | cons l rest =>
    obtain ⟨hl, -⟩ := List.forall_mem_cons.1 hfront
    obtain ⟨token, span⟩ := l
    cases token with
    | keyword word =>
      cases word with
      | declare => exact hvalue.declaration _ hfront
      | print => exact hvalue.valued .print .print _ hfront
      | giveBack => exact hvalue.valued .giveBack .giveBack _ hfront
      | branch => exact hvalue.branching hblock _ hfront
      | define =>
        have hdefine : E.AlikeAt (⟨.keyword .define, span⟩ :: rest)
            (Parser.functionDef block >>= fun f => pure (Stmt.define f)) :=
          .bind (hblock.functionDef _ hfront) fun _ _ h _ => .pure h _
        exact hdefine
      | otherwise => exact .error (.before rfl hl)
    | _ => exact .error (.before rfl hl)

end Statements

section Loops

variable {statement : Parser Stmt}

/-- Where the source ends inside a block, the fault is that of the loop and not that of the
statement. -/
theorem closedStatements (hstatement : E.Alike statement) (hconsumes : Consumes statement)
    (hnil : statement [] = .error ⟨.missingToken, .zero⟩ [])
    (build : List Stmt → Span → UzScript.Block) :
    E.Alike (get >>= (closedStatements statement · build)) := by
  intro front hfront
  induction hn : front.length using Nat.strong_induction_on generalizing front build with
  | _ n ih =>
    subst hn
    have hround : (get >>= (Parser.closedStatements statement · build)) =
        blockRound statement (fun build => get >>= (Parser.closedStatements statement · build)) build :=
      funext fun ls => (closedStatements_rounds hconsumes hnil).unroll build ls
    rw [hround]
    cases front with
    | nil =>
      refine .ending (.unexpectedToken · (statementStarts ++ [.exactly (.closing .curly)]))
        (fun _ => rfl) fun ls hls => ?_
      rcases hls with rfl | ⟨span, more, rfl⟩
      · exact ⟨[], ((closedStatements_rounds hconsumes hnil).exhausted _ build).symm⟩
      · exact ⟨_, rfl⟩
    | cons l rest =>
      obtain ⟨hl, -⟩ := List.forall_mem_cons.1 hfront
      refine .ifAt (by simp) (fun _ _ _ => ?_) ?_
      · exact .bind (expect (by simp) _ hfront) fun _ _ h _ => .pure h _
      · have hmore : E.AlikeAt (l :: rest) (statement >>= fun first =>
            get >>= (Parser.closedStatements statement · fun others => build (first :: others))) := by
          refine .bind (hstatement _ hfront) fun first mid hmid hrun => ?_
          have hlength := hconsumes hrun
          rw [List.length_append, List.length_append] at hlength
          exact ih mid.length (by omega) _ mid hmid rfl
        unfold AlikeAt
        simp only [get_bind, List.cons_append, isAt_cons, hl, decide_false, Bool.false_eq_true,
          if_false]
        exact hmore

theorem programStatements (hstatement : E.Alike statement) (hconsumes : Consumes statement) :
    E.Alike (get >>= programStatements statement) := by
  intro front hfront
  induction hn : front.length using Nat.strong_induction_on generalizing front with
  | _ n ih =>
    subst hn
    have hround : (get >>= Parser.programStatements statement) =
        programRound statement (fun _ => get >>= Parser.programStatements statement) () :=
      funext fun ls => (programStatements_rounds hconsumes).unroll () ls
    rw [hround]
    cases front with
    | nil =>
      have hends : ∀ ls, EndsProgram ls →
          programRound statement (fun _ => get >>= Parser.programStatements statement) () ls =
            .ok [] ls := by
        rintro ls (rfl | ⟨span, more, rfl⟩)
        · rfl
        · rfl
      unfold AlikeAt
      rw [List.nil_append, List.nil_append, hends _ E.one_ends, hends _ E.other_ends]
      exact .ok [] hfront
    | cons l rest =>
      obtain ⟨hl, -⟩ := List.forall_mem_cons.1 hfront
      unfold AlikeAt
      rw [List.cons_append, List.cons_append, programRound_cons _ _ hl, programRound_cons _ _ hl]
      refine AlikeAt.bind (hstatement _ hfront) fun first mid hmid hrun => ?_
      have hlength := hconsumes hrun
      rw [List.length_append, List.length_append] at hlength
      exact .bind (ih mid.length (by omega) mid hmid rfl) fun others last hlast _ => .pure hlast _

end Loops

theorem block (levels : Nat) : E.Alike (block levels) := by
  induction levels with
  | zero => exact nestingTooDeep
  | succ levels ih =>
    have hstatement : E.Alike (Parser.statement levels) := (expression levels).statementOf ih
    have hclosed := hstatement.closedStatements (consumes_of_sound (statement_sound levels)) rfl
    intro front hfront
    exact .bind (expect (by simp) front hfront) fun first mid hmid _ =>
      hclosed (fun ss last => ⟨ss, ⟨first.start, last.stop⟩⟩) mid hmid

theorem statement (levels : Nat) : E.Alike (statement levels) :=
  (expression levels).statementOf (block levels)

end Alike

end Endings

end UzScript.Parser

namespace UzScript

/-! ## Programs -/

open UzScript.Parser

theorem parse_endings (E : Endings) {front : List Lexeme} (hfront : Unmarked front) :
    (∃ ss rest, parse (front ++ E.one) = .ok ⟨ss, ⟨0, (spanAt (rest ++ E.one)).stop⟩⟩ ∧
      parse (front ++ E.other) = .ok ⟨ss, ⟨0, (spanAt (rest ++ E.other)).stop⟩⟩) ∨
    ∃ fault fault', E.Faults fault fault' ∧ parse (front ++ E.one) = .error fault ∧
      parse (front ++ E.other) = .error fault' := by
  have hconsumes := consumes_of_sound (statement_sound nestingLimit)
  have hstatements : E.AlikeAt front (get >>= programStatements (statement nestingLimit)) :=
    (Endings.Alike.statement nestingLimit).programStatements hconsumes front hfront
  unfold Endings.AlikeAt at hstatements
  generalize hone : (get >>= programStatements (statement nestingLimit)) (front ++ E.one) = result
    at hstatements
  generalize hother : (get >>= programStatements (statement nestingLimit)) (front ++ E.other) = result'
    at hstatements
  have hprogram : program nestingLimit = (get >>= programStatements (statement nestingLimit)) >>=
      fun ss => get >>= fun ls => pure ⟨ss, ⟨0, (spanAt ls).stop⟩⟩ := rfl
  cases hstatements with
  | @ok ss rest _ =>
    exact .inl ⟨ss, rest, parse_ok.2 ⟨_, bind_of_ok hone⟩, parse_ok.2 ⟨_, bind_of_ok hother⟩⟩
  | @error fault fault' left left' faults =>
    refine .inr ⟨fault, fault', faults, parse_error.2 ⟨left, ?_⟩, parse_error.2 ⟨left', ?_⟩⟩
    · rw [hprogram, bind_of_error hone]
    · rw [hprogram, bind_of_error hother]

theorem spanAt_append_cons (front : List Lexeme) (l : Lexeme) (more : List Lexeme) :
    spanAt (front ++ l :: more) = spanAt (front ++ [l]) := by
  cases front <;> rfl

theorem parse_after_mark {front : List Lexeme} (hfront : Unmarked front) (stop : Span)
    (more : List Lexeme) :
    parse (front ++ ⟨.endOfFile, stop⟩ :: more) = parse (front ++ [⟨.endOfFile, stop⟩]) := by
  let E : Endings := ⟨⟨.endOfFile, stop⟩ :: more, [⟨.endOfFile, stop⟩], .inr ⟨stop, more, rfl⟩,
    .inr ⟨stop, [], rfl⟩⟩
  rcases parse_endings E hfront with ⟨ss, rest, hone, hother⟩ | ⟨fault, fault', faults, hone, hother⟩
  · rw [spanAt_append_cons] at hone
    exact hone.trans hother.symm
  · have heq : fault = fault' := by
      cases faults with
      | before => rfl
      | ending => rfl
      | tooDeep front => rw [spanAt_append_cons]
    rw [heq] at hone
    exact hone.trans hother.symm

/-- What parsing gives without a mark of the end, and what it gives with one. -/
structure SameButEnd (stop : Span) (unmarked marked : Except ParseFault Program) : Prop where
  statements (ss : List Stmt) : (∃ location, unmarked = .ok ⟨ss, location⟩) ↔
    ∃ location, marked = .ok ⟨ss, location⟩
  missing : (∃ span, unmarked = .error ⟨.missingToken, span⟩) ↔
    ∃ fault, marked = .error fault ∧ fault.cause.found? = some .endOfFile
  place (fault : ParseFault) : marked = .error fault → fault.cause.found? = some .endOfFile →
    fault.span = stop
  tooDeep : (∃ span, unmarked = .error ⟨.nestingTooDeep, span⟩) ↔
    ∃ span, marked = .error ⟨.nestingTooDeep, span⟩
  kept (fault : ParseFault) : unmarked = .error fault → fault.cause ≠ .missingToken →
    fault.cause ≠ .nestingTooDeep → marked = .error fault
  found (fault : ParseFault) : marked = .error fault → fault.cause.found? ≠ some .endOfFile →
    fault.cause ≠ .nestingTooDeep → unmarked = .error fault

namespace SameButEnd

variable {stop : Span}

theorem of_ok (ss : List Stmt) (location location' : Span) :
    SameButEnd stop (.ok ⟨ss, location⟩) (.ok ⟨ss, location'⟩) := by
  constructor <;> simp

theorem of_before {fault : ParseFault} {token : Token} (names : fault.cause.found? = some token)
    (unmarked : token ≠ .endOfFile) : SameButEnd stop (.error fault) (.error fault) := by
  obtain ⟨cause, span⟩ := fault
  cases cause with
  | missingToken | nestingTooDeep => cases names
  | expectedIdent | unexpectedToken =>
    obtain rfl := Option.some.inj names
    constructor <;> simp [ParseCause.found?, unmarked]

theorem of_missing {cause : ParseCause} (names : cause.found? = some .endOfFile) :
    SameButEnd stop (.error ⟨.missingToken, .zero⟩) (.error ⟨cause, stop⟩) := by
  cases cause with
  | missingToken | nestingTooDeep => cases names
  | expectedIdent | unexpectedToken => constructor <;> simp [names]

theorem of_tooDeep (span span' : Span) :
    SameButEnd stop (.error ⟨.nestingTooDeep, span⟩) (.error ⟨.nestingTooDeep, span'⟩) := by
  constructor <;> simp [ParseCause.found?]

end SameButEnd

/-- What stands behind a mark of the end is as good as nothing. Without any mark there are the same
statements; or a token is missing, where the fault had named the mark; or the nesting is too deep, as
it was; and every other fault stays what it is. -/
theorem parse_marked_end {lexemes : List Lexeme} (h : ∀ l ∈ lexemes, l.token ≠ .endOfFile)
    (stop : Span) (more : List Lexeme) :
    parse (lexemes ++ ⟨.endOfFile, stop⟩ :: more) = parse (lexemes ++ [⟨.endOfFile, stop⟩]) ∧
      SameButEnd stop (parse lexemes) (parse (lexemes ++ [⟨.endOfFile, stop⟩])) := by
  refine ⟨parse_after_mark h stop more, ?_⟩
  let E : Endings := ⟨[], [⟨.endOfFile, stop⟩], .inl rfl, .inr ⟨stop, [], rfl⟩⟩
  have hends := parse_endings E h
  rw [List.append_nil] at hends
  rcases hends with ⟨ss, rest, hone, hother⟩ | ⟨fault, fault', faults, hone, hother⟩
  · rw [hone, hother]
    exact .of_ok ss _ _
  · rw [hone, hother]
    cases faults with
    | before names unmarked => exact .of_before names unmarked
    | ending cause names => exact .of_missing (names .endOfFile)
    | tooDeep front => exact .of_tooDeep _ _

theorem parse_marked_end_operand :
    let lexemes : List Lexeme := [⟨.keyword .print, ⟨0, 4⟩⟩, ⟨.opening .round, ⟨5, 6⟩⟩]
    parse lexemes = .error ⟨.missingToken, .zero⟩ ∧
      ∃ cause, parse (lexemes ++ [⟨.endOfFile, ⟨7, 7⟩⟩, ⟨.semicolon, ⟨7, 8⟩⟩]) =
        .error ⟨cause, ⟨7, 7⟩⟩ ∧ cause.found? = some .endOfFile := by
  intro lexemes
  have hmissing : parse lexemes = .error ⟨.missingToken, .zero⟩ := rfl
  have hunmarked : ∀ l ∈ lexemes, l.token ≠ .endOfFile := by simp [lexemes]
  obtain ⟨hmore, hends⟩ := parse_marked_end hunmarked ⟨7, 7⟩ [⟨.semicolon, ⟨7, 8⟩⟩]
  obtain ⟨⟨cause, span⟩, hfault, hfound⟩ := hends.missing.1 ⟨_, hmissing⟩
  obtain rfl := hends.place _ hfault hfound
  exact ⟨hmissing, cause, hmore.trans hfault, hfound⟩

end UzScript
