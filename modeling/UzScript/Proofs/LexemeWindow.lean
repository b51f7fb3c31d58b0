import Mathlib.Algebra.Group.Nat.Defs
import UzScript.Proofs.StatefulRuns
import UzScript.Syntax.Parser

/-! # Parsers with a window on a stream

A parser may read its lexemes from a stream and keep the next two of them in a window. It takes
lexemes out of the window and puts them back, moves the window on, and counts the levels that are
open; the count is a machine word, and a parser that takes it out of its range aborts. Each of its
operations, and each construct that is parsed with them, does with the window what the parser of the
language does with the lexemes that are left, given as many levels as the count allows. So the count
is the same before and after, and no parser aborts. -/

set_option autoImplicit false

namespace UzScript

/-- The next two lexemes, the lexemes behind them, and the number of open levels. -/
structure Window where
  current : Option Lexeme
  next : Option Lexeme
  unread : List Lexeme
  depth : Nat

namespace Window

def left (w : Window) : List Lexeme := w.current.toList ++ w.next.toList ++ w.unread

def advance (w : Window) : Window :=
  { w with current := w.next, next := w.unread.head?, unread := w.unread.tail }

def start (stream : List Lexeme) : Window := advance (advance ⟨none, none, stream, 0⟩)

def front (lexemes : List Lexeme) (depth : Nat) : Window :=
  ⟨lexemes.head?, lexemes.tail.head?, lexemes.tail.tail, depth⟩

def span (w : Window) : Span := (w.current.map Lexeme.span).getD .zero

@[simp]
theorem left_front (lexemes : List Lexeme) (depth : Nat) :
    (front lexemes depth).left = lexemes := by
  rcases lexemes with _ | ⟨first, _ | ⟨second, rest⟩⟩ <;> rfl

theorem start_eq_front (stream : List Lexeme) : start stream = front stream 0 := by
  rcases stream with _ | ⟨first, _ | ⟨second, rest⟩⟩ <;> rfl

end Window

/-- A parse ends early at a fault, or because a count leaves the range of a machine word. -/
inductive Stop where
  | fault (fault : ParseFault)
  | abort

abbrev WindowParser := EStateM Stop Window

namespace Parser

variable {α : Type} {p : Parser α} {ls rest : List Lexeme}

theorem observing_ok {a : α} (h : p ls = .ok a rest) : observing p ls = .ok (.ok a) rest := by
  change EStateM.tryCatch (p >>= _) _ ls = _
  unfold EStateM.tryCatch
  rw [bind_of_ok h]
  rfl

theorem observing_fault {fault : ParseFault} (h : p ls = .error fault rest) :
    observing p ls = .ok (.error fault) rest := by
  change EStateM.tryCatch (p >>= _) _ ls = _
  unfold EStateM.tryCatch
  rw [bind_of_error h]
  rfl

end Parser

namespace WindowParser

variable {α β : Type}

/-- A fault can be kept for later, but not an abort. -/
def tryFault (p : WindowParser α) (handle : ParseFault → WindowParser α) : WindowParser α := fun w =>
  match p w with
  | .ok a after => .ok a after
  | .error (.fault fault) after => handle fault after
  | .error .abort after => .error .abort after

instance : MonadExceptOf ParseFault WindowParser where
  throw fault := throwThe Stop (.fault fault)
  tryCatch := tryFault

def nextLexeme : WindowParser (Option Lexeme) := modifyGet fun w => (w.current, w.advance)

def step : WindowParser Unit := do
  let _ ← nextLexeme

def takeOut : WindowParser (Option Lexeme) :=
  modifyGet fun w => (w.current, { w with current := none })

def putBack (lexeme : Lexeme) : WindowParser Unit :=
  modify fun w => { w with current := some lexeme }

/-- The lexeme is taken out of the window to look at it. If it is not the expected one, it is put
back; else the window moves on over the empty place. -/
def expectAmong (expected : List Expectation) (token : Token) : WindowParser Span := do
  match ← takeOut with
  | none => Parser.missingToken
  | some lexeme =>
    if lexeme.token = token then
      step
      return lexeme.span
    else
      putBack lexeme
      throw (⟨.unexpectedToken lexeme.token expected, lexeme.span⟩ : ParseFault)

def ident : WindowParser Ident := do
  match ← takeOut with
  | none => Parser.missingToken
  | some ⟨.ident name, span⟩ =>
    step
    return ⟨name, span⟩
  | some ⟨token, span⟩ =>
    putBack ⟨token, span⟩
    throw (⟨.expectedIdent token, span⟩ : ParseFault)

def raise : WindowParser Unit := do
  let w ← get
  if w.depth + 1 < 2 ^ 64 then set { w with depth := w.depth + 1 } else throwThe Stop .abort

def lower : WindowParser Unit := do
  let w ← get
  if 1 ≤ w.depth then set { w with depth := w.depth - 1 } else throwThe Stop .abort

/-- Opens a level for a parser and closes it again, however the parser ends. -/
def nested (inner : WindowParser α) : WindowParser α := do
  if nestingLimit ≤ (← get).depth then
    throw (⟨.nestingTooDeep, (← get).span⟩ : ParseFault)
  else
    raise
    let result ← observing inner
    lower
    match result with
    | .ok a => return a
    | .error fault => throw (fault : ParseFault)

/-- The count refuses a level before the levels of a construct run out, which would be an abort. -/
instance : LexemeReader WindowParser where
  current := return (← get).current
  next := return (← get).next
  remaining := return (← get).left
  step := step
  expectAmong := expectAmong
  ident := ident
  level := nested
  noLevel := throwThe Stop .abort

abbrev expect (token : Token) : WindowParser Span := LexemeReader.expect token

def expression : WindowParser Expr := Parser.expressionWithin (nestingLimit + 1)

def block : WindowParser Block := Parser.blockWithin (nestingLimit + 1)

def statement : WindowParser Stmt := Parser.statementOf expression block

def program : WindowParser Program := Parser.programOf statement

def parse? (lexemes : List Lexeme) : Option (Except ParseFault Program) :=
  match program (.start lexemes) with
  | .ok program _ => some (.ok program)
  | .error (.fault fault) _ => some (.error fault)
  | .error .abort _ => none

/-- What a parser gives, seen through a window. -/
def seen (depth : Nat) :
    EStateM.Result ParseFault (List Lexeme) α → EStateM.Result Stop Window α
  | .ok a rest => .ok a (.front rest depth)
  | .error fault rest => .error (.fault fault) (.front rest depth)

/-- At this count, which is the same again afterwards, the operation does what the parser does. -/
def Agrees (depth : Nat) (op : WindowParser α) (p : Parser α) : Prop :=
  ∀ ls, op (.front ls depth) = seen depth (p ls)

theorem raise_run (ls : List Lexeme) {depth : Nat} (h : depth < nestingLimit) :
    raise (.front ls depth) = .ok () (.front ls (depth + 1)) := by
  have hword : depth + 1 < 2 ^ 64 := by
    have hlimit : nestingLimit = 256 := rfl
    omega
  change (if depth + 1 < 2 ^ 64 then _ else _ : WindowParser Unit) _ = _
  rw [if_pos hword]
  rfl

theorem lower_run (ls : List Lexeme) (depth : Nat) :
    lower (.front ls (depth + 1)) = .ok () (.front ls depth) := rfl

theorem observing_ok {op : WindowParser α} {w w' : Window} {a : α} (h : op w = .ok a w') :
    (observing op : WindowParser (Except ParseFault α)) w = .ok (.ok a) w' := by
  change tryFault (op >>= _) _ w = _
  rw [tryFault, bind_of_ok h]
  rfl

theorem observing_fault {op : WindowParser α} {w w' : Window} {fault : ParseFault}
    (h : op w = .error (.fault fault) w') :
    (observing op : WindowParser (Except ParseFault α)) w = .ok (.error fault) w' := by
  change tryFault (op >>= _) _ w = _
  rw [tryFault, bind_of_error h]
  rfl

namespace Agrees

variable {depth : Nat} {op : WindowParser α} {p : Parser α}

theorem pure (a : α) : Agrees depth (Pure.pure a) (Pure.pure a) := fun _ => rfl

theorem throw (fault : ParseFault) :
    Agrees (α := α) depth (MonadExcept.throw fault) (MonadExcept.throw fault) := fun _ => rfl

theorem bind {f : α → WindowParser β} {g : α → Parser β} (hop : Agrees depth op p)
    (hf : ∀ a, Agrees depth (f a) (g a)) : Agrees depth (op >>= f) (p >>= g) := by
  intro ls
  have hfirst := hop ls
  cases hp : p ls with
  | ok a rest =>
    rw [hp] at hfirst
    rw [bind_of_ok hfirst, bind_of_ok hp]
    exact hf a rest
  | error fault rest =>
    rw [hp] at hfirst
    rw [bind_of_error hfirst, bind_of_error hp]
    rfl

theorem ite {condition : Prop} [Decidable condition] {op' : WindowParser α} {p' : Parser α}
    (h : Agrees depth op p) (h' : Agrees depth op' p') :
    Agrees depth (if condition then op else op') (if condition then p else p') := by
  split
  · exact h
  · exact h'

theorem observing (hop : Agrees depth op p) :
    Agrees depth (observing op : WindowParser (Except ParseFault α)) (observing p) := by
  intro ls
  have hfirst := hop ls
  cases hp : p ls with
  | ok a rest =>
    rw [hp] at hfirst
    rw [observing_ok hfirst, Parser.observing_ok hp]
    rfl
  | error fault rest =>
    rw [hp] at hfirst
    rw [observing_fault hfirst, Parser.observing_fault hp]
    rfl

theorem nextLexeme : Agrees depth WindowParser.nextLexeme Parser.take? := fun _ => rfl

theorem current : Agrees depth LexemeReader.current LexemeReader.current := fun _ => rfl

theorem next : Agrees depth LexemeReader.next LexemeReader.next := fun _ => rfl

theorem remaining : Agrees depth LexemeReader.remaining LexemeReader.remaining := by
  intro ls
  change EStateM.Result.ok (Window.left (.front ls depth)) _ = _
  rw [Window.left_front]
  rfl

theorem step : Agrees depth LexemeReader.step LexemeReader.step := fun _ => rfl

theorem expectAmong (expected : List Expectation) (token : Token) :
    Agrees depth (LexemeReader.expectAmong expected token)
      (LexemeReader.expectAmong expected token) := by
  intro ls
  cases ls with
  | nil => rfl
  | cons l rest =>
    change (if l.token = token then _ else _ : WindowParser Span) _ =
      seen depth ((if l.token = token then _ else _ : Parser Span) _)
    split <;> rfl

theorem expect (token : Token) :
    Agrees depth (LexemeReader.expect token) (LexemeReader.expect token) := .expectAmong _ token

theorem ident : Agrees depth LexemeReader.ident LexemeReader.ident := by
  intro ls
  rcases ls with _ | ⟨⟨token, span⟩, rest⟩
  · rfl
  · cases token <;> rfl

theorem currentIs (token : Token) :
    Agrees depth (LexemeReader.currentIs token) (LexemeReader.currentIs token) :=
  .bind .current fun _ => .pure _

theorem nextIs (token : Token) :
    Agrees depth (LexemeReader.nextIs token) (LexemeReader.nextIs token) :=
  .bind .next fun _ => .pure _

theorem currentSpan : Agrees depth LexemeReader.currentSpan LexemeReader.currentSpan :=
  .bind .current fun _ => .pure _

theorem currentOperator (accepts : Operator → Bool) :
    Agrees depth (LexemeReader.currentOperator accepts) (LexemeReader.currentOperator accepts) :=
  .bind .current fun _ => .pure _

theorem nested (h : Agrees (depth + 1) op p) (hdepth : depth < nestingLimit) :
    Agrees depth (WindowParser.nested op) p := by
  intro ls
  have hroom : ¬ nestingLimit ≤ depth := by omega
  have hinner := h ls
  change (if nestingLimit ≤ depth then _ else _ : WindowParser α) _ = _
  rw [if_neg hroom, bind_of_ok (raise_run ls hdepth)]
  cases hp : p ls with
  | ok a rest =>
    rw [hp] at hinner
    rw [bind_of_ok (observing_ok hinner)]
    exact bind_of_ok (lower_run rest depth)
  | error fault rest =>
    rw [hp] at hinner
    rw [bind_of_ok (observing_fault hinner)]
    exact bind_of_ok (lower_run rest depth)

theorem tooDeep (op : WindowParser α) :
    Agrees nestingLimit (WindowParser.nested op) Parser.nestingTooDeep := fun _ => rfl

/-! ## Constructs -/

theorem furtherItems (h : Agrees depth op p) : (rounds : List Lexeme) →
    Agrees depth (Parser.furtherItems op rounds) (Parser.furtherItems p rounds)
  | [] => .pure _
  | _ :: rounds => by
    refine .bind (.currentIs .comma) fun _ => .ite ?_ (.pure _)
    refine .bind .step fun _ => .bind h fun first => ?_
    exact .bind (furtherItems h rounds) fun others => .pure _

theorem delimited (h : Agrees depth op p) (opening closing : Token) :
    Agrees depth (Parser.delimited opening closing op) (Parser.delimited opening closing p) := by
  refine .bind (.expect opening) fun first => .bind (.currentIs closing) fun _ => .ite ?_ ?_
  · exact .bind (.pure _) fun _ => .bind (.expectAmong _ closing) fun _ => .pure _
  · refine .bind h fun head => .bind .remaining fun rounds => ?_
    refine .bind (furtherItems h rounds) fun tail => ?_
    exact .bind (.pure _) fun _ => .bind (.expectAmong _ closing) fun _ => .pure _

section Expressions

variable {op : WindowParser Expr} {p : Parser Expr} (h : Agrees depth op p)

include h

theorem furtherOperands (accepts : Operator → Bool) : (rounds : List Lexeme) → (left : Expr) →
    Agrees depth (Parser.furtherOperands accepts op rounds left)
      (Parser.furtherOperands accepts p rounds left)
  | [], _ => .pure _
  | _ :: rounds, left => by
    refine .bind (.currentOperator accepts) fun operator => ?_
    cases operator with
    | none => exact .pure _
    | some operator =>
      exact .bind .step fun _ => .bind h fun right => furtherOperands accepts rounds _

theorem operandChain (accepts : Operator → Bool) :
    Agrees depth (Parser.operandChain accepts op) (Parser.operandChain accepts p) :=
  .bind h fun left => .bind .remaining fun rounds => h.furtherOperands accepts rounds left

theorem additive : Agrees depth (Parser.additive op) (Parser.additive p) :=
  (h.operandChain _).operandChain _

theorem comparison : Agrees depth (Parser.comparison op) (Parser.comparison p) := by
  refine .bind h.additive fun left => .bind (.currentOperator _) fun operator => ?_
  cases operator with
  | none => exact .pure _
  | some operator => exact .bind .step fun _ => .bind h.additive fun right => .pure _

theorem call : Agrees depth (Parser.call op) (Parser.call p) :=
  .bind .ident fun _ => .bind (h.delimited _ _) fun _ => .pure _

theorem listLiteral : Agrees depth (Parser.listLiteral op) (Parser.listLiteral p) :=
  .bind (h.delimited _ _) fun _ => .pure _

theorem primary : Agrees depth (Parser.primary op) (Parser.primary p) := by
  refine .bind .current fun lexeme => ?_
  rcases lexeme with _ | ⟨token, span⟩
  · exact .throw _
  cases token with
  | integer value => exact .bind .step fun _ => .pure _
  | text value => exact .bind .step fun _ => .pure _
  | ident name =>
    exact .bind (.nextIs _) fun _ => .ite h.call (.bind .ident fun _ => .pure _)
  | opening bracket =>
    cases bracket with
    | round => exact .bind .step fun _ => .bind h fun value => .bind (.expect _) fun _ => .pure _
    | square => exact h.listLiteral
    | curly => exact .throw _
  | keyword _ | operator _ | closing _ | comma | semicolon | assign | endOfFile => exact .throw _

theorem declaration : Agrees depth (Parser.declaration op) (Parser.declaration p) :=
  .bind (.expect _) fun _ => .bind .ident fun _ => .bind (.expect _) fun _ =>
    .bind h fun _ => .bind (.expect _) fun _ => .pure _

theorem printing : Agrees depth (Parser.printing op) (Parser.printing p) :=
  .bind (.expect _) fun _ => .bind h fun _ => .bind (.expect _) fun _ => .pure _

theorem givingBack : Agrees depth (Parser.givingBack op) (Parser.givingBack p) :=
  .bind (.expect _) fun _ => .bind h fun _ => .bind (.expect _) fun _ => .pure _

end Expressions

/-- With the levels that the count leaves, and more levels for the operation, which are not used. -/
theorem expressionWithin {rounds levels : Nat} (hlevels : depth + levels = nestingLimit)
    (hrounds : levels < rounds) :
    Agrees depth (Parser.expressionWithin rounds) (Parser.expression levels) := by
  induction levels generalizing rounds depth with
  | zero =>
    obtain ⟨rounds, rfl⟩ : ∃ r, rounds = r + 1 := ⟨rounds - 1, by omega⟩
    obtain rfl : depth = nestingLimit := hlevels
    exact tooDeep _
  | succ levels ih =>
    obtain ⟨rounds, rfl⟩ : ∃ r, rounds = r + 1 := ⟨rounds - 1, by omega⟩
    have hinner : Agrees (depth + 1) (Parser.expressionWithin rounds) (Parser.expression levels) :=
      ih (by omega) (by omega)
    exact hinner.primary.comparison.nested (by omega)

section Statements

variable {op : WindowParser Expr} {p : Parser Expr} {b : WindowParser Block} {q : Parser Block}

theorem branching (h : Agrees depth op p) (hblock : Agrees depth b q) :
    Agrees depth (Parser.branching op b) (Parser.branching p q) := by
  refine .bind (.expect _) fun first => .bind (.expect _) fun _ => .bind h fun condition => ?_
  refine .bind (.expect _) fun _ => .bind hblock fun thenBlock => ?_
  refine .bind (.currentIs _) fun _ => .ite ?_ (.pure _)
  exact .bind .step fun _ => .bind hblock fun elseBlock => .pure _

theorem functionDef (hblock : Agrees depth b q) :
    Agrees depth (Parser.functionDef b) (Parser.functionDef q) :=
  .bind (.expect _) fun _ => .bind .ident fun _ => .bind (ident.delimited _ _) fun _ =>
    .bind hblock fun _ => .pure _

theorem statementOf (h : Agrees depth op p) (hblock : Agrees depth b q) :
    Agrees depth (Parser.statementOf op b) (Parser.statementOf p q) := by
  refine .bind .current fun lexeme => ?_
  rcases lexeme with _ | ⟨token, span⟩
  · exact .throw _
  cases token with
  | keyword word =>
    cases word with
    | declare => exact h.declaration
    | print => exact h.printing
    | branch => exact h.branching hblock
    | define => exact .bind hblock.functionDef fun _ => .pure _
    | giveBack => exact h.givingBack
    | otherwise => exact .throw _
  | ident _ | integer _ | text _ | operator _ | opening _ | closing _ => exact .throw _
  | assign | comma | semicolon | endOfFile => exact .throw _

variable {s : WindowParser Stmt} {r : Parser Stmt}

theorem blockStatements (h : Agrees depth s r) : (rounds : List Lexeme) →
    Agrees depth (Parser.blockStatements s rounds) (Parser.blockStatements r rounds)
  | [] => .pure _
  | _ :: rounds => by
    have hround : Agrees depth
        (do
          let first ← s
          return first :: (← Parser.blockStatements s rounds))
        (do
          let first ← r
          return first :: (← Parser.blockStatements r rounds)) :=
      .bind h fun _ => .bind (blockStatements h rounds) fun _ => .pure _
    refine .bind .current fun lexeme => ?_
    rcases lexeme with _ | ⟨token, span⟩
    · exact hround
    cases token with
    | closing bracket =>
      cases bracket with
      | curly => exact .pure _
      | round | square => exact hround
    | endOfFile => exact .throw _
    | ident _ | integer _ | text _ | keyword _ | operator _ | opening _ => exact hround
    | assign | comma | semicolon => exact hround

theorem blockOf (h : Agrees depth s r) : Agrees depth (Parser.blockOf s) (Parser.blockOf r) :=
  .bind (.expect _) fun _ => .bind .remaining fun rounds =>
    .bind (h.blockStatements rounds) fun _ => .bind (.expect _) fun _ => .pure _

theorem blockWithin {rounds levels : Nat} (hlevels : depth + levels = nestingLimit)
    (hrounds : levels < rounds) :
    Agrees depth (Parser.blockWithin rounds) (Parser.block levels) := by
  induction levels generalizing rounds depth with
  | zero =>
    obtain ⟨rounds, rfl⟩ : ∃ r, rounds = r + 1 := ⟨rounds - 1, by omega⟩
    obtain rfl : depth = nestingLimit := hlevels
    exact tooDeep _
  | succ levels ih =>
    obtain ⟨rounds, rfl⟩ : ∃ r, rounds = r + 1 := ⟨rounds - 1, by omega⟩
    have hinner : Agrees (depth + 1) (Parser.blockWithin rounds) (Parser.block levels) :=
      ih (by omega) (by omega)
    have hvalue : Agrees (depth + 1) (Parser.expressionWithin rounds) (Parser.expression levels) :=
      expressionWithin (by omega) (by omega)
    exact (hvalue.statementOf hinner).blockOf.nested (by omega)

theorem programStatements (h : Agrees depth s r) : (rounds : List Lexeme) →
    Agrees depth (Parser.programStatements s rounds) (Parser.programStatements r rounds)
  | [] => .pure _
  | _ :: rounds => by
    have hround : Agrees depth
        (do
          let first ← s
          return first :: (← Parser.programStatements s rounds))
        (do
          let first ← r
          return first :: (← Parser.programStatements r rounds)) :=
      .bind h fun _ => .bind (programStatements h rounds) fun _ => .pure _
    refine .bind .current fun lexeme => ?_
    rcases lexeme with _ | ⟨token, span⟩
    · exact .pure _
    cases token with
    | endOfFile => exact .pure _
    | ident _ | integer _ | text _ | keyword _ | operator _ | opening _ | closing _ => exact hround
    | assign | comma | semicolon => exact hround

theorem programOf (h : Agrees depth s r) :
    Agrees depth (Parser.programOf s) (Parser.programOf r) :=
  .bind .remaining fun rounds => .bind (h.programStatements rounds) fun _ =>
    .bind .currentSpan fun _ => .pure _

end Statements

section Constructs

variable {levels : Nat} (hlevels : depth + levels = nestingLimit)

include hlevels

theorem expression : Agrees depth WindowParser.expression (Parser.expression levels) :=
  .expressionWithin hlevels (by omega)

theorem block : Agrees depth WindowParser.block (Parser.block levels) :=
  .blockWithin hlevels (by omega)

theorem statement : Agrees depth WindowParser.statement (Parser.statement levels) :=
  (expression hlevels).statementOf (block hlevels)

theorem program : Agrees depth WindowParser.program (Parser.program levels) :=
  (statement hlevels).programOf

end Constructs

end Agrees

theorem parse?_eq (lexemes : List Lexeme) : parse? lexemes = some (parse lexemes) := by
  unfold parse? parse
  rw [Window.start_eq_front, Agrees.program (Nat.zero_add _) lexemes]
  cases Parser.program nestingLimit lexemes <;> rfl

end WindowParser

end UzScript
