import UzScript.Fault
import UzScript.Syntax.Basic
import UzScript.Token.Basic

/-! # Parsing

The constructs are parsed in the same way whatever the lexemes are read from. The parser of the
language takes them from the front of a list and leaves the rest, also when it fails. A parser for a
construct that may hold itself takes the number of levels of expressions and blocks that may still be
opened; the parsers for the parts come as arguments. A loop makes at most one round for each lexeme
that is left when it starts. -/

set_option autoImplicit false

namespace UzScript

def nestingLimit : Nat := 256

/-- What could have stood in place of an unexpected token. -/
inductive Expectation where
  | exactly (token : Token)
  | anyInteger
  | anyText
  | anyIdent
deriving DecidableEq

def Expectation.phrase : Expectation → String
  | .exactly token => "`" ++ token.spelling ++ "`"
  | .anyInteger => "an Int"
  | .anyText => "a String"
  | .anyIdent => "an Identifier"

inductive ParseCause where
  | expectedIdent (found : Token)
  | unexpectedToken (found : Token) (expected : List Expectation)
  | missingToken
  | nestingTooDeep
deriving DecidableEq

abbrev ParseFault := Fault ParseCause

def ParseCause.message : ParseCause → Message
  | .expectedIdent found => ⟨"Expected identifier", ["Found " ++ found.phrase]⟩
  | .unexpectedToken found expected =>
    ⟨"Not expected this",
      ("Found " ++ found.phrase ++ ", expected one of: ") :: expected.map ("- " ++ ·.phrase)⟩
  | .missingToken => ⟨"Unexpected end of file", []⟩
  | .nestingTooDeep =>
    ⟨"Nesting too deep",
      ["Expressions and blocks may nest at most " ++ toString nestingLimit ++ " levels"]⟩

/-- What the parsers of the constructs are made of: looking at the next two lexemes, taking lexemes,
and opening a level for an expression or a block. -/
class LexemeReader (m : Type → Type) where
  current : m (Option Lexeme)
  next : m (Option Lexeme)
  /-- All lexemes that are left, to bound the rounds of a loop. -/
  remaining : m (List Lexeme)
  step : m Unit
  expectAmong : List Expectation → Token → m Span
  ident : m Ident
  level {α : Type} : m α → m α
  /-- Stands for a level below the last one. -/
  noLevel {α : Type} : m α

namespace LexemeReader

variable {m : Type → Type} [Monad m] [LexemeReader m]

def currentIs (token : Token) : m Bool := return (← current).any (·.token = token)

def nextIs (token : Token) : m Bool := return (← next).any (·.token = token)

/-- The span of the current lexeme, or the empty span at the beginning if there is none. -/
def currentSpan : m Span := return ((← current).map Lexeme.span).getD Span.zero

def currentOperator (accepts : Operator → Bool) : m (Option Operator) :=
  return ((← current).bind (·.token.operator?)).filter accepts

def expect (token : Token) : m Span := expectAmong [.exactly token] token

end LexemeReader

namespace Parser

open LexemeReader

variable {m : Type → Type} [Monad m] [MonadExceptOf ParseFault m] [LexemeReader m]

def missingToken {α : Type} : m α := throw ⟨.missingToken, Span.zero⟩

def furtherItems {α : Type} (item : m α) : List Lexeme → m (List α)
  | [] => return []
  | _ :: rounds => do
    if ← currentIs .comma then
      step
      let first ← item
      return first :: (← furtherItems item rounds)
    else return []

def delimited {α : Type} (opening closing : Token) (item : m α) : m (List α × Span) := do
  let first ← expect opening
  let items ← do
    if ← currentIs closing then pure []
    else
      let head ← item
      let tail ← furtherItems item (← remaining)
      pure (head :: tail)
  let last ← expectAmong [.exactly .comma, .exactly closing] closing
  return (items, ⟨first.start, last.stop⟩)

/-- Operands joined to the right of `left`, grouped from the left. -/
def furtherOperands (accepts : Operator → Bool) (operand : m Expr) :
    List Lexeme → Expr → m Expr
  | [], left => return left
  | _ :: rounds, left => do
    match ← currentOperator accepts with
    | none => return left
    | some op =>
      step
      let right ← operand
      furtherOperands accepts operand rounds (.combine op left right)

def operandChain (accepts : Operator → Bool) (operand : m Expr) : m Expr := do
  let left ← operand
  furtherOperands accepts operand (← remaining) left

def additive (operand : m Expr) : m Expr :=
  operandChain Operator.isAdditive (operandChain Operator.isMultiplicative operand)

/-- At most one comparison; comparisons do not chain. -/
def comparison (operand : m Expr) : m Expr := do
  let left ← additive operand
  match ← currentOperator Operator.isComparison with
  | none => return left
  | some op =>
    step
    let right ← additive operand
    return .combine op left right

def call (argument : m Expr) : m Expr := do
  let function ← ident
  let (arguments, span) ← delimited (.opening .round) (.closing .round) argument
  return .call function arguments ⟨function.location.start, span.stop⟩

def listLiteral (element : m Expr) : m Expr := do
  let (elements, span) ← delimited (.opening .square) (.closing .square) element
  return .list elements span

def operandStarts : List Expectation :=
  [.anyInteger, .anyText, .anyIdent, .exactly (.opening .round), .exactly (.opening .square)]

def primary (inner : m Expr) : m Expr := do
  match ← current with
  | none => missingToken
  | some ⟨.integer value, span⟩ =>
    step
    return .integer value span
  | some ⟨.text value, span⟩ =>
    step
    return .text value span
  | some ⟨.ident _, _⟩ =>
    if ← nextIs (.opening .round) then call inner
    else return .variable (← ident)
  | some ⟨.opening .round, _⟩ =>
    step
    let value ← inner
    let _ ← expect (.closing .round)
    return value
  | some ⟨.opening .square, _⟩ => listLiteral inner
  | some ⟨token, span⟩ => throw ⟨.unexpectedToken token operandStarts, span⟩

/-- An expression that may open `levels` levels, its own among them. -/
def expressionWithin : (levels : Nat) → m Expr
  | 0 => noLevel
  | levels + 1 => level (comparison (primary (expressionWithin levels)))

def declaration (value : m Expr) : m Stmt := do
  let first ← expect (.keyword .declare)
  let name ← ident
  let _ ← expect .assign
  let value ← value
  let last ← expect .semicolon
  return .declare name value ⟨first.start, last.stop⟩

def printing (value : m Expr) : m Stmt := do
  let first ← expect (.keyword .print)
  let value ← value
  let last ← expect .semicolon
  return .print value ⟨first.start, last.stop⟩

def givingBack (value : m Expr) : m Stmt := do
  let first ← expect (.keyword .giveBack)
  let value ← value
  let last ← expect .semicolon
  return .giveBack value ⟨first.start, last.stop⟩

def branching (condition : m Expr) (block : m Block) : m Stmt := do
  let first ← expect (.keyword .branch)
  let _ ← expect (.opening .round)
  let condition ← condition
  let _ ← expect (.closing .round)
  let thenBlock ← block
  if ← currentIs (.keyword .otherwise) then
    step
    let elseBlock ← block
    return .branch condition thenBlock (some elseBlock) ⟨first.start, elseBlock.location.stop⟩
  else return .branch condition thenBlock none ⟨first.start, thenBlock.location.stop⟩

def functionDef (block : m Block) : m FunctionDef := do
  let first ← expect (.keyword .define)
  let name ← ident
  let (parameters, _) ← delimited (.opening .round) (.closing .round) ident
  let body ← block
  return ⟨name, parameters, body, ⟨first.start, body.location.stop⟩⟩

def statementStarts : List Expectation :=
  [.declare, .print, .branch, .define, .giveBack].map fun word => .exactly (.keyword word)

def statementOf (value : m Expr) (block : m Block) : m Stmt := do
  match ← current with
  | none => missingToken
  | some ⟨.keyword .declare, _⟩ => declaration value
  | some ⟨.keyword .print, _⟩ => printing value
  | some ⟨.keyword .branch, _⟩ => branching value block
  | some ⟨.keyword .define, _⟩ => return .define (← functionDef block)
  | some ⟨.keyword .giveBack, _⟩ => givingBack value
  | some ⟨token, span⟩ => throw ⟨.unexpectedToken token statementStarts, span⟩

def blockStatements (statement : m Stmt) : List Lexeme → m (List Stmt)
  | [] => return []
  | _ :: rounds => do
    match ← current with
    | some ⟨.closing .curly, _⟩ => return []
    | some ⟨.endOfFile, span⟩ =>
      throw ⟨.unexpectedToken .endOfFile (statementStarts ++ [.exactly (.closing .curly)]), span⟩
    | _ =>
      let first ← statement
      return first :: (← blockStatements statement rounds)

def blockOf (statement : m Stmt) : m Block := do
  let first ← expect (.opening .curly)
  let statements ← blockStatements statement (← remaining)
  let last ← expect (.closing .curly)
  return ⟨statements, ⟨first.start, last.stop⟩⟩

def blockWithin : (levels : Nat) → m Block
  | 0 => noLevel
  | levels + 1 => level (blockOf (statementOf (expressionWithin levels) (blockWithin levels)))

/-- Statements up to the end of the source, whether it is marked or the lexemes just end. -/
def programStatements (statement : m Stmt) : List Lexeme → m (List Stmt)
  | [] => return []
  | _ :: rounds => do
    match ← current with
    | none => return []
    | some ⟨.endOfFile, _⟩ => return []
    | _ =>
      let first ← statement
      return first :: (← programStatements statement rounds)

def programOf (statement : m Stmt) : m Program := do
  let statements ← programStatements statement (← remaining)
  return ⟨statements, ⟨0, (← currentSpan).stop⟩⟩

end Parser

abbrev Parser := EStateM ParseFault (List Lexeme)

namespace Parser

def isAt (token : Token) (lexemes : List Lexeme) : Bool :=
  lexemes.head?.any (·.token = token)

def spanAt (lexemes : List Lexeme) : Span :=
  (lexemes.head?.map Lexeme.span).getD Span.zero

def operatorAt (accepts : Operator → Bool) (lexemes : List Lexeme) : Option Operator :=
  (lexemes.head?.bind (·.token.operator?)).filter accepts

def take? : Parser (Option Lexeme) := modifyGet fun lexemes => (lexemes.head?, lexemes.tail)

def nestingTooDeep {α : Type} : Parser α := do
  throw ⟨.nestingTooDeep, spanAt (← get)⟩

instance : LexemeReader Parser where
  current := return (← get).head?
  next := return (← get).tail.head?
  remaining := get
  step := modify List.tail
  expectAmong expected token := do
    match ← get with
    | [] => missingToken
    | lexeme :: rest =>
      if lexeme.token = token then
        set rest
        return lexeme.span
      else throw ⟨.unexpectedToken lexeme.token expected, lexeme.span⟩
  ident := do
    match ← get with
    | [] => missingToken
    | ⟨.ident name, span⟩ :: rest =>
      set rest
      return ⟨name, span⟩
    | ⟨token, span⟩ :: _ => throw ⟨.expectedIdent token, span⟩
  level parser := parser
  noLevel := nestingTooDeep

abbrev step : Parser Unit := LexemeReader.step

abbrev expectAmong (expected : List Expectation) (token : Token) : Parser Span :=
  LexemeReader.expectAmong expected token

abbrev expect (token : Token) : Parser Span := LexemeReader.expect token

abbrev ident : Parser Ident := LexemeReader.ident

def expression (levels : Nat) : Parser Expr := expressionWithin levels

def block (levels : Nat) : Parser Block := blockWithin levels

def statement (levels : Nat) : Parser Stmt := statementOf (expression levels) (block levels)

def program (levels : Nat) : Parser Program := programOf (statement levels)

/-- A parser run below `depth` further levels. -/
def nested {α : Type} (parser : (levels : Nat) → Parser α) : (depth levels : Nat) → Parser α
  | 0, levels => parser levels
  | _ + 1, 0 => nestingTooDeep
  | depth + 1, levels + 1 => nested parser depth levels

end Parser

def parse (lexemes : List Lexeme) : Except ParseFault Program :=
  match Parser.program nestingLimit lexemes with
  | .ok program _ => .ok program
  | .error fault _ => .error fault

end UzScript
