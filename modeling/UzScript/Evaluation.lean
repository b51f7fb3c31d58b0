import UzScript.Environment
import UzScript.Fault
import UzScript.Token.Lexer

/-! # Running programs

Statements run in order on a machine, which holds the environment and the lines printed so far. A
fault ends the run and keeps what was printed and declared before it. Expressions and statements
are evaluated by recursion on their syntax, with the way to carry out a call as an argument; calls
are carried out by recursion on the number of calls that may still be opened. -/

set_option autoImplicit false

namespace UzScript

def callLimit : Nat := 200

inductive IntegerUse where
  | condition
  | result
  | operand (op : Operator)
  | argument
deriving DecidableEq

def IntegerUse.phrase : IntegerUse → String
  | .condition => "Condition of `agar`"
  | .result => "`qaytar`"
  | .operand op => "Operator `" ++ op.symbol ++ "`"
  | .argument => "Function argument"

inductive RuntimeCause where
  | unboundVariable (name : String)
  | unknownFunction (name : String)
  | unsupportedType (got : ValueType) (use : IntegerUse)
  | divisionByZero
  | integerOverflow
  | arityMismatch (name : String) (expected got : Nat)
  | callDepthExceeded
deriving DecidableEq

abbrev RuntimeFault := Fault RuntimeCause

def RuntimeCause.message : RuntimeCause → Message
  | .unboundVariable name => ⟨"Unbound variable", ["Variable `" ++ name ++ "` is not declared"]⟩
  | .unknownFunction name => ⟨"Unknown function", ["Function `" ++ name ++ "` is not defined"]⟩
  | .unsupportedType got use =>
    ⟨"Unsupported type",
      [use.phrase ++ " expects `" ++ ValueType.integer.name ++ "`, but got `" ++ got.name ++ "`"]⟩
  | .divisionByZero => ⟨"Division by zero", []⟩
  | .integerOverflow => ⟨"Integer overflow", [Integer.rangeNote]⟩
  | .arityMismatch name expected got =>
    ⟨"Wrong number of arguments",
      ["Function `" ++ name ++ "` takes " ++ toString expected ++ " argument(s), but "
        ++ toString got ++ " were given"]⟩
  | .callDepthExceeded =>
    ⟨"Call depth exceeded", ["More than " ++ toString callLimit ++ " nested calls"]⟩

def RuntimeCause.ofUndefined : Operator.Undefined → RuntimeCause
  | .divisionByZero => .divisionByZero
  | .overflow => .integerOverflow

structure Machine where
  env : Environment
  output : Array String

def Machine.initial : Machine := ⟨.initial, #[]⟩

abbrev Eval := EStateM RuntimeFault Machine

/-- How a list of statements ends: at its end, or with a value to give back. -/
inductive Flow where
  | done
  | returned (value : Integer)
deriving DecidableEq

/-- A function that gives nothing back gives zero. -/
def Flow.value : Flow → Integer
  | .done => .zero
  | .returned value => value

namespace Eval

def fail {α : Type} (cause : RuntimeCause) (location : Span) : Eval α := throw ⟨cause, location⟩

def integer (value : Value) (use : IntegerUse) (location : Span) : Eval Integer :=
  match value.integer? with
  | .ok i => return i
  | .error got => fail (.unsupportedType got use) location

def operation (op : Operator) (a b : Integer) (location : Span) : Eval Integer :=
  match op.apply a b with
  | .ok i => return i
  | .error undefined => fail (.ofUndefined undefined) location

def modifyEnv (f : Environment → Environment) : Eval Unit :=
  modify fun machine => { machine with env := f machine.env }

def printLine (line : String) : Eval Unit :=
  modify fun machine => { machine with output := machine.output.push line }

/-- Runs a body in a frame of its own, which is gone afterwards however the body ends. -/
def withFrame {α : Type} (frame : Frame) (body : Eval α) : Eval α := fun machine =>
  match body { machine with env := machine.env.push frame } with
  | .ok a after => .ok a { after with env := after.env.pop.2 }
  | .error fault after => .error fault { after with env := after.env.pop.2 }

/-- A way to carry out a call of a defined function with the right number of arguments, from the
place where the call stands. -/
abbrev Invoke := FunctionDef → List Integer → Span → Eval Integer

def apply (invoke : Invoke) (name : String) (callable : Callable) (arguments : List Integer)
    (location : Span) : Eval Integer :=
  if arguments.length = callable.arity then
    match callable with
    | .builtin builtin =>
      match builtin.call arguments with
      | some i => return i
      | none => fail .integerOverflow location
    | .defined function => invoke function arguments location
  else fail (.arityMismatch name callable.arity arguments.length) location

mutual

/-- The value of an expression. A list counts its elements and does not evaluate them. -/
def expr (invoke : Invoke) : Expr → Eval Value
  | .integer value _ => return .integer value
  | .text value _ => return .text value
  | .variable ident => do
    match (← get).env.get? ident.name with
    | some value => return value
    | none => fail (.unboundVariable ident.name) ident.location
  | .binary op left right location => do
    let a ← expr invoke left
    let b ← expr invoke right
    let a ← integer a (.operand op) left.location
    let b ← integer b (.operand op) right.location
    return .integer (← operation op a b location)
  | .call function arguments location => do
    match (← get).env.function? function.name with
    | none => fail (.unknownFunction function.name) function.location
    | some callable =>
      let values ← exprs invoke arguments
      return .integer (← apply invoke function.name callable values location)
  | .list elements location =>
    match Integer.ofInt? elements.length with
    | some count => return .integer count
    | none => fail .integerOverflow location

def exprs (invoke : Invoke) : List Expr → Eval (List Integer)
  | [] => return []
  | e :: es => do
    let value ← expr invoke e
    let first ← integer value .argument e.location
    return first :: (← exprs invoke es)

end

mutual

def stmt (invoke : Invoke) : Stmt → Eval Flow
  | .declare ident value _ => do
    let value ← expr invoke value
    modifyEnv (·.declare ident.name value)
    return .done
  | .print value _ => do
    let value ← expr invoke value
    printLine value.print
    return .done
  | .branch condition thenBlock elseBlock _ => do
    let value ← expr invoke condition
    let test ← integer value .condition condition.location
    if test.val ≠ 0 then block invoke thenBlock else optionalBlock invoke elseBlock
  | .define function => do
    modifyEnv (·.define function.ident.name (.defined function))
    return .done
  | .giveBack value _ => do
    let result ← expr invoke value
    return .returned (← integer result .result value.location)

def stmts (invoke : Invoke) : List Stmt → Eval Flow
  | [] => return .done
  | s :: ss => do
    match ← stmt invoke s with
    | .done => stmts invoke ss
    | .returned value => return .returned value

def block (invoke : Invoke) : Block → Eval Flow
  | ⟨statements, _⟩ => stmts invoke statements

def optionalBlock (invoke : Invoke) : Option Block → Eval Flow
  | none => return .done
  | some b => block invoke b

end

def frameOf (function : FunctionDef) (arguments : List Integer) : Frame :=
  .ofList ((function.parameters.map Ident.name).zip (arguments.map Value.integer))

/-- Carries out calls, of which `room` may be opened inside each other. -/
def invoke : (room : Nat) → Invoke
  | 0 => fun _ _ location => fail .callDepthExceeded location
  | room + 1 => fun function arguments _ => do
    let flow ← withFrame (frameOf function arguments) (block (invoke room) function.body)
    return flow.value

end Eval

def Machine.execute (statements : List Stmt) : Eval Flow := do
  Eval.stmts (Eval.invoke (callLimit - (← get).env.depth)) statements

/-- Runs a program. At the top level, giving back a value just ends the run. -/
def Machine.run (machine : Machine) (program : Program) : Except RuntimeFault Unit × Machine :=
  match execute program.statements machine with
  | .ok _ after => (.ok (), after)
  | .error fault after => (.error fault, after)

end UzScript
