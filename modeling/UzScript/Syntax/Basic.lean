import UzScript.Operator
import UzScript.Span

/-! # Programs

A program is a list of statements; statements hold expressions and blocks. Every part knows the
span it takes in its source. Parentheses leave no trace: grouping is the shape of the tree. -/

set_option autoImplicit false

namespace UzScript

structure Ident where
  name : String
  location : Span
deriving DecidableEq, Inhabited

inductive Expr where
  | integer (value : Integer) (location : Span)
  | text (value : String) (location : Span)
  | variable (ident : Ident)
  | binary (op : Operator) (left right : Expr) (location : Span)
  | call (function : Ident) (arguments : List Expr) (location : Span)
  | list (elements : List Expr) (location : Span)
deriving Inhabited

namespace Expr

def location : Expr → Span
  | .integer _ location => location
  | .text _ location => location
  | .variable ident => ident.location
  | .binary _ _ _ location => location
  | .call _ _ location => location
  | .list _ location => location

/-- An operation takes the span from one operand to the other. -/
def combine (op : Operator) (left right : Expr) : Expr :=
  .binary op left right (left.location.merge right.location)

def operator? : Expr → Option Operator
  | .binary op _ _ _ => some op
  | _ => none

end Expr

mutual

inductive Stmt where
  | declare (ident : Ident) (value : Expr) (location : Span)
  | print (value : Expr) (location : Span)
  | branch (condition : Expr) (thenBlock : Block) (elseBlock : Option Block) (location : Span)
  | define (function : FunctionDef)
  | giveBack (value : Expr) (location : Span)

structure Block where
  statements : List Stmt
  location : Span

structure FunctionDef where
  ident : Ident
  parameters : List Ident
  body : Block
  location : Span

end

def Stmt.location : Stmt → Span
  | .declare _ _ location => location
  | .print _ location => location
  | .branch _ _ _ location => location
  | .define function => function.location
  | .giveBack _ location => location

def FunctionDef.arity (function : FunctionDef) : Nat := function.parameters.length

structure Program where
  statements : List Stmt
  location : Span

end UzScript
