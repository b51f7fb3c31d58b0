import UzScript.Syntax.Basic
import UzScript.Token.Basic

/-! # Printing programs

A program is printed with one statement to a line. Parentheses stand only where the tree could
not be read back without them. -/

set_option autoImplicit false

namespace UzScript

namespace Operator

/-- A left operand is wrapped when it binds more loosely, or when two comparisons meet. -/
def wrapsLeft (op inner : Operator) : Bool :=
  inner.precedence < op.precedence || inner.precedence == op.precedence && op.isComparison

/-- A right operand is wrapped unless it binds more tightly. -/
def wrapsRight (op inner : Operator) : Bool :=
  inner.precedence ≤ op.precedence

end Operator

def wrapIf (wrap : Bool) (text : String) : String :=
  if wrap then "(" ++ text ++ ")" else text

namespace Expr

mutual

def render : Expr → String
  | .integer value _ => value.text
  | .text value _ => "\"" ++ value ++ "\""
  | .variable ident => ident.name
  | .binary op left right _ =>
    wrapIf (left.operator?.any op.wrapsLeft) left.render ++ " " ++ op.symbol ++ " "
      ++ wrapIf (right.operator?.any op.wrapsRight) right.render
  | .call function arguments _ =>
    function.name ++ "(" ++ ", ".intercalate (renderAll arguments) ++ ")"
  | .list elements _ => "[" ++ ", ".intercalate (renderAll elements) ++ "]"

def renderAll : List Expr → List String
  | [] => []
  | e :: es => e.render :: renderAll es

end

end Expr

mutual

def Stmt.render : Stmt → String
  | .declare ident value _ =>
    Keyword.declare.spelling ++ " " ++ ident.name ++ " = " ++ value.render ++ ";"
  | .print value _ => Keyword.print.spelling ++ " " ++ value.render ++ ";"
  | .branch condition thenBlock elseBlock _ =>
    Keyword.branch.spelling ++ " (" ++ condition.render ++ ") " ++ thenBlock.render
      ++ Block.renderElse elseBlock
  | .define function => function.render
  | .giveBack value _ => Keyword.giveBack.spelling ++ " " ++ value.render ++ ";"

def Stmt.renderAll : List Stmt → List String
  | [] => []
  | s :: ss => s.render :: Stmt.renderAll ss

def Block.render : Block → String
  | ⟨[], _⟩ => "\x7b \x7d"
  | ⟨s :: ss, _⟩ => "\x7b " ++ " ".intercalate (s.render :: Stmt.renderAll ss) ++ " \x7d"

def Block.renderElse : Option Block → String
  | none => ""
  | some block => " " ++ Keyword.otherwise.spelling ++ " " ++ block.render

def FunctionDef.render : FunctionDef → String
  | ⟨ident, parameters, body, _⟩ =>
    Keyword.define.spelling ++ " " ++ ident.name
      ++ "(" ++ ", ".intercalate (parameters.map Ident.name) ++ ") " ++ body.render

end

def Program.render (program : Program) : String :=
  "\n".intercalate (Stmt.renderAll program.statements)

end UzScript
