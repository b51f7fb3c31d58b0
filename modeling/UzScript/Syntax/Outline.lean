import UzScript.Syntax.Parser
import UzScript.Token.Outline

/-! # Outlines of programs and of parse faults -/

set_option autoImplicit false

namespace UzScript

open Text (quoted)

def Ident.outline (ident : Ident) : Outline :=
  .record "Identifier" [("value", .leaf (quoted ident.name)), ("location", ident.location.outline)]

namespace Expr

mutual

def outline : Expr → Outline
  | .integer value location =>
    .record "Integer" [("value", .leaf value.text), ("location", location.outline)]
  | .text value location =>
    .record "Str" [("value", .leaf (quoted value)), ("location", location.outline)]
  | .variable ident => .tuple "Variable" [ident.outline]
  | .binary op left right location =>
    .tuple "Binary"
      [.record "BinaryOperation"
        [("operator", op.outline), ("left", left.outline), ("right", right.outline),
          ("location", location.outline)]]
  | .call function arguments location =>
    .tuple "Call"
      [.record "FunctionCall"
        [("name", function.outline), ("arguments", .list (outlines arguments)),
          ("location", location.outline)]]
  | .list elements location =>
    .tuple "List"
      [.record "ListExpression"
        [("elements", .list (outlines elements)), ("location", location.outline)]]

def outlines : List Expr → List Outline
  | [] => []
  | e :: es => e.outline :: outlines es

end

end Expr

mutual

def Stmt.outline : Stmt → Outline
  | .declare ident value location =>
    .tuple "VariableDeclaration"
      [.record "VariableDeclaration"
        [("name", ident.outline), ("value", value.outline), ("location", location.outline)]]
  | .print value location =>
    .tuple "Print"
      [.record "PrintStatement" [("expression", value.outline), ("location", location.outline)]]
  | .branch condition thenBlock elseBlock location =>
    .tuple "If"
      [.record "IfStatement"
        [("condition", condition.outline), ("then_block", thenBlock.outline),
          ("else_block", Block.outlineElse elseBlock), ("location", location.outline)]]
  | .define function => .tuple "FunctionDefinition" [function.outline]
  | .giveBack value location =>
    .tuple "Return"
      [.record "ReturnStatement" [("expression", value.outline), ("location", location.outline)]]

def Stmt.outlines : List Stmt → List Outline
  | [] => []
  | s :: ss => s.outline :: Stmt.outlines ss

def Block.outline : Block → Outline
  | ⟨statements, location⟩ =>
    .record "Block"
      [("statements", .list (Stmt.outlines statements)), ("location", location.outline)]

def Block.outlineElse : Option Block → Outline
  | none => Outline.optional none
  | some block => Outline.optional (some block.outline)

def FunctionDef.outline : FunctionDef → Outline
  | ⟨ident, parameters, body, location⟩ =>
    .record "FunctionDefinition"
      [("name", ident.outline), ("parameters", .list (parameters.map Ident.outline)),
        ("body", body.outline), ("location", location.outline)]

end

def Program.outline (program : Program) : Outline :=
  .record "Program"
    [("statements", .list (Stmt.outlines program.statements)),
      ("location", program.location.outline)]

def ParseCause.outline : ParseCause → Outline
  | .expectedIdent found => .record "ExpectedIdent" [("token", found.outline)]
  | .unexpectedToken found expected =>
    .record "UnexpectedToken"
      [("token", found.outline),
        ("expected", .list (expected.map fun e => .leaf (quoted e.phrase)))]
  | .missingToken => .leaf "UnexpectedEof"
  | .nestingTooDeep => .record "NestingTooDeep" [("limit", .leaf (toString nestingLimit))]

end UzScript
