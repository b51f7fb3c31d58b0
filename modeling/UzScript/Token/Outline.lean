import UzScript.Outline
import UzScript.Text.Quoted
import UzScript.Token.Lexer

/-! # Outlines of spans, operators, tokens and cursors -/

set_option autoImplicit false

namespace UzScript

open Text (quoted quotedChar)

def Span.outline (s : Span) : Outline :=
  .record "SrcSpan" [("start", .leaf (toString s.start)), ("end", .leaf (toString s.stop))]

def Operator.outline : Operator → Outline
  | .add => .leaf "Add"
  | .subtract => .leaf "Subtract"
  | .multiply => .leaf "Multiply"
  | .divide => .leaf "Divide"
  | .equal => .leaf "Equal"
  | .notEqual => .leaf "NotEqual"
  | .less => .leaf "Less"
  | .lessOrEqual => .leaf "LessOrEqual"
  | .greater => .leaf "Greater"
  | .greaterOrEqual => .leaf "GreaterOrEqual"

def Token.kind : Token → String
  | .ident _ => "Ident"
  | .integer _ => "Int"
  | .text _ => "Str"
  | .keyword .declare => "Var"
  | .keyword .print => "Print"
  | .keyword .branch => "If"
  | .keyword .otherwise => "Else"
  | .keyword .define => "Function"
  | .keyword .giveBack => "Return"
  | .operator .add => "Plus"
  | .operator .subtract => "Minus"
  | .operator .multiply => "Mult"
  | .operator .divide => "Div"
  | .operator .equal => "Equal"
  | .operator .notEqual => "NotEqual"
  | .operator .less => "LessThan"
  | .operator .lessOrEqual => "LessThanOrEqual"
  | .operator .greater => "GreaterThan"
  | .operator .greaterOrEqual => "GreaterThanOrEqual"
  | .opening .round => "LParen"
  | .opening .curly => "LBrace"
  | .opening .square => "LSBracket"
  | .closing .round => "RParen"
  | .closing .curly => "RBrace"
  | .closing .square => "RSBracket"
  | .assign => "Assign"
  | .comma => "Comma"
  | .semicolon => "Semicolon"
  | .endOfFile => "Eof"

def Token.outline (token : Token) : Outline :=
  match token with
  | .ident name => .tuple token.kind [.leaf (quoted name)]
  | .integer value => .tuple token.kind [.leaf value.text]
  | .text value => .tuple token.kind [.leaf (quoted value)]
  | _ => .leaf token.kind

def LexCause.outline : LexCause → Outline
  | .unknownCharacter c => .record "UnrecognizedToken" [("tok", .leaf (quotedChar c))]
  | .unclosedText => .leaf "UnterminatedString"
  | .integerTooLarge => .leaf "IntegerTooLarge"

def PlacedChar.outline (c : PlacedChar) : Outline :=
  .tuple "" [.leaf (toString c.offset), .leaf (quotedChar c.char)]

def Outline.optional : Option Outline → Outline
  | none => .leaf "None"
  | some outline => .tuple "Some" [outline]

def Cursor.describe (cursor : Cursor) : String :=
  let seen (n : Nat) := (Outline.optional (cursor.rest[n]?.map PlacedChar.outline)).inline
  "Lexer \x7b\n\tposition: " ++ toString cursor.offset ++ ",\n\tch: " ++ seen 0
    ++ ", next_ch: " ++ seen 1 ++ "\n\x7d"

end UzScript
