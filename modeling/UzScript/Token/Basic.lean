import UzScript.Operator
import UzScript.Span

/-! # Tokens

The words of the language: names, literals, the six keywords, operators, brackets and separators,
and the end of the source. A lexeme is a token together with the place where it stands. -/

set_option autoImplicit false

namespace UzScript

inductive Keyword where
  | declare
  | print
  | branch
  | otherwise
  | define
  | giveBack
deriving DecidableEq, Inhabited

namespace Keyword

def spelling : Keyword → String
  | .declare => "soni"
  | .print => "chop"
  | .branch => "agar"
  | .otherwise => "aks"
  | .define => "funksiya"
  | .giveBack => "qaytar"

def all : List Keyword := [.declare, .print, .branch, .otherwise, .define, .giveBack]

/-- Keywords are written exactly as they are spelled; case matters. -/
def ofWord? (word : String) : Option Keyword :=
  all.find? fun k => k.spelling = word

theorem mem_all (k : Keyword) : k ∈ all := by cases k <;> decide

theorem ofWord?_eq_some_iff {word : String} {k : Keyword} :
    ofWord? word = some k ↔ k.spelling = word := by
  constructor
  · intro h
    simpa using List.find?_some h
  · rintro rfl
    cases k <;> decide

end Keyword

inductive Bracket where
  | round
  | curly
  | square
deriving DecidableEq, Inhabited

inductive Token where
  | ident (name : String)
  | integer (value : Integer)
  | text (value : String)
  | keyword (word : Keyword)
  | operator (op : Operator)
  | opening (bracket : Bracket)
  | closing (bracket : Bracket)
  | assign
  | comma
  | semicolon
  | endOfFile
deriving DecidableEq, Inhabited

namespace Token

/-- The text of a token in a source. The end of a source has no text, and gets a phrase. -/
def spelling : Token → String
  | .ident name => name
  | .integer value => value.text
  | .text value => "\"" ++ value ++ "\""
  | .keyword word => word.spelling
  | .operator op => op.symbol
  | .opening .round => "("
  | .opening .curly => "\x7b"
  | .opening .square => "["
  | .closing .round => ")"
  | .closing .curly => "\x7d"
  | .closing .square => "]"
  | .assign => "="
  | .comma => ","
  | .semicolon => ";"
  | .endOfFile => "end of file"

def phrase : Token → String
  | .ident _ => "an Identifier"
  | .integer _ => "an Int"
  | .text _ => "a String"
  | .endOfFile => "the end of file"
  | .keyword word => "the keyword `" ++ word.spelling ++ "`"
  | token => "`" ++ token.spelling ++ "`"

def isKeyword : Token → Bool
  | .keyword _ => true
  | _ => false

def operator? : Token → Option Operator
  | .operator op => some op
  | _ => none

end Token

structure Lexeme where
  token : Token
  span : Span
deriving DecidableEq, Inhabited

def Lexeme.shift (n : Nat) (l : Lexeme) : Lexeme := ⟨l.token, l.span.shift n⟩

end UzScript
