import UzScript.Integer

/-! # Values

A value is an integer or a text. -/

set_option autoImplicit false

namespace UzScript

inductive ValueType where
  | integer
  | text
deriving DecidableEq

def ValueType.name : ValueType → String
  | .integer => "Integer"
  | .text => "String"

inductive Value where
  | integer (value : Integer)
  | text (value : String)
deriving DecidableEq, Inhabited

namespace Value

def type : Value → ValueType
  | .integer _ => .integer
  | .text _ => .text

def print : Value → String
  | .integer value => value.text
  | .text value => value

def integer? : Value → Except ValueType Integer
  | .integer value => .ok value
  | other => .error other.type

end Value

end UzScript
