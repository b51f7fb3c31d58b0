/-! # Outlines

An outline shows the structure of a value: a leaf, a record with named fields, a tuple, which may
have a name in front, or a list. It is laid out on one line, or with one item to a line. -/

set_option autoImplicit false

namespace UzScript

inductive Outline where
  | leaf (text : String)
  | record (name : String) (fields : List (String × Outline))
  | tuple (name : String) (items : List Outline)
  | list (items : List Outline)

namespace Outline

def unwrap : Outline → Outline
  | .tuple _ [item] => item
  | outline => outline

mutual

def inline : Outline → String
  | .leaf text => text
  | .record name fields => name ++ " \x7b " ++ ", ".intercalate (inlineFields fields) ++ " \x7d"
  | .tuple name items => name ++ "(" ++ ", ".intercalate (inlineItems items) ++ ")"
  | .list items => "[" ++ ", ".intercalate (inlineItems items) ++ "]"

def inlineFields : List (String × Outline) → List String
  | [] => []
  | (label, value) :: fields => (label ++ ": " ++ value.inline) :: inlineFields fields

def inlineItems : List Outline → List String
  | [] => []
  | item :: items => item.inline :: inlineItems items

end

def indentation (depth : Nat) : String :=
  "".pushn ' ' (4 * depth)

/-- Lines between an opening and a closing bracket, each ended by a comma and indented one step
further than the brackets. -/
def bracketed (depth : Nat) (opening closing : String) (lines : List String) : String :=
  if lines.isEmpty then opening ++ closing
  else
    opening ++ "\n" ++ String.join (lines.map fun line => indentation (depth + 1) ++ line ++ ",\n")
      ++ indentation depth ++ closing

mutual

def indented (depth : Nat) : Outline → String
  | .leaf text => text
  | .record name fields =>
    bracketed depth (name ++ " \x7b") "\x7d" (indentedFields (depth + 1) fields)
  | .tuple name items => bracketed depth (name ++ "(") ")" (indentedItems (depth + 1) items)
  | .list items => bracketed depth "[" "]" (indentedItems (depth + 1) items)

def indentedFields (depth : Nat) : List (String × Outline) → List String
  | [] => []
  | (label, value) :: fields => (label ++ ": " ++ value.indented depth) :: indentedFields depth fields

def indentedItems (depth : Nat) : List Outline → List String
  | [] => []
  | item :: items => item.indented depth :: indentedItems depth items

end

end Outline

end UzScript
