import UzScript.Text.Extending
import UzScript.Text.Printable

/-! # Quoted text

A quoted character or string shows every character legibly: the quote itself and the backslash
are escaped by a backslash, common control characters have a letter, and a character that would
not be seen alone is given by its code point. -/

set_option autoImplicit false

namespace UzScript.Text

def hexadecimal (n : Nat) : String :=
  String.ofList (Nat.toDigits 16 n)

def escaped (quote c : Char) : String :=
  if c = '\x00' then "\\0"
  else if c = '\t' then "\\t"
  else if c = '\r' then "\\r"
  else if c = '\n' then "\\n"
  else if c = '\\' then "\\\\"
  else if c = quote then "\\" ++ String.singleton quote
  else if isExtending c || !isPrintable c then "\\u\x7b" ++ hexadecimal c.toNat ++ "\x7d"
  else String.singleton c

def quotedChar (c : Char) : String :=
  "'" ++ escaped '\'' c ++ "'"

def quoted (s : String) : String :=
  "\"" ++ String.join (s.toList.map (escaped '"')) ++ "\""

end UzScript.Text
