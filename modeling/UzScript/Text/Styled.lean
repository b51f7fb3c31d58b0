/-! # Styled text

Text with marks that switch a style on and off. Shown plainly, the marks vanish; on a terminal
each becomes an escape sequence. -/

set_option autoImplicit false

namespace UzScript.Text

inductive Color where
  | red
  | blue
  | brightRed
  | brightGreen
  | brightYellow
deriving DecidableEq

structure Style where
  bold : Bool
  color : Option Color
deriving DecidableEq

inductive Mark where
  | text (text : String)
  | style (style : Style)
  | reset
deriving DecidableEq

abbrev Styled := List Mark

def escapeCode (code : String) : String := "\x1b[" ++ code ++ "m"

def Color.code : Color → String
  | .red => escapeCode "31"
  | .blue => escapeCode "34"
  | .brightRed => escapeCode "38;5;9"
  | .brightGreen => escapeCode "38;5;10"
  | .brightYellow => escapeCode "38;5;11"

/-- A style starts from a clean state. -/
def Style.code (style : Style) : String :=
  escapeCode "0" ++ (if style.bold then escapeCode "1" else "")
    ++ (style.color.map Color.code).getD ""

def Mark.plain : Mark → String
  | .text s => s
  | .style _ => ""
  | .reset => ""

def Mark.ansi : Mark → String
  | .text s => s
  | .style s => s.code
  | .reset => escapeCode "0"

namespace Styled

def plain (marks : Styled) : String := String.join (marks.map Mark.plain)

def ansi (marks : Styled) : String := String.join (marks.map Mark.ansi)

def render (color : Bool) (marks : Styled) : String :=
  if color then marks.ansi else marks.plain

def inStyle (style : Style) (marks : Styled) : Styled :=
  .style style :: marks ++ [.reset]

end Styled

end UzScript.Text
