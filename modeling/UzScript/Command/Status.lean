import UzScript.Elapsed
import UzScript.Text.Styled

/-! # Status lines

A status line tells what happens to a script: a label at the right of a column of eleven, and a
text after it. -/

set_option autoImplicit false

namespace UzScript

open Text

inductive Status where
  | running
  | finished
  | failed
  | warning
deriving DecidableEq

namespace Status

def label : Status → String
  | .running => "Running"
  | .finished => "Finished"
  | .failed => "Failed"
  | .warning => "Warning"

def color : Status → Color
  | .running => .brightGreen
  | .finished => .brightGreen
  | .failed => .brightRed
  | .warning => .brightYellow

def line (status : Status) (text : String) : Styled :=
  let padding := "".pushn ' ' (11 - status.label.length)
  Styled.inStyle ⟨true, some status.color⟩ [.text (padding ++ status.label)]
    ++ [.text (" " ++ text ++ "\n")]

def timed (status : Status) (elapsed : String) : Styled := status.line ("in " ++ elapsed)

end Status

end UzScript
