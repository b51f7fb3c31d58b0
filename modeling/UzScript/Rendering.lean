import UzScript.Diagnostic
import UzScript.Text.Blank
import UzScript.Text.Width

/-! # Showing a place in a source

The lines of a source that a span touches are shown with the span marked in them. A span inside one
line is underlined with carets. A span over several lines gets a bracket in the margin, and its middle
is left out when it is long. -/

set_option autoImplicit false

namespace UzScript.Rendering

open Text

def total (counts : List Nat) : Nat := counts.foldr (· + ·) 0

structure SourceLine where
  number : Nat
  start : Nat
  chars : List Char

def linesFrom (number start : Nat) (line : List Char) : List Char → List SourceLine
  | [] => [⟨number, start, line.reverse⟩]
  | c :: cs =>
    if c = '\n' then
      let chars := line.reverse
      ⟨number, start, chars⟩
        :: linesFrom (number + 1) (start + total (chars.map Char.utf8Size) + 1) [] cs
    else linesFrom number start (c :: line) cs

/-- The lines of a source. After a final line feed there is one more line, which is empty. -/
def sourceLines (source : String) : List SourceLine :=
  linesFrom 1 0 [] source.toList

/-- The line on which an offset lies: the last that starts at or before it. -/
def lineAt (lines : List SourceLine) (offset : Nat) : SourceLine :=
  (lines.takeWhile (·.start ≤ offset)).getLastD ⟨1, 0, []⟩

structure Column where
  offset : Nat
  char : Char
  width : Nat

def Column.stop (column : Column) : Nat := column.offset + column.char.utf8Size

def columnsFrom (offset column : Nat) : List Char → List Column
  | [] => []
  | c :: cs =>
    let width := if c = '\t' then 4 - column % 4 else columnWidth c
    ⟨offset, c, width⟩ :: columnsFrom (offset + c.utf8Size) (column + width) cs

/-- A tab reaches to the next multiple of four columns. -/
def columns (chars : List Char) : List Column := columnsFrom 0 0 chars

namespace SourceLine

/-- The line as it is shown: carriage returns and null characters at its end are left out. -/
def shown (line : SourceLine) : List Char :=
  (line.chars.reverse.dropWhile fun c => c = '\n' || c = '\r' || c = '\x00').reverse

def columnNumber (line : SourceLine) (offset : Nat) : Nat :=
  1 + ((columns line.chars).filter (line.start + ·.stop ≤ offset)).length

def indent (line : SourceLine) : Nat :=
  total ((line.shown.takeWhile isBlank).map Char.utf8Size)

end SourceLine

def repeated (n : Nat) (c : Char) : String := "".pushn c n

def red : Style := ⟨false, some .red⟩

def blue : Style := ⟨false, some .blue⟩

def newline : Mark := .text "\n"

def highlightedFrom (chosen : Column → Bool) (inside : Bool) : List Column → Styled
  | [] => if inside then [.reset] else []
  | column :: rest =>
    let text := if column.char = '\t' then repeated column.width ' ' else column.char.toString
    let switch : Styled :=
      if chosen column then (if inside then [] else [.style red])
      else (if inside then [.reset] else [])
    switch ++ .text text :: highlightedFrom chosen (chosen column) rest

def highlighted (chosen : Column → Bool) (chars : List Char) : Styled :=
  highlightedFrom chosen false (columns chars)

def border (pad : Nat) (sign : String) : Styled :=
  .text (repeated (pad + 1) ' ') :: Styled.inStyle blue [.text sign]

def numbered (pad : Nat) (line : SourceLine) (gutter : Styled) (chosen : Column → Bool) : Styled :=
  let number := toString line.number
  Styled.inStyle blue [.text (repeated (pad - number.length) ' ' ++ number)]
    ++ .text " " :: Styled.inStyle blue [.text "│"]
    ++ gutter ++ .text " " :: highlighted chosen line.shown ++ [newline]

def bracket (sign : String) : Styled := .text " " :: Styled.inStyle red [.text sign]

def noBracket : Styled := [.text "  "]

/-- The carets below a line, up to the end of the marked range. One more column after the line
lets a range at its very end be seen. -/
def caretsFrom (marked : Span) (inside : Bool) : List Column → Styled
  | [] => if inside then [.reset] else []
  | column :: rest =>
    let hit : Bool := max marked.start column.offset < min marked.stop column.stop
    let switch : Styled :=
      if hit then (if inside then [] else [.style red])
      else (if inside then [.reset] else [])
    let text :=
      if hit then repeated column.width '^'
      else if column.offset < marked.stop then repeated column.width ' '
      else ""
    switch ++ .text text :: caretsFrom marked hit rest

def carets (marked : Span) (line : SourceLine) : Styled :=
  let shown := line.shown
  let afterwards : Column := ⟨total (shown.map Char.utf8Size), '\x00', 1⟩
  caretsFrom marked false (columns shown ++ [afterwards])

def singleLine (pad : Nat) (line : SourceLine) (span : Span) (label : String) : Styled :=
  let start := span.start - line.start
  let marked : Span := ⟨start, max (span.stop - line.start) (start + 1)⟩
  let message : Styled :=
    if label.isEmpty then [] else .text " " :: Styled.inStyle red [.text label]
  numbered pad line []
      (fun column => max marked.start column.offset < min marked.stop column.stop)
    ++ border pad "│" ++ .text " " :: carets marked line ++ message ++ [newline]

def dashes (line : SourceLine) (offset : Nat) : String :=
  repeated (total (((columns line.shown).takeWhile (·.offset < offset)).map Column.width)) '─'

/-- A middle line is shown when it is one of the three after the first or next to the last. -/
def isShown (first last number : Nat) : Bool :=
  number ≤ first + 3 || last ≤ number + 1

/-- The middle lines, where a single line that could be left out is shown after all. -/
def middleLines (pad first last : Nat) (skipped : List SourceLine) : List SourceLine → Styled
  | [] => []
  | line :: rest =>
    let whole (line : SourceLine) := numbered pad line (bracket "│") fun _ => true
    if isShown first last line.number then
      let gap : Styled :=
        match skipped with
        | [] => []
        | [only] => whole only
        | _ => border pad "·" ++ bracket "│" ++ [newline]
      gap ++ whole line ++ middleLines pad first last [] rest
    else middleLines pad first last (line :: skipped) rest

def multiLine (pad : Nat) (first last : SourceLine) (middle : List SourceLine) (span : Span)
    (label : String) : Styled :=
  let start := span.start - first.start
  let stop := span.stop - last.start
  let opensAtMargin : Bool := start ≤ first.indent
  let opening : Styled :=
    if opensAtMargin then []
    else
      border pad "│" ++ bracket "╭"
        ++ Styled.inStyle red [.text (dashes first (start + 1) ++ "^")] ++ [newline]
  numbered pad first (if opensAtMargin then bracket "╭" else noBracket)
      (fun column => start ≤ column.offset)
    ++ opening
    ++ middleLines pad first.number last.number [] middle
    ++ numbered pad last (bracket "│") (fun column => column.stop ≤ stop)
    ++ border pad "│" ++ bracket "╰"
    ++ Styled.inStyle red
        [.text (dashes last stop ++ "^" ++ if label.isEmpty then "" else " " ++ label)]
    ++ [newline]

def excerpt (snippet : Snippet) : Styled :=
  let lines := sourceLines snippet.source
  let span := snippet.span
  let first := lineAt lines span.start
  let last := lineAt lines span.stop
  let pad := (toString last.number).length
  let isMultiLine := first.number != last.number
  let place := snippet.path ++ ":" ++ toString first.number ++ ":"
    ++ toString (first.columnNumber span.start)
  border pad "┌─" ++ .text (" " ++ place ++ "\n") :: border pad "│"
    ++ (if isMultiLine then noBracket else []) ++ [newline]
    ++ (if isMultiLine then
          multiLine pad first last
            (lines.filter fun line => first.number < line.number && line.number < last.number)
            span snippet.label
        else singleLine pad first span snippet.label)
    ++ [newline]

def renderer : Renderer := fun title snippet =>
  [.style ⟨true, some .brightRed⟩, .text "error", .style ⟨true, none⟩, .text (": " ++ title), .reset,
      newline]
    ++ excerpt snippet

end UzScript.Rendering
