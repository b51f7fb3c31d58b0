import UzScript.Fault
import UzScript.Text.Alphabetic
import UzScript.Text.Numeric
import UzScript.Token.Basic

/-! # Reading tokens

A cursor stands in a text whose characters know their byte offsets. Reading a token skips the
space in front of it and takes the longest word of the language that follows. A cursor may be
read on after a fault: it stands after the word at fault, or still before a character that starts
no word. -/

set_option autoImplicit false

namespace UzScript

inductive LexCause where
  | unknownCharacter (c : Char)
  | unclosedText
  | integerTooLarge
deriving DecidableEq

abbrev LexFault := Fault LexCause

def Integer.rangeNote : String :=
  "Integers must fit between " ++ toString least ++ " and " ++ toString greatest

def LexCause.message (cause : LexCause) (offset : Nat) : Message :=
  match cause with
  | .unknownCharacter c =>
    ⟨"Unrecognized character",
      ["Don't know what to do with `" ++ String.singleton c ++ "` at offset " ++ toString offset]⟩
  | .unclosedText => ⟨"Missing closing `\"` of string literal", []⟩
  | .integerTooLarge => ⟨"Integer literal is too large", [Integer.rangeNote]⟩

def LexFault.message (fault : LexFault) : Message :=
  fault.cause.message fault.span.start

/-- A character and the byte offset at which it stands. -/
structure PlacedChar where
  offset : Nat
  char : Char
deriving DecidableEq, Inhabited

def PlacedChar.stop (c : PlacedChar) : Nat := c.offset + c.char.utf8Size

def placed (offset : Nat) : List Char → List PlacedChar
  | [] => []
  | c :: cs => ⟨offset, c⟩ :: placed (offset + c.utf8Size) cs

def PlacedChar.text (cs : List PlacedChar) : String :=
  String.ofList (cs.map PlacedChar.char)

/-- Space between tokens: blank, tab, line feed, carriage return and form feed. -/
def isSpace (c : Char) : Bool :=
  c = ' ' || c = '\t' || c = '\n' || c = '\r' || c = '\x0c'

def isNameStart (c : Char) : Bool := Text.isAlphabetic c || c = '_'

def isNamePart (c : Char) : Bool := Text.isAlphabetic c || Text.isNumeric c || c = '_'

/-- What stands at the front of a text, and how many characters it takes. -/
inductive Word where
  | token (token : Token) (length : Nat)
  | fault (cause : LexCause) (length : Nat)
deriving DecidableEq

namespace Word

def symbol? (c : Char) (next : Option Char) : Option Word :=
  let orEqual (single double : Token) : Option Word :=
    if next = some '=' then some (.token double 2) else some (.token single 1)
  match c with
  | '+' => some (.token (.operator .add) 1)
  | '-' => some (.token (.operator .subtract) 1)
  | '*' => some (.token (.operator .multiply) 1)
  | '/' => some (.token (.operator .divide) 1)
  | '(' => some (.token (.opening .round) 1)
  | ')' => some (.token (.closing .round) 1)
  | '\x7b' => some (.token (.opening .curly) 1)
  | '\x7d' => some (.token (.closing .curly) 1)
  | '[' => some (.token (.opening .square) 1)
  | ']' => some (.token (.closing .square) 1)
  | ',' => some (.token .comma 1)
  | ';' => some (.token .semicolon 1)
  | '=' => orEqual .assign (.operator .equal)
  | '<' => orEqual (.operator .less) (.operator .lessOrEqual)
  | '>' => orEqual (.operator .greater) (.operator .greaterOrEqual)
  | '!' => if next = some '=' then some (.token (.operator .notEqual) 2) else none
  | _ => none

def quoted (rest : List PlacedChar) : Word :=
  let body := rest.takeWhile (·.char != '"')
  match rest.dropWhile (·.char != '"') with
  | [] => .fault .unclosedText (body.length + 1)
  | _ :: _ => .token (.text (PlacedChar.text body)) (body.length + 2)

def digits (run : List PlacedChar) : Word :=
  match Integer.ofInt? (Nat.ofDigitChars 10 (run.map PlacedChar.char) 0) with
  | some value => .token (.integer value) run.length
  | none => .fault .integerTooLarge run.length

def name (run : List PlacedChar) : Word :=
  match Keyword.ofWord? (PlacedChar.text run) with
  | some word => .token (.keyword word) run.length
  | none => .token (.ident (PlacedChar.text run)) run.length

def read (c : PlacedChar) (rest : List PlacedChar) : Word :=
  if c.char = '"' then quoted rest
  else
    match symbol? c.char (rest.head?.map PlacedChar.char) with
    | some word => word
    | none =>
      if c.char.isDigit then digits (c :: rest.takeWhile (·.char.isDigit))
      else if isNameStart c.char then name (c :: rest.takeWhile (isNamePart ·.char))
      else .fault (.unknownCharacter c.char) 0

end Word

/-- A place in a text: what is left to read, and the offset right after what was read last. -/
structure Cursor where
  rest : List PlacedChar
  stop : Nat
deriving DecidableEq

namespace Cursor

def ofText (source : String) : Cursor := ⟨placed 0 source.toList, 0⟩

def ofChars (chars : List PlacedChar) : Cursor := ⟨chars, 0⟩

def offset (cursor : Cursor) : Nat :=
  match cursor.rest with
  | [] => cursor.stop
  | c :: _ => c.offset

def step : Cursor → Cursor
  | ⟨[], stop⟩ => ⟨[], stop⟩
  | ⟨c :: rest, _⟩ => ⟨rest, c.stop⟩

def advance : Nat → Cursor → Cursor
  | 0, cursor => cursor
  | n + 1, cursor => advance n cursor.step

def skipSpace (cursor : Cursor) : Cursor :=
  cursor.advance (cursor.rest.takeWhile (isSpace ·.char)).length

/-- Reads what stands right at the cursor. A character that starts no word is reported with the
span it takes, and is not passed. -/
def readWord (cursor : Cursor) : Except LexFault Lexeme × Cursor :=
  match cursor.rest with
  | [] => (.ok ⟨.endOfFile, ⟨cursor.stop, cursor.stop⟩⟩, cursor)
  | c :: rest =>
    match Word.read c rest with
    | .token token length =>
      let after := cursor.advance length
      (.ok ⟨token, ⟨cursor.offset, after.offset⟩⟩, after)
    | .fault (.unknownCharacter d) _ => (.error ⟨.unknownCharacter d, ⟨c.offset, c.stop⟩⟩, cursor)
    | .fault cause length =>
      let after := cursor.advance length
      (.error ⟨cause, ⟨cursor.offset, after.offset⟩⟩, after)

def next (cursor : Cursor) : Except LexFault Lexeme × Cursor :=
  cursor.skipSpace.readWord

end Cursor

theorem Word.symbol?_length {c : Char} {next : Option Char} {token : Token} {n : Nat}
    (h : Word.symbol? c next = some (.token token n)) : 0 < n := by
  unfold Word.symbol? at h
  split at h <;> grind

theorem Word.read_token_length {c : PlacedChar} {rest : List PlacedChar} {token : Token} {n : Nat}
    (h : Word.read c rest = .token token n) : 0 < n := by
  unfold Word.read at h
  split at h
  · unfold Word.quoted at h
    grind
  · split at h
    · next hs => exact Word.symbol?_length (h ▸ hs)
    · split at h
      · unfold Word.digits at h
        grind
      · split at h
        · unfold Word.name at h
          grind
        · cases h

namespace Cursor

@[simp] theorem rest_step (cursor : Cursor) : cursor.step.rest = cursor.rest.drop 1 := by
  obtain ⟨rest, stop⟩ := cursor
  cases rest <;> rfl

@[simp] theorem rest_advance (n : Nat) (cursor : Cursor) :
    (cursor.advance n).rest = cursor.rest.drop n := by
  induction n generalizing cursor with
  | zero => rfl
  | succ n ih => rw [advance, ih, rest_step, List.drop_drop, Nat.add_comm]

/-- A token other than the end of the text shortens what is left. -/
theorem next_length_lt {cursor after : Cursor} {lexeme : Lexeme}
    (h : cursor.next = (.ok lexeme, after)) (hend : lexeme.token ≠ .endOfFile) :
    after.rest.length < cursor.rest.length := by
  have hskip : cursor.skipSpace.rest.length ≤ cursor.rest.length := by simp [skipSpace]
  unfold next readWord at h
  split at h
  · grind
  · next c rest hrest =>
    split at h
    · next token n hword =>
      obtain ⟨-, rfl⟩ := Prod.mk.inj h
      have hn := Word.read_token_length hword
      simp only [rest_advance, List.length_drop]
      have hpos : 0 < cursor.skipSpace.rest.length := by simp [hrest]
      omega
    · cases h
    · cases h

/-- The tokens up to and including the end of the text, or up to the first fault. -/
def readAll (cursor : Cursor) : List Lexeme × Option LexFault :=
  match _h : cursor.next with
  | (.error fault, _) => ([], some fault)
  | (.ok lexeme, after) =>
    if _hend : lexeme.token = .endOfFile then ([lexeme], none)
    else
      let (more, fault) := readAll after
      (lexeme :: more, fault)
termination_by cursor.rest.length
decreasing_by exact next_length_lt _h _hend

end Cursor

def tokenize (source : String) : Except LexFault (List Lexeme) :=
  match (Cursor.ofText source).readAll with
  | (lexemes, none) => .ok lexemes
  | (_, some fault) => .error fault

end UzScript
