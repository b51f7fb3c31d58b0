import UzScript.Command.Run

/-! # Interactive loops

A loop prompts for a line, answers it, and prompts again, until the input ends, is interrupted, or
asks to exit. Only the loop that runs programs remembers earlier lines. -/

set_option autoImplicit false

namespace UzScript

structure Response where
  out : String
  err : Text.Styled

namespace Response

def none : Response := ⟨"", []⟩

def print (out : String) : Response := ⟨out, []⟩

def append (a b : Response) : Response := ⟨a.out ++ b.out, a.err ++ b.err⟩

instance : Append Response := ⟨append⟩

end Response

inductive Input where
  | line (bytes : List UInt8)
  | interrupt
  | endOfInput
deriving DecidableEq

namespace Input

def linesFrom (line : List UInt8) : List UInt8 → List Input
  | [] => if line.isEmpty then [] else [.line line.reverse]
  | b :: bytes =>
    if b = 10 then .line line.reverse :: linesFrom [] bytes else linesFrom (b :: line) bytes

/-- The lines of an input, the last of which need not be ended by a line feed. -/
def lines (bytes : List UInt8) : List Input := linesFrom [] bytes

end Input

namespace LoopKind

def prompt : String := ">> "

def farewell : String := "Xayr!\n"

def path : String := "<repl>"

def trimmed (line : String) : String :=
  String.ofList (line.toList.reverse.dropWhile fun c => c = '\n' || c = '\r').reverse

def answerTokens (line : String) : String :=
  let (lexemes, fault) := (Cursor.ofText line).readAll
  let listed (l : Lexeme) :=
    toString l.span.start ++ ".." ++ toString l.span.stop ++ "\t" ++ l.token.outline.inline
  lines (lexemes.map listed) ++
    match fault with
    | none => ""
    | some fault =>
      let message := fault.message
      lines [s!"[at {fault.span.start}] Lexical error: {message.title}"]
        ++ if message.notes.isEmpty then "" else lines ["\n".intercalate message.notes]

def complaint (title : String) (message : Message) : String :=
  lines [title ++ ": " ++ message.title ++ ".\n\t" ++ ";\n\t".intercalate message.notes]

def answerProgram (line : String) : String :=
  match tokenize line with
  | .error fault => complaint "Lexical error" fault.message
  | .ok lexemes =>
    match parse lexemes with
    | .error fault => complaint "Parse error" fault.cause.message
    | .ok program => lines [program.render]

def answerRun (renderer : Renderer) (machine : Machine) (line : String) : Response × Machine :=
  let (result, after) := machine.withoutOutput.runScript ⟨path, line⟩
  (⟨lines after.output.toList, ((failureOf result).map (Failure.report renderer)).getD []⟩, after)

def answer (renderer : Renderer) (kind : LoopKind) (machine : Machine) (line : String) :
    Response × Machine :=
  match kind with
  | .tokens => (.print (answerTokens line), machine)
  | .programs => (.print (answerProgram line), machine)
  | .evaluation => answerRun renderer machine line

/-- Answers one input. There is no machine to go on with when the loop ends. -/
def step (renderer : Renderer) (kind : LoopKind) (machine : Machine) :
    Input → Response × Option Machine
  | .endOfInput => (.print (if kind = .evaluation then farewell else ""), none)
  | .interrupt => (.print (if kind = .evaluation then "\n" ++ farewell else ""), none)
  | .line bytes =>
    match String.fromUTF8? bytes.toByteArray with
    | none => (.none, none)
    | some text =>
      let line := trimmed text
      if line = "" then (.none, some machine)
      else if line = ".exit" then (.none, none)
      else
        let (response, after) := kind.answer renderer machine line
        (response, some after)

def transcript (renderer : Renderer) (kind : LoopKind) (machine : Machine) :
    List Input → Response
  | [] => .print prompt
  | input :: inputs =>
    let (response, after) := kind.step renderer machine input
    .print prompt ++ response ++
      match after with
      | none => .none
      | some machine => kind.transcript renderer machine inputs

end LoopKind

end UzScript
