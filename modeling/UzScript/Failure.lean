import UzScript.Diagnostic
import UzScript.Evaluation
import UzScript.Loading.Basic
import UzScript.Syntax.Parser

/-! # Failures

A script can fail while it is loaded, read, parsed or run. A failure keeps the script, so that it
can show the place at fault. -/

set_option autoImplicit false

namespace UzScript

structure Script where
  path : String
  source : String
deriving DecidableEq

inductive Failure where
  | loading (cause : LoadCause)
  | lexical (script : Script) (fault : LexFault)
  | syntactic (script : Script) (fault : ParseFault)
  | runtime (script : Script) (fault : RuntimeFault)
deriving DecidableEq

namespace Failure

def summary : Failure → String
  | .loading _ => "IO operation failed"
  | .lexical _ _ => "failed to tokenize source code"
  | .syntactic _ _ => "failed to parse source code"
  | .runtime _ _ => "program aborted"

def located (title : String) (script : Script) (message : Message) (span : Span) : Diagnostic where
  title := title
  text := "\n".intercalate message.notes
  snippet := some ⟨script.path, script.source, span, message.title⟩

/-- Lexemes that end too early have no place of their own: the end of the source is shown. -/
def parseSpan (script : Script) (fault : ParseFault) : Span :=
  match fault.cause with
  | .missingToken => ⟨script.source.utf8ByteSize, script.source.utf8ByteSize⟩
  | _ => fault.span

def diagnostic : Failure → Diagnostic
  | .loading cause => ⟨"Standard IO error", cause.message, none⟩
  | .lexical script fault => located "Lexical error" script fault.message fault.span
  | .syntactic script fault =>
    located "Syntax error" script fault.cause.message (parseSpan script fault)
  | .runtime script fault => located "Runtime error" script fault.cause.message fault.span

def report (renderer : Renderer) (failure : Failure) : Text.Styled :=
  failure.diagnostic.styled renderer ++ [.text "\n"]

end Failure

end UzScript
