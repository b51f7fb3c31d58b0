import UzScript.Evaluation
import UzScript.Token.Outline

/-! # Outlines of runtime faults -/

set_option autoImplicit false

namespace UzScript

open Text (quoted)

def RuntimeCause.outline : RuntimeCause → Outline
  | .unboundVariable name => .record "UnboundVariable" [("name", .leaf (quoted name))]
  | .unknownFunction name => .record "UnknownFunction" [("name", .leaf (quoted name))]
  | .unsupportedType got use =>
    .record "UnsupportedType"
      [("expected", .leaf ValueType.integer.name), ("got", .leaf got.name),
        ("context", .leaf (quoted use.phrase))]
  | .divisionByZero => .leaf "DivisionByZero"
  | .integerOverflow => .leaf "IntegerOverflow"
  | .arityMismatch name expected got =>
    .record "ArityMismatch"
      [("name", .leaf (quoted name)), ("expected", .leaf (toString expected)),
        ("got", .leaf (toString got))]
  | .callDepthExceeded =>
    .record "CallDepthExceeded" [("limit", .leaf (toString callLimit))]

end UzScript
