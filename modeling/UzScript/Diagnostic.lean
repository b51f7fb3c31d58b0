import UzScript.Span
import UzScript.Text.Styled

/-! # Diagnostics

A diagnostic is a title, a marked place in a source, and a text below. How the source is shown at the
place is up to a renderer, which gets the part of the span that lies inside the source. -/

set_option autoImplicit false

namespace UzScript

structure Snippet where
  path : String
  source : String
  span : Span
  label : String

structure Diagnostic where
  title : String
  text : String
  snippet : Option Snippet

/-- Shows an error with a title at a place. -/
abbrev Renderer := String → Snippet → Text.Styled

namespace Diagnostic

def clamp (length : Nat) (span : Span) : Span :=
  let start := min span.start length
  ⟨start, min (max span.stop start) length⟩

def styled (renderer : Renderer) (diagnostic : Diagnostic) : Text.Styled :=
  let head : Text.Styled :=
    match diagnostic.snippet with
    | some snippet =>
      renderer diagnostic.title
        { snippet with span := clamp snippet.source.utf8ByteSize snippet.span }
    | none =>
      [.style ⟨true, some .red⟩, .text "error", .style ⟨true, none⟩,
        .text (": " ++ diagnostic.title ++ "\n\n"), .style ⟨false, none⟩]
  head ++ if diagnostic.text.isEmpty then [] else [.text (diagnostic.text ++ "\n")]

end Diagnostic

end UzScript
