/-! # Loading files

A file is read one character at a time. How a character is read is a parameter: only the loop over a
reader is defined here. -/

set_option autoImplicit false

namespace UzScript

inductive LoadCause where
  | notFound
  | isADirectory
  | notADirectory
  | invalidName
  | permissionDenied
  | invalidData
  | unexpectedEnd
deriving DecidableEq

def LoadCause.message : LoadCause → String
  | .notFound => "entity not found"
  | .isADirectory => "is a directory"
  | .notADirectory => "not a directory"
  | .invalidName => "invalid filename"
  | .permissionDenied => "permission denied"
  | .invalidData => "invalid data"
  | .unexpectedEnd => "unexpected end of file"

/-- The bytes found at a path, or why there are none. -/
abbrev FileContents := Except LoadCause (List UInt8)

/-- Reads the next character and leaves the bytes after it; there is none at the end of the bytes. -/
structure CharReader where
  read : List UInt8 → Option (Except LoadCause (Char × List UInt8))
  shorter {bytes rest : List UInt8} {c : Char} :
    read bytes = some (.ok (c, rest)) → rest.length < bytes.length

/-- Reads characters onto the end of a text, up to the first that cannot be read. -/
def CharReader.readAll (reader : CharReader) (text : String) (bytes : List UInt8) :
    Except LoadCause String :=
  match h : reader.read bytes with
  | none => .ok text
  | some (.error cause) => .error cause
  | some (.ok (c, rest)) =>
    have := reader.shorter h
    reader.readAll (text.push c) rest
termination_by bytes.length

end UzScript
