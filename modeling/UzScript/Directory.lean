import UzScript.Session

/-! # Directories

A directory as it stands: the files below it, each with the names on the way to it. Reading a path
follows its names one by one from the directory, and the first name that leads nowhere decides how
it fails. Paths and names have a greatest length in bytes. -/

set_option autoImplicit false

namespace UzScript

def pathLimit : Nat := 4095

def nameLimit : Nat := 255

structure Directory where
  files : List (List String × List UInt8)

namespace Directory

def file? (directory : Directory) (names : List String) : Option (List UInt8) :=
  directory.files.lookup names

/-- A directory exists if something lies below it. -/
def hasFolder (directory : Directory) (names : List String) : Bool :=
  directory.files.any fun (path, _) => names.isPrefixOf path && path != names

/-- Where a path has led so far: into a folder of the directory, or out of the directory. -/
inductive Place where
  | inside (names : List String)
  | outside
deriving DecidableEq

def parent : Place → Place
  | .inside [] => .outside
  | .inside names => .inside names.dropLast
  | .outside => .outside

def follow (directory : Directory) : Place → List String → FileContents
  | _, [] => .error .isADirectory
  | place, name :: rest =>
    if name = "" || name = "." then directory.follow place rest
    else if name = ".." then directory.follow (parent place) rest
    else if nameLimit < name.utf8ByteSize then .error .invalidName
    else
      match place with
      | .outside => .error .notFound
      | .inside names =>
        let path := names ++ [name]
        match directory.file? path with
        | some bytes => if rest.isEmpty then .ok bytes else .error .notADirectory
        | none =>
          if directory.hasFolder path then directory.follow (.inside path) rest
          else .error .notFound

/-- The contents of the file at a path, relative to the directory unless it starts at the root. A
path that is too long is refused before any of its names is followed. -/
def read (directory : Directory) (path : String) : FileContents :=
  if pathLimit < path.utf8ByteSize then .error .invalidName
  else
    let start := if path.startsWith "/" then Place.outside else .inside []
    directory.follow start (path.splitOn "/")

end Directory

end UzScript
