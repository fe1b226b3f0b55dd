/-! The files of a system as a value. A path is followed name by name, from the top or from the
working directory, and every name but the last has to lead to a directory. -/
namespace Chip8

/-- Why a file could not be read. -/
inductive ReadError where
  | notFound
  | permissionDenied
  | notDirectory
  | isDirectory
  | nameTooLong
  | other (message : String)
deriving DecidableEq, Repr

inductive Entry where
  | file (content : List UInt8)
  | directory
deriving DecidableEq, Repr

/-- What stands where. A place is the list of the names that lead to it from the top. -/
structure Files where
  /-- The place from which a path without a leading slash is followed. -/
  home : List String
  entries : List (List String × Entry)
deriving Repr

namespace Files

/-- The longest name, in bytes. -/
def maxName : Nat :=
  255

/-- The longest path, in bytes. -/
def maxPath : Nat :=
  4095

/-- The stretches of a text between its slashes, empty ones included. -/
def stretches : List Char → List (List Char)
  | [] => [[]]
  | c :: rest =>
    let others := stretches rest
    if c = '/' then [] :: others else (c :: others.headD []) :: others.tail

def names (path : String) : List String :=
  (stretches path.toList).map String.ofList

/-- The working directory exists, and so does all above it. -/
def entry? (files : Files) (place : List String) : Option Entry :=
  if place.isPrefixOf files.home then some .directory else files.entries.lookup place

/-- The content of the file that the names lead to from a place. -/
def follow (files : Files) (place : List String) : List String → Except ReadError (List UInt8)
  | [] =>
    match files.entry? place with
    | none => .error .notFound
    | some .directory => .error .isDirectory
    | some (.file content) => .ok content
  | name :: rest =>
    match files.entry? place with
    | none => .error .notFound
    | some (.file _) => .error .notDirectory
    | some .directory =>
      if name = "" ∨ name = "." then files.follow place rest
      else if name = ".." then files.follow place.dropLast rest
      else if maxName < name.utf8ByteSize then .error .nameTooLong
      else files.follow (place ++ [name]) rest

/-- The content of the file at a path. No file is at the empty path. -/
def read (files : Files) (path : String) : Except ReadError (List UInt8) :=
  if maxPath < path.utf8ByteSize then .error .nameTooLong
  else if path = "" then .error .notFound
  else files.follow (if path.toList.head? = some '/' then [] else files.home) (names path)

end Files

end Chip8
