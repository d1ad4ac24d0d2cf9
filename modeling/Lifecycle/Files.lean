import Lifecycle.Keyed

/-! # Files

A table of files stands for a directory and what is below it. A path leads through the table part by
part. Where it leads out of the table there are directories above, and nothing else is known. Paths
and their parts are limited in length, measured in UTF-8. -/

namespace Lifecycle

/-- What reading a file gives. -/
inductive FileRead
  | text (content : String)
  | missing
  /-- The path leads to a directory. -/
  | directory
  /-- The path goes on behind a file as if that were a directory. -/
  | notDirectory
  /-- The path, or the part of it that was looked for, is longer than any can be. -/
  | tooLong
  /-- The path holds a character that no path may hold. -/
  | unusable
  deriving DecidableEq, Repr

/-- The files below a directory, by their paths from there. -/
abbrev Files := Keyed String String

namespace Files

/-- The largest size of a path. -/
def maxPath : Nat := 4095

/-- The largest size of a part of a path. -/
def maxPart : Nat := 255

/-- The parts of a path that lead somewhere. -/
def parts (path : String) : List String :=
  (path.splitOn "/").filter fun part => part ≠ "" ∧ part ≠ "."

/-- The path ends like the path of a directory. -/
def endsInDirectory (path : String) : Bool :=
  let last := (path.splitOn "/").getLastD ""
  last == "" || last == "."

/-- Follows the parts of a path from a directory of the table, or from outside of it. `directory`
says that the path ends like that of a directory. -/
def follow (files : Files) (directory : Bool) : Option (List String) → List String → FileRead
  | _, [] => .directory
  | none, part :: rest =>
    if part == ".." then follow files directory none rest
    else if maxPart < part.utf8ByteSize then .tooLong
    else .missing
  | some place, part :: rest =>
    if part == ".." then
      follow files directory (if place.isEmpty then none else some place.dropLast) rest
    else if maxPart < part.utf8ByteSize then .tooLong
    else
      let here := place ++ [part]
      match files.find? fun f => parts f.1 == here with
      | some (_, content) => if rest.isEmpty && !directory then .text content else .notDirectory
      | none =>
        if files.any fun f => here.isPrefixOf (parts f.1) then
          follow files directory (some here) rest
        else .missing

/-- Reads a file. -/
def read (files : Files) (path : String) : FileRead :=
  if path.toList.contains '\x00' then .unusable
  else if path == "" then .missing
  else if maxPath < path.utf8ByteSize then .tooLong
  else
    follow files (endsInDirectory path) (if path.toList.head? == some '/' then none else some [])
      (parts path)

end Files

end Lifecycle
