import SampleCast.Stream.Fault
import SampleCast.Text.Parts

/-! Files of a host.
A path is a list of names, which are followed one by one from the root or from the current
directory. Whatever has a name after it has to be a directory, even if the name is empty. -/

namespace SampleCast

inductive FileEntry
  | directory
  | file (content : List UInt8)
  deriving DecidableEq, Inhabited

structure FileTree where
  entries : List (List String × FileEntry)
  current : List String := []
  deriving Inhabited

namespace FileTree

def nameLimit : Nat := 255

def pathLimit : Nat := 4095

def entry? (t : FileTree) (place : List String) : Option FileEntry :=
  if place.isEmpty then some .directory else t.entries.lookup place

/-- Where a name leads to. Two dots lead out of a directory, and out of the root to the root. -/
def follow (t : FileTree) (place : List String) (name : String) : Except Fault (List String) :=
  if t.entry? place != some .directory then .error .notDirectory
  else if name = "" ∨ name = "." then .ok place
  else if name = ".." then .ok place.dropLast
  else if nameLimit < name.utf8ByteSize then .error .longName
  else
    let place := place ++ [name]
    if (t.entry? place).isSome then .ok place else .error .missingFile

def read (t : FileTree) (path : String) : Except Fault (List UInt8) := do
  if pathLimit < path.utf8ByteSize then .error .longName
  else
    let names := (splitParts '/' path.toList).map String.ofList
    let place ← names.foldlM t.follow (if path.startsWith "/" then [] else t.current)
    match t.entry? place with
    | some (.file content) => .ok content
    | _ => .error .isDirectory

end FileTree
end SampleCast
