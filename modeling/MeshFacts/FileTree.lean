/-! # Files by their paths
What a path leads to when its names are followed one by one from the root. -/
namespace MeshFacts

inductive FileContent where
  | missing
  /-- Something that is there and cannot be read as a text, such as a directory. -/
  | unreadable
  | text (t : String)
deriving DecidableEq, Repr, Inhabited

def FileContent.ofText? : Option String → FileContent
  | none => missing
  | some t => text t

abbrev Files := String → FileContent

/-- Directories and the texts of files, each by the names that lead to it from the root. -/
structure FileTree where
  directories : List (List String) := [[]]
  files : List (List String × String) := []
deriving DecidableEq, Repr, Inhabited

namespace FileTree

/-- The names of a path, which stand between slashes. -/
def names (path : String) : List String := (path.toList.splitOn '/').map String.ofList

/-- Where a name leads from a directory. Two dots lead to the directory above, which for the root is the root;
one dot and an empty name stay. -/
def step (place : List String) (name : String) : List String :=
  if name = "" ∨ name = "." then place
  else if name = ".." then place.dropLast
  else place ++ [name]

/-- Where names lead from a place. Every name is followed from a directory only. -/
def follow (t : FileTree) : List String → List String → Option (List String)
  | place, [] => some place
  | place, name :: rest => if place ∈ t.directories then follow t (step place name) rest else none

/-- The octets of the longest path that is followed. -/
def longestPath : Nat := 4095

def look (t : FileTree) : Files := fun path =>
  if longestPath < path.utf8ByteSize then .missing
  else
    match t.follow [] (names path) with
    | none => .missing
    | some place =>
      match t.files.find? fun f => f.1 = place with
      | some f => .text f.2
      | none => if place ∈ t.directories then .unreadable else .missing

def passed : List String → List String → List (List String)
  | _, [] => []
  | place, name :: rest => place :: passed (step place name) rest

/-- Puts a text where a path leads, with the directories that this takes. -/
def write (t : FileTree) (path text : String) : FileTree where
  directories := t.directories ++ passed [] (names path)
  files := ((names path).foldl step [], text) :: t.files

end FileTree

end MeshFacts
