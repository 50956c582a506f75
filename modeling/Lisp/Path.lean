/-
# File paths

A path is kept in a normal form: repeated separators, components that stand for the folder itself
and a separator at the end are dropped. Two separators at the beginning, and no more, are kept as
two.

* `Path.root`, `Path.parts` : the two halves of a path;
* `Path.normalize` : the normal form;
* `Path.resolve` : the form without steps back up;
* `Path.isLongName`, `Path.isLong` : what is too long for a file.
-/

namespace Lisp.Path

/-- The separators that a path begins with, in normal form. -/
def root (path : List Char) : List Char :=
  match path with
  | '/' :: '/' :: '/' :: _ => ['/']
  | '/' :: '/' :: _ => ['/', '/']
  | '/' :: _ => ['/']
  | _ => []

/-- The pieces between separators, where `current` holds the piece begun, last character first. -/
def splitFrom (current : List Char) : List Char → List (List Char)
  | [] => [current.reverse]
  | c :: rest =>
    if c = '/' then current.reverse :: splitFrom [] rest else splitFrom (c :: current) rest

/-- The components of a path. -/
def parts (path : List Char) : List (List Char) :=
  (splitFrom [] path).filter fun part => part ≠ [] ∧ part ≠ ['.']

/-- The path of some components. -/
def join (parts : List (List Char)) : String :=
  String.ofList (['/'].intercalate parts)

/-- The normal form of a path; one without components is the folder itself. -/
def normalize (path : String) : String :=
  let cs := path.toList
  let text := root cs ++ ['/'].intercalate (parts cs)
  if text.isEmpty then "." else String.ofList text

/-- The path below the folder that a path leads to when each step up undoes the step before it. -/
def resolve (path : String) : String :=
  join ((parts path.toList).foldl
    (fun done part => if part = ['.', '.'] then done.dropLast else done ++ [part]) [])

/-! ## Length -/

/-- How many bytes a text takes. -/
def byteSize (text : List Char) : Nat :=
  text.foldl (fun size c => size + c.utf8Size) 0

/-- How many bytes a component may take. -/
def maxNameSize : Nat := 255

/-- How many bytes a path may take. -/
def maxSize : Nat := 4095

/-- How many bytes longer the name of a draft is, which has a dash, five digits and an ending behind
the name of its file. -/
def draftSuffixSize : Nat := 10

/-- Whether a component is too long for a file. -/
def isLongName (part : List Char) : Bool := maxNameSize < byteSize part

/-- Whether a path is too long for a file. -/
def isLong (path : String) : Bool := maxSize < byteSize path.toList

/-- Whether the draft of a file has a name that a file can have. -/
def hasRoomForDraft (path : String) : Bool :=
  let name := (parts path.toList).getLast?.getD []
  byteSize name + draftSuffixSize ≤ maxNameSize &&
    byteSize path.toList + draftSuffixSize ≤ maxSize

end Lisp.Path
