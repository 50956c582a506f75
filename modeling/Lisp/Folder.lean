/-
# The working folder

The history file is looked for in the folder that the program was started in.

* `Folder` : the files and folders in it;
* `Folder.locate` : what stands at a path;
* `Folder.load`, `Folder.save` : reading and writing the history file.
-/
import Lisp.History
import Lisp.Path

namespace Lisp

/-- The files of a folder with their texts, and its folders, all by their paths from it. -/
structure Folder where
  files : List (String × String)
  folders : List String

/-- Why a file cannot be read or written. -/
inductive FileError where
  | missing
  | notAFolder
  | isAFolder
  | unsuitable
  | longName
  deriving DecidableEq, Repr

/-- The wording of a file error. -/
def FileError.message : FileError → String
  | missing => "[Errno 2] No such file or directory"
  | notAFolder => "[Errno 20] Not a directory"
  | isAFolder => "[Errno 21] Is a directory"
  | unsuitable => "[Errno 22] Invalid argument"
  | longName => "[Errno 36] File name too long"

/-- What stands at a path: a file with its text, a folder, the device that takes everything and
holds nothing, or nothing. Nothing stands at a place in the folder, at one elsewhere, below a folder
that does not exist, below a file, or at a name that no file can have. -/
inductive Place where
  | file (path text : String)
  | folder
  | device
  | absent (path : String)
  | elsewhere
  | unreachable
  | blocked
  | longName
  deriving DecidableEq, Repr

namespace Folder

/-- The components of a path. -/
abbrev Components := List (List Char)

/-- The folder with some files and folders, whose paths may be written in any form. -/
def ofListing (files : List (String × String)) (folders : List String) : Folder where
  files := files.map fun (path, text) => (Path.resolve path, text)
  folders := folders.map Path.resolve

/-- Whether some components lead to a folder: one of the folders, or one that holds something. -/
def isFolder (F : Folder) (path : Components) : Bool :=
  F.folders.any (fun p => path.isPrefixOf (Path.parts p.toList)) ||
    F.files.any fun (p, _) => path.isPrefixOf (Path.parts p.toList).dropLast

/-- The file that some components lead to. -/
def file? (F : Folder) (path : Components) : Option (String × String) :=
  F.files.find? fun (p, _) => Path.parts p.toList = path

/-! ## Places -/

/-- The null device, as components from the root. -/
def nullDevice : Components := [['d', 'e', 'v'], ['n', 'u', 'l', 'l']]

/-- The folders that are known to be at the root. -/
def rootFolders : List Components := [[['d', 'e', 'v']], [['t', 'm', 'p']]]

/-- What stands at some components from `here`, a folder that is not in the working folder. What
`isKnown` does not hold of is no folder. -/
def walkOutside (isKnown : Components → Bool) : (here : Components) → Components → Place
  | _, [] => .folder
  | here, part :: rest =>
    let next := here ++ [part]
    if part = ['.', '.'] then walkOutside isKnown here.dropLast rest
    else if Path.isLongName part then .longName
    else if isKnown next then walkOutside isKnown next rest
    else if rest.isEmpty then .elsewhere
    else .unreachable

/-- What stands at some components from `here`, a folder in the working folder. -/
def walk (F : Folder) : (here : Components) → Components → Place
  | _, [] => .folder
  | here, part :: rest =>
    let next := here ++ [part]
    if part = ['.', '.'] then
      if here.isEmpty then walkOutside (fun _ => false) [] rest else walk F here.dropLast rest
    else if Path.isLongName part then .longName
    else if F.isFolder next then walk F next rest
    else
      match F.file? next with
      | some (path, text) => if rest.isEmpty then .file path text else .blocked
      | none => if rest.isEmpty then .absent (Path.join next) else .unreachable

/-- What stands at a path. -/
def locate (F : Folder) (path : String) : Place :=
  let parts := Path.parts path.toList
  if Path.isLong path then .longName
  else if (Path.root path.toList).isEmpty then F.walk [] parts
  else if parts = nullDevice then .device
  else walkOutside (fun p => rootFolders.contains p) [] parts

/-! ## The history file -/

/-- What comes of reading the history file. -/
inductive LoadResult where
  | loaded (entries : List (List Char))
  | noHistory
  | failed (reason : String)

/-- The entries that were read. -/
def LoadResult.entries : LoadResult → List (List Char)
  | loaded entries => entries
  | _ => []

/-- Reading the history file. -/
def load (F : Folder) (path : String) : LoadResult :=
  match F.locate path with
  | .file _ text => .loaded (History.entries text.toList)
  | .folder | .device => .failed FileError.unsuitable.message
  | .blocked => .failed FileError.notAFolder.message
  | .longName => .failed FileError.longName.message
  | .absent _ | .elsewhere | .unreachable => .noHistory

/-- The folder in which a file that is there holds another text. -/
def replace (F : Folder) (path text : String) : Folder :=
  { F with files := F.files.map fun (p, old) => if p = path then (p, text) else (p, old) }

/-- The folder with one more file. -/
def create (F : Folder) (path text : String) : Folder :=
  { F with files := F.files ++ [(path, text)] }

/-- Writing some entries to the history file. A file that is there gives way to a draft, whose
longer name must be one that a file can have. -/
def save (F : Folder) (path : String) (entries : List (List Char)) : Except FileError Folder :=
  let text := String.ofList (History.text entries)
  match F.locate path with
  | .file name _ =>
    if Path.hasRoomForDraft path then .ok (F.replace name text) else .error .longName
  | .absent name => .ok (F.create name text)
  | .device | .elsewhere => .ok F
  | .folder => .error .isAFolder
  | .blocked => .error .notAFolder
  | .unreachable => .error .missing
  | .longName => .error .longName

end Folder

end Lisp
