import Switchboard.Text

/-!
# Paths

A path is a text whose parts stand between slashes. Empty parts and the part `.` name the
directory they stand in, except that a relative path may begin with `.`.
-/

namespace Switchboard.Path

/-- A part of a path by its meaning. -/
inductive Component where
  | root
  | current
  | parent
  | normal (name : String)
deriving Repr, DecidableEq

/-- The texts between slashes. -/
def pieces (path : String) : List String :=
  (path.toList.splitOn '/').map String.ofList

/-- Whether the path begins at the root. -/
def isAbsolute (path : String) : Bool :=
  path.toList.head? = some '/'

/-- The meaning of a piece that is not the first. -/
def componentOf (piece : String) : Option Component :=
  if piece = "" ∨ piece = "." then none
  else if piece = ".." then some .parent
  else some (.normal piece)

/-- The components of a path. -/
def components (path : String) : List Component :=
  match pieces path with
  | [] => []
  | first :: rest =>
    (if isAbsolute path then [.root]
    else if first = "." then [.current]
    else (componentOf first).toList) ++ rest.filterMap componentOf

/-- The path `path` seen from `base`; an absolute path stands for itself. -/
def join (base path : String) : String :=
  if isAbsolute path then path
  else if base.toList.isEmpty || base.toList.getLast? = some '/' then base ++ path
  else base ++ "/" ++ path

/-- Pieces without the idle ones at the end; the first piece always stays. -/
def trimPieces : List String → List String
  | [] => []
  | first :: rest =>
    first :: (rest.reverse.dropWhile fun p => p = "" || p = ".").reverse

/-- The pieces before the name of the file, and that name. -/
def splitName (path : String) : Option (List String × String) :=
  let ps := trimPieces (pieces path)
  match ps.getLast? with
  | none => none
  | some name =>
    if name = "" ∨ name = "." ∨ name = ".." then none else some (ps.dropLast, name)

/-- The name of the file, if the path ends in one. -/
def fileName (path : String) : Option String :=
  (splitName path).map (·.2)

/-- A file name cut at its last point. A name without one, or with one only at its head, has no
extension. -/
def splitExtension (name : String) : String × Option String :=
  match name.toList.splitOn '.' with
  | [] => (name, none)
  | [_] => (name, none)
  | [[], _] => (name, none)
  | ps => (String.ofList (['.'].intercalate ps.dropLast), ps.getLast?.map String.ofList)

/-- The path without the extension of its file name, up to the point. -/
def dropExtension (path : String) : String :=
  match (fileName path).bind fun name => (splitExtension name).2 with
  | none => path
  | some ext => String.ofList (path.toList.take (path.toList.length - ext.toList.length))

/-- The path with another extension of its file name. A path that is left without a file name
once its extension is dropped stays so. -/
def withExtension (path extension : String) : String :=
  let bare := dropExtension path
  match splitName bare with
  | none => bare
  | some (before, name) =>
    "/".intercalate (before ++ [(splitExtension name).1 ++ "." ++ extension])

/-- The text of the pieces before the last component. -/
def directoryText (before : List String) : String :=
  match trimPieces before with
  | [] => ""
  | [""] => "/"
  | ps => "/".intercalate ps

/-- The path with another file name. -/
def withFileName (path name : String) : String :=
  match splitName path with
  | none => join path name
  | some (before, _) => join (directoryText before) name

end Switchboard.Path
