import Switchboard.FileSystem.Path

/-!
# File systems

A file system is a finite map from resolved paths (lists of names, root first) to files,
directories and symbolic links. A path text is resolved name by name: every name before the
last has to be a directory or a link to one, and links are followed a limited number of times.
-/

namespace Switchboard

/-- What a file holds: a text, or bytes that are no text. -/
inductive Contents where
  | text (s : String)
  | raw (bytes : List UInt8)

/-- What stands at a resolved path. -/
inductive Node where
  | file (contents : Contents)
  | directory
  | link (target : String)

/-- A resolved path. -/
abbrev Location := List String

/-- The nodes below the root, and the directory that relative paths begin at. -/
structure FileSystem where
  nodes : List (Location × Node)
  workingDirectory : Location

namespace FileSystem

/-- No files at all. -/
def empty : FileSystem := ⟨[], []⟩

/-- Why an operation on files fails. -/
inductive Fault where
  | notFound
  | exists
  | notDirectory
  | isDirectory
  | directoryNotEmpty
  | tooManyLinks
  | nameTooLong
  | busy
  | nulInName
  | notText
deriving Repr, DecidableEq

/-- The text of a fault, with the number of the operating system where it has one. -/
def Fault.message : Fault → String
  | .notFound => "No such file or directory (os error 2)"
  | .exists => "File exists (os error 17)"
  | .notDirectory => "Not a directory (os error 20)"
  | .isDirectory => "Is a directory (os error 21)"
  | .directoryNotEmpty => "Directory not empty (os error 39)"
  | .tooManyLinks => "Too many levels of symbolic links (os error 40)"
  | .nameTooLong => "File name too long (os error 36)"
  | .busy => "Device or resource busy (os error 16)"
  | .nulInName => "file name contained an unexpected NUL byte"
  | .notText => "stream did not contain valid UTF-8"

/-- The node at a location; the root is a directory. -/
def node? (fs : FileSystem) (l : Location) : Option Node :=
  if l = [] then some .directory else fs.nodes.lookup l

/-- Puts a node at a location, in place of the one that stands there. -/
def insert (fs : FileSystem) (l : Location) (n : Node) : FileSystem :=
  if fs.nodes.any fun m => m.1 = l then
    { fs with nodes := fs.nodes.map fun m => if m.1 = l then (l, n) else m }
  else { fs with nodes := fs.nodes ++ [(l, n)] }

/-- Takes away the node at a location. -/
def erase (fs : FileSystem) (l : Location) : FileSystem :=
  { fs with nodes := fs.nodes.filter fun m => m.1 != l }

/-- Whether `l` is a name in the directory `dir`. -/
def isIn (dir l : Location) : Bool :=
  l != [] && l.dropLast = dir

/-- The names in a directory with their nodes. -/
def entries (fs : FileSystem) (dir : Location) : List (String × Node) :=
  fs.nodes.filterMap fun m => if isIn dir m.1 then m.1.getLast?.map (·, m.2) else none

/-! ## Resolving paths -/

/-- Where a path leads: a node, or a free name in a directory. -/
inductive Target where
  | found (l : Location) (n : Node)
  | free (l : Location)

/-- How a walk ends: at a target, in a fault, or at a link that is to be followed, with the
directory it stands in and the names after it. -/
inductive Walk where
  | done (t : Target)
  | fault (f : Fault)
  | link (dir : Location) (target : String) (rest : List String)

/-- The longest name in bytes. -/
def maxNameLength : Nat := 255

/-- Walks from the directory `dir` along names without following links. A link at the end is
followed if `follow` is set. -/
def walk (fs : FileSystem) (follow : Bool) (dir : Location) : (names : List String) → Walk
  | [] => .done (.found dir .directory)
  | name :: rest =>
    if name = "" ∨ name = "." then walk fs follow dir rest
    else if name = ".." then walk fs follow dir.dropLast rest
    else if maxNameLength < name.utf8ByteSize then .fault .nameTooLong
    else
      let l := dir ++ [name]
      match fs.node? l with
      | none => if rest.isEmpty then .done (.free l) else .fault .notFound
      | some .directory => walk fs follow l rest
      | some (.link target) =>
        if rest.isEmpty && !follow then .done (.found l (.link target))
        else .link dir target rest
      | some (.file c) =>
        if rest.isEmpty then .done (.found l (.file c)) else .fault .notDirectory

/-- Where a path text begins. -/
def start (dir : Location) (path : String) : Location :=
  if Path.isAbsolute path then [] else dir

/-- The names of a path text, without the empty ones except at the end, where an empty name
asks for a directory. -/
def names (path : String) : List String :=
  let ps := Path.pieces path
  ps.dropLast.filter (· != "") ++ ps.getLast?.toList

/-- Follows at most `links` links. -/
def follow (fs : FileSystem) (last : Bool) :
    (links : Nat) → (dir : Location) → (names : List String) → Except Fault Target
  | 0, dir, names =>
    match fs.walk last dir names with
    | .done t => .ok t
    | .fault f => .error f
    | .link .. => .error .tooManyLinks
  | links + 1, dir, names =>
    match fs.walk last dir names with
    | .done t => .ok t
    | .fault f => .error f
    | .link dir target rest =>
      fs.follow last links (start dir target) (FileSystem.names target ++ rest)

/-- How many links one path may lead through. -/
def maxLinks : Nat := 40

/-- The longest path in bytes. -/
def maxPathLength : Nat := 4095

/-- Where a path text leads; a link at its end is followed if `last` is set. -/
def resolve (fs : FileSystem) (path : String) (last : Bool) : Except Fault Target :=
  if path.toList.contains (Char.ofNat 0) then .error .nulInName
  else if path = "" then .error .notFound
  else if maxPathLength < path.utf8ByteSize then .error .nameTooLong
  else fs.follow last maxLinks (start fs.workingDirectory path) (names path)

/-- The contents of a file. -/
def read (fs : FileSystem) (path : String) : Except Fault Contents := do
  match ← fs.resolve path true with
  | .found _ (.file c) => .ok c
  | .found _ _ => .error .isDirectory
  | .free _ => .error .notFound

/-- The text of a file. -/
def readText (fs : FileSystem) (path : String) : Except Fault String := do
  match ← fs.read path with
  | .text s => .ok s
  | .raw bytes =>
    match String.fromUTF8? (ByteArray.mk bytes.toArray) with
    | some s => .ok s
    | none => .error .notText

/-- The location of a directory. -/
def directory (fs : FileSystem) (path : String) : Except Fault Location := do
  match ← fs.resolve path true with
  | .found l .directory => .ok l
  | .found _ _ => .error .notDirectory
  | .free _ => .error .notFound

/-- The names in a directory with their nodes. -/
def list (fs : FileSystem) (path : String) : Except Fault (List (String × Node)) := do
  return fs.entries (← fs.directory path)

/-! ## Writing -/

/-- Whether a path text ends in a slash. -/
def asksForDirectory (path : String) : Bool :=
  path.toList.getLast? = some '/'

/-- Writes a file, in place of the one that stands there. -/
def write (fs : FileSystem) (path : String) (c : Contents) : Except Fault FileSystem := do
  match ← fs.resolve path true with
  | .found l (.file _) => .ok (fs.insert l (.file c))
  | .found _ _ => .error .isDirectory
  | .free l => .ok (fs.insert l (.file c))

/-- A path text without the slashes at its end, except for the root. -/
def withoutSlashes (path : String) : String :=
  match path.toList.reverse.dropWhile (· = '/') with
  | [] => path
  | cs => String.ofList cs.reverse

/-- Whether a path text ends in a part that names no entry of a directory. -/
def endsInDirectory (path : String) : Bool :=
  match (Path.pieces path).getLast? with
  | some name => name = "" || name = "." || name = ".."
  | none => false

/-- Gives the file or link at `source` the name `target`, in place of a file there. A name that
ends in a slash can only be that of a directory. -/
def rename (fs : FileSystem) (source target : String) : Except Fault FileSystem := do
  match ← fs.resolve source false with
  | .free _ => .error .notFound
  | .found _ .directory => .error .notDirectory
  | .found l n =>
    match ← fs.resolve (withoutSlashes target) false with
    | .found l' m =>
      if endsInDirectory (withoutSlashes target) then .error .busy
      else if asksForDirectory target then .error .notDirectory
      else match m with
        | .directory => .error .isDirectory
        | _ => if l = l' then .ok fs else .ok ((fs.erase l).insert l' n)
    | .free l' =>
      if asksForDirectory target then .error .notDirectory else .ok ((fs.erase l).insert l' n)

/-- Writes the contents of one file to another. -/
def copy (fs : FileSystem) (source target : String) : Except Fault FileSystem := do
  fs.write target (← fs.read source)

/-- Makes a directory. -/
def makeDirectory (fs : FileSystem) (path : String) : Except Fault FileSystem := do
  match ← fs.resolve path false with
  | .found .. => .error .exists
  | .free l => .ok (fs.insert l .directory)

/-- Takes away an empty directory. -/
def removeDirectory (fs : FileSystem) (path : String) : Except Fault FileSystem := do
  match ← fs.resolve path false with
  | .found l .directory =>
    if (fs.entries l).isEmpty then .ok (fs.erase l) else .error .directoryNotEmpty
  | .found _ _ => .error .notDirectory
  | .free _ => .error .notFound

/-- Takes away a file or a link. -/
def removeFile (fs : FileSystem) (path : String) : Except Fault FileSystem := do
  match ← fs.resolve path false with
  | .found _ .directory => .error .isDirectory
  | .found l _ => .ok (fs.erase l)
  | .free _ => .error .notFound

/-- The locations that lead to `l`, without the root and `l` itself. -/
def ancestors (l : Location) : List Location :=
  (List.range (l.length - 1)).map fun i => l.take (i + 1)

/-- Puts a node at a location, with the directories that lead there. -/
def plant (fs : FileSystem) (l : Location) (n : Node) : FileSystem :=
  ((ancestors l).foldl (fun fs a =>
    if (fs.node? a).isNone then fs.insert a .directory else fs) fs).insert l n

end FileSystem

end Switchboard
