import Switchboard.Tool.Basic
import Switchboard.Json.Printer

/-!
# Listing the workspace

A tool that lists one directory of the workspace. Its path argument is taken from the base
directory and may not name the root or a parent. A listing holds files and directories apart,
each in order; links, pipes and the like are left out. A listing that is full before the
directory is exhausted is marked as truncated.
-/

namespace Switchboard.WorkspaceListing

/-- The path argument, if one is given. -/
def pathArgument (args : Json) : Except ToolFailure (Option String) :=
  match args.get? "path" with
  | none => .ok none
  | some .null => .ok none
  | some (.str s) => .ok (some s)
  | some j => .error (.invalidArguments ("'path' must be a string, got " ++ j.compact))

/-- Whether a component of a path leads away from the base directory. -/
def leadsAway : Path.Component → Bool
  | .root => true
  | .parent => true
  | _ => false

/-- The path of the directory to list. -/
def resolve (base : String) (relative : Option String) : Except ToolFailure String :=
  match relative with
  | none => .ok base
  | some r =>
    if (Path.components r).any leadsAway then
      .error (.invalidArguments ("path '" ++ r ++ "' escapes the workspace"))
    else .ok (Path.join base r)

/-! ## The listing -/

/-- How many names a listing holds. -/
def maxEntries : Nat := 200

/-- The names in a directory. -/
structure Listing where
  files : List String := []
  directories : List String := []
  truncated : Bool := false
deriving DecidableEq

/-- What stands under a name in a directory: a regular file, a directory, or neither, as a link
or a pipe. -/
inductive EntryKind where
  | file
  | directory
  | other
deriving DecidableEq

/-- An entry of a directory. -/
structure Entry where
  name : String
  kind : EntryKind
deriving DecidableEq

/-- The entry of a node. -/
def Entry.ofNode (name : String) : Node → Entry
  | .file _ => ⟨name, .file⟩
  | .directory => ⟨name, .directory⟩
  | .link _ => ⟨name, .other⟩

/-- Adds entries of a directory in the order they come, until the listing is full. -/
def collect (l : Listing) : List Entry → Listing
  | [] => l
  | e :: rest =>
    if maxEntries ≤ l.files.length + l.directories.length then { l with truncated := true }
    else match e.kind with
      | .file => collect { l with files := l.files ++ [e.name] } rest
      | .directory => collect { l with directories := l.directories ++ [e.name] } rest
      | .other => collect l rest

/-- The names in order. -/
def Listing.sorted (l : Listing) : Listing :=
  { l with files := Text.sortStrings l.files, directories := Text.sortStrings l.directories }

/-- The listing of a directory whose entries come in this order. -/
def Listing.ofDirectory (entries : List Entry) : Listing :=
  (collect {} entries).sorted

/-- The listing of nodes with their names. -/
def ofEntries (nodes : List (String × Node)) : Listing :=
  .ofDirectory (nodes.map fun n => .ofNode n.1 n.2)

/-- A listing as a value. -/
def Listing.toJson (path : String) (l : Listing) : Json :=
  Json.ofMembers [("path", .str path), ("files", Json.ofList .str l.files),
    ("directories", Json.ofList .str l.directories), ("truncated", .bool l.truncated)]

/-- The path and the listing that the arguments ask for, where `read` returns the entries of the
directory at a path. -/
def listWith (read : String → Except FileSystem.Fault (List Entry)) (base : String) (args : Json) :
    Except ToolFailure (String × Listing) := do
  let path ← resolve base (← pathArgument args)
  match read path with
  | .ok entries => return (path, .ofDirectory entries)
  | .error f =>
    .error (.execution ("Failed to list directory '" ++ path ++ "': " ++ f.message))

/-- The entries of the directory at a path. -/
def readDirectory (fs : FileSystem) (path : String) : Except FileSystem.Fault (List Entry) :=
  (fs.list path).map fun nodes => nodes.map fun n => .ofNode n.1 n.2

/-- The path and the listing that the arguments ask for. -/
def list (fs : FileSystem) (base : String) (args : Json) : Except ToolFailure (String × Listing) :=
  listWith (readDirectory fs) base args

/-- The name of the tool. -/
def toolName : String := "workspace_list"

/-- The description of the tool. -/
def descriptor : ToolDescriptor where
  name := toolName
  description := "List files and directories in the workspace"
  parameters := .obj [("properties", .obj [("path", .obj [("type", .str "string")])]),
    ("type", .str "object")]
  capabilities := .ofListOr .file [.file, .code, .analysis, .general]

/-- The tool. -/
def tool : Tool where
  descriptor := descriptor
  run fs ctx args :=
    match list fs ctx.base args with
    | .ok r => .value (r.2.toJson r.1)
    | .error f => .failure f

end Switchboard.WorkspaceListing
