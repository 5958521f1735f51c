import Std.Time.DateTime.Timestamp
import Switchboard.CommandLine.Program
import Switchboard.Request.Fresh

/-!
# The executable

What an invocation may look at is read before it is carried out, and the files it has changed
are written afterwards.
-/

namespace Switchboard.Main

/-- The locations on the way of a path. -/
def way (dir : Location) (path : String) : List Location :=
  let step (l : Location) (piece : String) : Location :=
    if piece = "" || piece = "." then l
    else if piece = ".." then l.dropLast
    else l ++ [piece]
  let pieces := Path.pieces path
  (List.range (pieces.length + 1)).map fun n =>
    (pieces.take n).foldl step (FileSystem.start dir path)

/-- The absolute path of a location. -/
def pathOf (l : Location) : String :=
  "/" ++ "/".intercalate l

/-- The bytes of contents. -/
def bytesOf : Contents → List UInt8
  | .text s => s.toUTF8.toList
  | .raw bytes => bytes

/-- Adds what stands at a location. -/
def survey (files : FileSystem) (l : Location) : IO FileSystem := do
  let path := (← IO.currentDir) / pathOf l
  if ← path.isDir then
    return if l = [] then files else files.insert l .directory
  else if ← path.pathExists then
    return files.insert l (.file (.raw (← IO.FS.readBinFile path).toList))
  else return files

/-- Adds the names in the directory at a location. -/
def surveyEntries (files : FileSystem) (l : Location) : IO FileSystem := do
  let path := (← IO.currentDir) / pathOf l
  if !(← path.isDir) then return files
  (← path.readDir).foldlM (fun files entry => do
    let node : Node := match (← entry.path.symlinkMetadata).type with
      | .dir => .directory
      | .file => .file (.text "")
      | _ => .link ""
    return files.insert (l ++ [entry.fileName]) node) files

/-- Adds what a path leads to. -/
def surveyPath (files : FileSystem) (path : String) : IO FileSystem := do
  let locations := way files.workingDirectory path
  let files ← match locations.getLast? with
    | some l => surveyEntries files l
    | none => pure files
  locations.foldlM survey files

/-- Writes the files that have changed, each beside its place and then into it. -/
def writeBack (before after : FileSystem) : IO Unit :=
  after.nodes.forM fun (l, node) => do
    let old := match before.node? l with
      | some (.file c) => some (bytesOf c)
      | _ => none
    match node with
    | .file c =>
      if old != some (bytesOf c) then
        let draft := FileStore.draftPath (pathOf l)
        IO.FS.writeBinFile draft (ByteArray.mk (bytesOf c).toArray)
        IO.FS.rename draft (pathOf l)
    | _ => pure ()

/-! ## Surroundings -/

/-- The variables that are set. -/
def environment : IO Environment := do
  let found ← Config.variableNames.mapM fun name => do
    return (← IO.getEnv name).map fun value => (name, value)
  return Keyed.insertAll (found.filterMap id) []

/-- The current time. -/
def now : IO Timestamp := do
  let nanos := (← Std.Time.Timestamp.now).toNanosecondsSinceUnixEpoch.toInt
  return .ofUnix (nanos / 1000000000) (nanos % 1000000000).toNat

/-- An identifier that nothing else has. -/
def fresh : IO RequestId := do
  match RequestId.ofRandomBytes (← IO.getRandomBytes 16).toList with
  | .ok id => return id
  | .error f => throw (.userError f.message)

/-- What an invocation finds. -/
def surroundings (i : CommandLine.Invocation) : IO CommandLine.Surroundings := do
  let directory := (← IO.currentDir).toString
  let files : FileSystem := { nodes := [], workingDirectory := (Path.pieces directory).drop 1 }
  let files ← (directory :: i.config.toList).foldlM surveyPath files
  let found : CommandLine.Surroundings :=
    { environment := ← environment, files, directory, now := ← now, fresh := ← fresh }
  match i.loadConfig found with
  | .ok config => return { found with files := ← (i.paths config).foldlM surveyPath files }
  | .error _ => return found

/-- Prints an outcome and writes what has changed. -/
def report (before : FileSystem) (o : CommandLine.Outcome) : IO Unit := do
  writeBack before o.files
  for e in o.events do
    IO.eprintln e.toJson.compact
  if let some j := o.output then IO.println j.pretty
  if let some message := o.error then IO.eprintln ("Command failed: " ++ message)

end Switchboard.Main

/-- Carries out the arguments of the program. -/
def main (arguments : List String) : IO UInt32 := do
  match Switchboard.CommandLine.Invocation.read arguments with
  | .ok i =>
    let found ← Switchboard.Main.surroundings i
    let outcome := i.perform found
    Switchboard.Main.report found.files outcome
    return outcome.exitCode.toUInt32
  | .error stop =>
    match stop with
    | .information => IO.println Switchboard.CommandLine.usage
    | .misuse => IO.eprintln Switchboard.CommandLine.usage
    return stop.exitCode.toUInt32
