import Switchboard.CommandLine.Invocation
import Switchboard.Config.Step
import Switchboard.Orchestration.Schedule
import Switchboard.Tool.WorkspaceListing

/-!
# The program

An invocation is carried out with the demonstration provider and the tool that lists the
workspace. The configuration comes from the environment and a file, the memory is kept in a
file or lost. The outcome is a value for the output, events, the text of a failure, and the
files that are left.
-/

namespace Switchboard.CommandLine

/-- What the program finds when it is invoked. -/
structure Surroundings where
  environment : Environment
  files : FileSystem
  /-- The path of the working directory. -/
  directory : String
  now : Timestamp
  /-- An identifier for a request that has none. -/
  fresh : RequestId

/-- Why an invocation fails. -/
inductive Fault where
  | config (f : ConfigFault)
  | requestId (f : RequestId.Fault)
  | memory (f : MemoryFailure)
  | request (f : RequestFailure)

/-- The text of a fault. -/
def Fault.message : Fault → String
  | .config f => f.message
  | .requestId f => "Invalid request id: " ++ f.message
  | .memory f => f.message
  | .request f => f.message

/-- What comes of an invocation. -/
structure Outcome where
  exitCode : Nat := 0
  output : Option Json := none
  events : List Event := []
  error : Option String := none
  files : FileSystem

namespace Outcome

/-- A failure. -/
def failed (files : FileSystem) (f : Fault) : Outcome :=
  { exitCode := 1, error := some f.message, files }

/-- The program breaks off without a word of its own. -/
def brokenOff (files : FileSystem) : Outcome :=
  { exitCode := 101, files }

/-- A value for the output. -/
def printed (files : FileSystem) (j : Json) : Outcome :=
  { output := some j, files }

end Outcome

/-- The configuration of the environment, changed by the file if one is named. -/
def Invocation.loadConfig (i : Invocation) (s : Surroundings) : Except ConfigFault Config :=
  Config.ofSteps s.files s.directory
    (.environment s.environment :: (i.config.map ConfigStep.file).toList)

/-- The memory in the file, if one is named. -/
def Invocation.openMemory (i : Invocation) (s : Surroundings) :
    Except MemoryFailure (Memory × FileSystem) :=
  match i.memory with
  | some path => (FileStore.openAt s.files path s.now).map fun r => (.filed r.1, r.2)
  | none => .ok (.transient {}, s.files)

/-- The providers of the program. -/
def models : ModelRegistry where
  providers := [Demo.provider]

/-- The tools of the program. -/
def tools : ToolRegistry where
  tools := [WorkspaceListing.tool]

/-- What executions of the program have in common. -/
def setup (config : Config) (s : Surroundings) : Setup where
  config := config
  models := models
  tools := tools
  clock _ := s.now

/-- The paths an invocation may read or write, apart from the configuration. -/
def Invocation.paths (i : Invocation) (config : Config) : List String :=
  let memory := i.memory.toList.flatMap fun path => [path, FileStore.draftPath path]
  match i.command with
  | .run a => memory ++ [a.workspace.getD config.workingDirectory]
  | _ => memory

/-- The request of an invocation. -/
def RunArguments.request (a : RunArguments) (fresh : RequestId) :
    Except RequestId.Fault Request := do
  return {
    id := (← a.id.mapM RequestId.parse).getD fresh
    kind := a.kind
    content := a.content
    context := some { filePath := a.file, workspaceRoot := a.workspace }
    options :=
      if a.model.isNone && a.provider.isNone && a.timeoutMillis.isNone then none
      else some {
        preferredModel := a.model, preferredProvider := a.provider
        timeoutMillis := a.timeoutMillis } }

/-- Executes a request. Without room for its events the program breaks off. -/
def execute (s : Surroundings) (config : Config) (memory : Memory) (files : FileSystem)
    (a : RunArguments) : Outcome :=
  match a.request s.fresh with
  | .error f => .failed files (.requestId f)
  | .ok r =>
    match Orchestrator.new? (setup config s) memory files with
    | none => .brokenOff files
    | some orchestrator =>
      match orchestrator.execute r with
      | (.error f, o) => .failed o.board.files (.request f)
      | (.ok response, o) => {
          output := response.map Response.toJson
          events := if a.printsEvents then o.channel.heardFrom 0 else []
          files := o.board.files }

/-- The descriptions of all tools, or of those that are run for requests of a kind. -/
def listTools (config : Config) (s : Surroundings) (kind : Option RequestKind) :
    List ToolDescriptor :=
  let registry := (setup config s).toolbox
  match kind with
  | some kind => (registry.eligible kind).map (·.descriptor)
  | none => registry.descriptors

/-- Adds texts to the knowledge until one cannot be kept. -/
def addAll (now : Timestamp) (memory : Memory) (files : FileSystem) :
    List String → Except MemoryFailure Unit × Memory × FileSystem
  | [] => (.ok (), memory, files)
  | text :: rest =>
    match memory.update files now (.add text "cli") with
    | (.ok (), memory, files) => addAll now memory files rest
    | failed => failed

/-- Searches the knowledge after adding to it. -/
def search (s : Surroundings) (config : Config) (memory : Memory) (files : FileSystem)
    (query : String) (limit : Nat) (threshold : Option Float) (additions : List String) :
    Outcome :=
  match addAll s.now memory files additions with
  | (.error f, _, files) => .failed files (.memory f)
  | (.ok (), memory, files) =>
    match memory.search query limit (threshold.getD config.relevanceThreshold) with
    | .error f => .failed files (.memory f)
    | .ok found => .printed files (Json.ofList KnowledgeSnippet.toJson found)

/-- Carries out a command. -/
def Command.perform (s : Surroundings) (config : Config) (memory : Memory) (files : FileSystem) :
    Command → Outcome
  | run a => execute s config memory files a
  | models => .printed files (Json.ofList ModelDescriptor.toJson CommandLine.models.offered)
  | tools kind =>
    .printed files (Json.ofList ToolDescriptor.toJson (listTools config s kind))
  | search query limit threshold additions =>
    CommandLine.search s config memory files query limit threshold additions

/-! ## The whole program -/

/-- Carries out an invocation. -/
def Invocation.perform (i : Invocation) (s : Surroundings) : Outcome :=
  match i.loadConfig s with
  | .error f => .failed s.files (.config f)
  | .ok config =>
    match i.openMemory s with
    | .error f => .failed s.files (.memory f)
    | .ok (memory, files) => i.command.perform s config memory files

/-- The exit code of a program that does not carry out its arguments. -/
def Stop.exitCode : Stop → Nat
  | information => 0
  | misuse => 2

/-- The program. -/
def program (arguments : List String) (s : Surroundings) : Outcome :=
  match Invocation.read arguments with
  | .ok i => i.perform s
  | .error stop => { exitCode := stop.exitCode, files := s.files }

end Switchboard.CommandLine
