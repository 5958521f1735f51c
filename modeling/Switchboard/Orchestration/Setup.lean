import Switchboard.Config.Basic
import Switchboard.Memory.Backend
import Switchboard.Model.Registry
import Switchboard.Orchestration.Prompt
import Switchboard.Tool.Registry

/-!
# Setups

What stays the same while requests are executed: the configuration and the providers and tools.
From them follow the model for a request, the tools that are run for it and in which context,
and how long the model may take.
-/

namespace Switchboard

/-- What stays the same while requests are executed. -/
structure Setup where
  config : Config
  models : ModelRegistry := {}
  tools : ToolRegistry := {}
  /-- The point in time of an instant. -/
  clock : Nat → Timestamp

namespace Setup

/-- The names preferred for each kind of request. -/
def policy (s : Setup) : SelectionPolicy :=
  ⟨fun k => (s.config.modelPreferences k).getD (SelectionPolicy.default.preferences k)⟩

/-- The model asked for: by the request, else by the configuration if the request asks for a
provider. -/
def wantedModel (s : Setup) (r : Request) : Option String :=
  r.preferredModel.or
    (r.preferredProvider.bind fun p => s.config.defaultModels.lookup p)

/-- The model for a request. -/
def selectModel (s : Setup) (r : Request) : Except RequestFailure ModelDescriptor :=
  s.models.select s.policy r.kind (s.wantedModel r) r.preferredProvider

/-- How long the model may take. -/
def callLimit (s : Setup) (r : Request) : Nat :=
  r.timeoutMillis.getD s.config.defaultTimeout

/-- The call of a model for a request. -/
def call (s : Setup) (r : Request) (m : ModelDescriptor) (known : Recollection) : ModelCall :=
  r.toCall (s.config.profiles.forKind r.kind) m known

/-- The tools, restricted to those the configuration enables. -/
def toolbox (s : Setup) : ToolRegistry :=
  match s.config.enabledTools with
  | some names => s.tools.withEnabled names
  | none => s.tools

/-- The tools that are run for a request. -/
def toolsFor (s : Setup) (r : Request) : List Tool :=
  s.toolbox.eligible r.kind

/-- The context in which tools are run for a request. -/
def toolContext (s : Setup) (r : Request) : ToolContext where
  requestId := r.id
  workspaceRoot := r.workspaceRoot
  workingDirectory := s.config.workingDirectory
  timeoutMillis := s.config.toolTimeout

/-- The arguments with which tools are run for a request. -/
def toolArguments (r : Request) : Json :=
  Json.ofMembers [("kind", .str r.kind.name), ("content", .str r.content),
    ("context", Json.ofOption (fun c => Json.ofMembers c.members) r.context)]

/-- What the memory has to say about a request; nothing where it cannot be read. -/
def recollect (s : Setup) (m : Memory) (r : Request) : Recollection where
  history := (m.history r.id).toOption.getD []
  knowledge :=
    (m.search r.content s.config.knowledgeLimit s.config.relevanceThreshold).toOption.getD []

end Setup

end Switchboard
