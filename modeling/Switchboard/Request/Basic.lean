import Switchboard.Request.Id

/-!
# Requests

A request is a text of some kind, with optional context from an editor and optional wishes
about how it is answered. A builder collects the parts of a request one by one.
-/

namespace Switchboard

/-- What a request asks for. -/
inductive RequestKind where
  | chat | command | analysis | refactor | debug | test
deriving Repr, DecidableEq

namespace RequestKind

/-- All kinds in their order. -/
def all : List RequestKind :=
  [chat, command, analysis, refactor, debug, test]

/-- The written form of a kind. -/
def name : RequestKind → String
  | chat => "chat"
  | command => "command"
  | analysis => "analysis"
  | refactor => "refactor"
  | debug => "debug"
  | test => "test"

theorem mem_all (k : RequestKind) : k ∈ all := by
  cases k <;> decide

/-- The kind of a text, without regard to case and outer white space. -/
def parse? (s : String) : Option RequestKind :=
  all.find? fun k => k.name = Text.lowercase (Text.trimmed s)

/-- What is said of a text that is no kind. -/
def unknownMessage (s : String) : String :=
  "Unknown request kind: " ++ s

/-- The written forms with their kinds. -/
def variants : List (String × RequestKind) :=
  all.map fun k => (k.name, k)

/-- Reads a kind in its exact written form. -/
def read : Json.Reader RequestKind :=
  Json.readVariant variants

end RequestKind

/-- Where in a workspace a request was made. -/
structure RequestContext where
  filePath : Option String := none
  selectionText : Option String := none
  workspaceRoot : Option String := none
  language : Option String := none
deriving DecidableEq

/-- Wishes about how a request is answered. -/
structure RequestOptions where
  preferredModel : Option String := none
  preferredProvider : Option String := none
  streaming : Bool := false
  timeoutMillis : Option Nat := none
deriving DecidableEq

/-- A request. -/
structure Request where
  id : RequestId
  kind : RequestKind
  content : String
  context : Option RequestContext := none
  options : Option RequestOptions := none
deriving DecidableEq

namespace Request

/-- The model asked for, if any. -/
def preferredModel (r : Request) : Option String :=
  r.options.bind (·.preferredModel)

/-- The provider asked for, if any. -/
def preferredProvider (r : Request) : Option String :=
  r.options.bind (·.preferredProvider)

/-- The time allowed for the model, if any is asked for. -/
def timeoutMillis (r : Request) : Option Nat :=
  r.options.bind (·.timeoutMillis)

/-- The directory tools work in, if one is given. -/
def workspaceRoot (r : Request) : Option String :=
  r.context.bind (·.workspaceRoot)

end Request

/-! ## Building requests -/

/-- A request in the making. -/
structure RequestBuilder where
  id : Option RequestId := none
  kind : RequestKind
  content : String
  context : Option RequestContext := none
  options : Option RequestOptions := none

namespace RequestBuilder

/-- Changes the context, beginning with an empty one. -/
def updateContext (b : RequestBuilder) (f : RequestContext → RequestContext) : RequestBuilder :=
  { b with context := some (f (b.context.getD {})) }

/-- Changes the options, beginning with empty ones. -/
def updateOptions (b : RequestBuilder) (f : RequestOptions → RequestOptions) : RequestBuilder :=
  { b with options := some (f (b.options.getD {})) }

/-- Sets the file the request is about. -/
def filePath (b : RequestBuilder) (path : String) : RequestBuilder :=
  b.updateContext fun c => { c with filePath := some path }

/-- Sets the directory tools work in. -/
def workspaceRoot (b : RequestBuilder) (path : String) : RequestBuilder :=
  b.updateContext fun c => { c with workspaceRoot := some path }

/-- Asks for a model. -/
def preferredModel (b : RequestBuilder) (model : String) : RequestBuilder :=
  b.updateOptions fun o => { o with preferredModel := some model }

/-- Asks for a provider. -/
def preferredProvider (b : RequestBuilder) (provider : String) : RequestBuilder :=
  b.updateOptions fun o => { o with preferredProvider := some provider }

/-- Sets the time allowed for the model. -/
def timeoutMillis (b : RequestBuilder) (millis : Nat) : RequestBuilder :=
  b.updateOptions fun o => { o with timeoutMillis := some millis }

/-- The request; `fresh` is its identifier if none was given. -/
def build (b : RequestBuilder) (fresh : RequestId) : Request :=
  ⟨b.id.getD fresh, b.kind, b.content, b.context, b.options⟩

end RequestBuilder

/-- The width of the numbers in requests and responses. -/
def wordBits : Nat := 64

namespace RequestContext

/-- The members of the context as a value. -/
def members (c : RequestContext) : List (String × Json) :=
  Json.optionalMember "file_path" .str c.filePath ++
    Json.optionalMember "selection_text" .str c.selectionText ++
    Json.optionalMember "workspace_root" .str c.workspaceRoot ++
    Json.optionalMember "language" .str c.language

/-- The context as a value. -/
def toJson (c : RequestContext) : Json :=
  .obj c.members

/-- Reads a context. -/
def read : Json.Reader RequestContext :=
  Json.readRecord (RequestContext.mk <$> Json.mayHave "file_path" Json.readString
    <*> Json.mayHave "selection_text" Json.readString
    <*> Json.mayHave "workspace_root" Json.readString
    <*> Json.mayHave "language" Json.readString)

end RequestContext

namespace RequestOptions

/-- The options as a value. -/
def toJson (o : RequestOptions) : Json :=
  .obj (Json.optionalMember "preferred_model" .str o.preferredModel ++
    Json.optionalMember "preferred_provider" .str o.preferredProvider ++
    [("streaming", .bool o.streaming)] ++
    Json.optionalMember "timeout_millis" Json.ofNat o.timeoutMillis)

/-- Reads options. -/
def read : Json.Reader RequestOptions :=
  Json.readRecord (RequestOptions.mk <$> Json.mayHave "preferred_model" Json.readString
    <*> Json.mayHave "preferred_provider" Json.readString
    <*> Json.orElse "streaming" false Json.readBool
    <*> Json.mayHave "timeout_millis" (Json.readNat wordBits))

end RequestOptions

namespace Request

/-- The request as a value. -/
def toJson (r : Request) : Json :=
  .obj ([("id", r.id.toJson), ("kind", .str r.kind.name), ("content", .str r.content)] ++
    Json.optionalMember "context" RequestContext.toJson r.context ++
    Json.optionalMember "options" RequestOptions.toJson r.options)

/-- Reads a request. -/
def read : Json.Reader Request :=
  Json.readRecord (Request.mk <$> Json.need "id" RequestId.read
    <*> Json.need "kind" RequestKind.read
    <*> Json.need "content" Json.readString
    <*> Json.mayHave "context" RequestContext.read
    <*> Json.mayHave "options" RequestOptions.read)

end Request

end Switchboard
