import Switchboard.Events.Channel
import Switchboard.Response

/-!
# Events

The life of a request is published as events: that it started, that its response is there,
and that it ended in some state. In JSON an event is one object that carries its name beside
its fields.
-/

namespace Switchboard

/-- A point in the life of a request. -/
inductive Event where
  | requestStarted (request : Request)
  | responseReceived (response : Response)
  | requestEnded (id : RequestId) (state : RequestState)

namespace Event

/-- The request an event is about. -/
def requestId : Event → RequestId
  | requestStarted r => r.id
  | responseReceived r => r.requestId
  | requestEnded id _ => id

/-- The name of an event. -/
def name : Event → String
  | requestStarted _ => "request_started"
  | responseReceived _ => "response_received"
  | requestEnded .. => "request_ended"

/-- The event as a value. -/
def toJson : Event → Json
  | requestStarted r => .obj [("type", .str "request_started"), ("request", r.toJson)]
  | responseReceived r => .obj [("type", .str "response_received"), ("response", r.toJson)]
  | requestEnded id s =>
    .obj [("type", .str "request_ended"), ("request_id", id.toJson), ("state", .str s.name)]

/-- The fields of the events, by name of the event. -/
def variants : List (String × Json.Fields Event) :=
  [("request_started", requestStarted <$> Json.need "request" Request.read),
    ("response_received", responseReceived <$> Json.need "response" Response.read),
    ("request_ended", requestEnded <$> Json.need "request_id" RequestId.read
      <*> Json.need "state" RequestState.read)]

/-- Reads the name of an event. -/
def readTag : Json.Reader (Json.Fields Event) := fun origin depth d => do
  Json.variantOfName variants (← Json.readString origin depth d)

/-- The fields of the event an object names, and its other members. Every other member has to
be a value, in the order of the text. -/
def readTagged (origin : Json.Origin) (depth : Json.Depth) (tag : Option (Json.Fields Event)) :
    List (Option String × Json.Draft) →
      Except Json.Fault (Option (Json.Fields Event) × List (Option String × Json.Draft))
  | [] => .ok (tag, [])
  | (none, _) :: _ => .error .malformed
  | (some k, d) :: rest =>
    if k = "type" then
      if tag.isSome then .error (.duplicateField k)
      else do
        let fields ← readTag origin depth d
        readTagged origin depth (some fields) rest
    else do
      let _ ← Json.readJson origin depth d
      let (tag, others) ← readTagged origin depth tag rest
      return (tag, (some k, d) :: others)

/-- Reads an event from an object, or from an array that begins with its name. The fields are
buffered until the name is known. -/
def read : Json.Reader Event := fun origin depth d =>
  match d with
  | .obj members ending => do
    let inner ← Json.enter depth
    let (tag, others) ← readTagged origin inner none members
    match ending, tag with
    | .closed, some fields => Json.readMembersAs fields .buffered none others .closed
    | .closed, none => .error (.missingField "type")
    | _, _ => .error .malformed
  | .arr [] true => .error (.missingField "type")
  | .arr [] false => .error .malformed
  | .arr (first :: items) closed => do
    let inner ← Json.enter depth
    let fields ← readTag origin inner first
    let _ ← Json.readAll Json.readJson origin inner items
    if closed then Json.readItemsAs fields .buffered none items true else .error .malformed
  | d => .error (Json.misfit d)

end Event

end Switchboard
