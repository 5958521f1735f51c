import Switchboard.Config.Profile
import Switchboard.Memory.Knowledge
import Switchboard.Model.Basic

/-!
# Prompts

A model is called with one message of the system, then the history of the conversation, then
one message of the user. The first is the prompt of the profile, the file and language the
request is about, and a line for every piece of knowledge that may help; the last is the text
of the request and the code selected in the editor.
-/

namespace Switchboard

/-- What the memory has to say about a request. -/
structure Recollection where
  history : List ConversationEntry := []
  knowledge : List KnowledgeSnippet := []

namespace Prompt

/-- The file and the language a request is about. -/
def placeText : Option RequestContext → String
  | none => ""
  | some c =>
    (c.filePath.elim "" fun path => "\n\nCurrent file: " ++ path) ++
      (c.language.elim "" fun language => "\nLanguage: " ++ language)

/-- The line of a piece of knowledge. -/
def snippetLine (k : KnowledgeSnippet) : String :=
  "\n- [" ++ k.source ++ "] " ++ k.content

/-- The knowledge that may help. -/
def knowledgeText (l : List KnowledgeSnippet) : String :=
  if l.isEmpty then "" else "\n\nRelevant context:" ++ String.join (l.map snippetLine)

/-- What opens and closes a block of code. -/
def fence : String := "\x60\x60\x60"

/-- The code selected in the editor. -/
def selectionText (r : Request) : String :=
  (r.context.bind (·.selectionText)).elim "" fun code =>
    "\n\nSelected code:\n" ++ fence ++ "\n" ++ code ++ "\n" ++ fence

/-- The message of the system. -/
def system (p : Profile) (r : Request) (knowledge : List KnowledgeSnippet) : String :=
  p.systemPrompt ++ placeText r.context ++ knowledgeText knowledge

/-- The message of the user. -/
def user (r : Request) : String :=
  r.content ++ selectionText r

end Prompt

namespace Request

/-- The messages for a model. -/
def messages (r : Request) (p : Profile) (known : Recollection) : List ChatMessage :=
  [⟨.system, Prompt.system p r known.knowledge⟩] ++ known.history.map ChatMessage.ofEntry ++
    [⟨.user, Prompt.user r⟩]

/-- The call of a model for a request. -/
def toCall (r : Request) (p : Profile) (m : ModelDescriptor) (known : Recollection) :
    ModelCall where
  model := m.name
  messages := r.messages p known
  temperature := p.temperature
  maxTokens := p.maxTokens
  streaming := r.options.elim false (·.streaming)

end Request

end Switchboard
