import Switchboard.Model.Basic
import Switchboard.Request.Basic
import Switchboard.Failure

/-!
# Choosing a model

The wanted names are the name asked for, if any, and the names preferred for the kind of
request. The first of them that some model matches decides: by the whole name before a part of
it, and a model of the provider asked for before others. If no name matches, any model of that
provider does, and at last any model at all.
-/

namespace Switchboard

/-- The names preferred for each kind of request. -/
structure SelectionPolicy where
  preferences : RequestKind → List String

namespace SelectionPolicy

/-- The preferences if none are given. -/
def default : SelectionPolicy where
  preferences
    | .chat => ["gpt-4o", "claude-3-5-sonnet", "gemini-pro", "codellama"]
    | .command => ["gpt-4o", "claude-3-5-sonnet", "codellama"]
    | .analysis => ["claude-3-5-sonnet", "gpt-4o", "gemini-pro"]
    | .refactor => ["claude-3-5-sonnet", "gpt-4o", "codellama"]
    | .debug => ["gpt-4o", "claude-3-5-sonnet", "codellama"]
    | .test => ["gpt-4o", "claude-3-5-sonnet", "codellama"]

/-- Replaces the names preferred for one kind. -/
def withPreferences (p : SelectionPolicy) (kind : RequestKind) (names : List String) :
    SelectionPolicy :=
  ⟨fun k => if k = kind then names else p.preferences k⟩

/-- The model has the wanted name. -/
def isExact (wanted : String) (m : ModelDescriptor) : Bool :=
  m.name = wanted

/-- The wanted name is a part of the name of the model, without regard to case. -/
def isSimilar (wanted : String) (m : ModelDescriptor) : Bool :=
  Text.occursIn (Unicode.lower wanted.toList) (Unicode.lower m.name.toList)

/-- The first of the models that satisfies `p`, those of the provider asked for before the
rest. -/
def findFrom (models : List ModelDescriptor) (provider : Option String)
    (p : ModelDescriptor → Bool) : Option ModelDescriptor :=
  (provider.bind fun name => models.find? fun m => m.providerName = name && p m).or
    (models.find? p)

/-- The model for a wanted name: one with that name before one with a similar name. -/
def findByName (models : List ModelDescriptor) (provider : Option String) (wanted : String) :
    Option ModelDescriptor :=
  (findFrom models provider (isExact wanted)).or (findFrom models provider (isSimilar wanted))

/-- The wanted names from the most to the least wanted. -/
def wantedNames (p : SelectionPolicy) (kind : RequestKind) (model : Option String) :
    List String :=
  model.toList ++ p.preferences kind

/-- The model for a request, if there are any models. -/
def select (p : SelectionPolicy) (models : List ModelDescriptor) (kind : RequestKind)
    (model provider : Option String) : Except RequestFailure ModelDescriptor :=
  match ((p.wantedNames kind model).findSome? (findByName models provider)).or
      (findFrom models provider fun _ => true) with
  | some m => .ok m
  | none => .error .noModels

end SelectionPolicy

end Switchboard
