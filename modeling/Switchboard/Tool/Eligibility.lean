import Switchboard.Capability
import Switchboard.Request.Basic

/-!
# Eligibility

For each kind of request there is a set of tags, and a tool is eligible if it has one of them.
-/

namespace Switchboard

/-- The tags of which an eligible tool has one. -/
structure EligibilityTable where
  required : RequestKind → CapabilitySet

namespace EligibilityTable

/-- The tags for each kind if none are given. -/
def defaultTags : RequestKind → List Capability
  | .chat => [.general, .chat, .search]
  | .command => [.terminal, .file, .general]
  | .analysis => [.analysis, .code, .search, .general]
  | .refactor => [.refactor, .code, .file, .analysis]
  | .debug => [.debug, .code, .terminal, .analysis, .general]
  | .test => [.test, .code, .terminal, .general]

/-- The table if none is given. -/
def default : EligibilityTable where
  required k := .ofListOr .general (defaultTags k)

/-- Replaces the tags for one kind. -/
def withKind (t : EligibilityTable) (kind : RequestKind) (tags : CapabilitySet) :
    EligibilityTable :=
  ⟨fun k => if k = kind then tags else t.required k⟩

/-- Whether a tool with these tags is eligible. -/
def isEligible (t : EligibilityTable) (kind : RequestKind) (tags : CapabilitySet) : Bool :=
  (t.required kind).intersects tags

end EligibilityTable

end Switchboard
