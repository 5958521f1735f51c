import Switchboard.Config.Environment
import Switchboard.Config.Options
import Switchboard.Config.File

/-!
# Building configurations

A configuration is built by steps in any order. The environment begins anew from the defaults;
every other step goes on from what is there.
-/

namespace Switchboard

/-- A step on the way to a configuration. -/
inductive ConfigStep where
  | environment (vars : Environment)
  | options (options : List (String × Json))
  | toml (text : String)
  | file (path : String)
  | defaultTimeout (millis : Nat)
  | toolTimeout (millis : Nat)
  | persistTimeout (millis : Nat)
  | enabledTools (names : List String)
  | defaultModel (provider model : String)
  | knowledgeLimit (n : Nat)
  | relevanceThreshold (x : Float)
  | workingDirectory (path : String)
  | eventCapacity (n : Nat)
  | profiles (t : ProfileTable)
  | modelPreferences (kind : RequestKind) (names : List String)

namespace ConfigStep

/-- The configuration after a step. Relative paths and the default directory are those of
`directory`. -/
def apply (fs : FileSystem) (directory : String) (c : Config) :
    ConfigStep → Except ConfigFault Config
  | environment vars => Config.withEnvironment { workingDirectory := directory } vars
  | options l => c.withOptions l
  | toml text => c.withToml text
  | file path => c.loadFile fs path
  | defaultTimeout n => .ok { c with defaultTimeout := n }
  | toolTimeout n => .ok { c with toolTimeout := n }
  | persistTimeout n => .ok { c with persistTimeout := n }
  | enabledTools l => .ok { c with enabledTools := some l }
  | defaultModel provider model => .ok (c.withDefaultModel provider model)
  | knowledgeLimit n => .ok { c with knowledgeLimit := n }
  | relevanceThreshold x => .ok { c with relevanceThreshold := x }
  | workingDirectory s => .ok { c with workingDirectory := s }
  | eventCapacity n => .ok { c with eventCapacity := n }
  | profiles t => .ok { c with profiles := t }
  | modelPreferences k names => .ok (c.withPreferences k names)

end ConfigStep

/-- The configuration of some steps. -/
def Config.ofSteps (fs : FileSystem) (directory : String) (steps : List ConfigStep) :
    Except ConfigFault Config := do
  (← steps.foldlM (ConfigStep.apply fs directory) { workingDirectory := directory }).build

end Switchboard
