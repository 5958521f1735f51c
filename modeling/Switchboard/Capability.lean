import Switchboard.Json.Reader

/-!
# Capabilities

A fixed vocabulary of tags that says what models and tools are good for, and non-empty sets of
such tags. Sets are shown in the order of the vocabulary.
-/

namespace Switchboard

/-- A tag of the vocabulary. -/
inductive Capability where
  | general | code | terminal | analysis | debug | test | refactor | file | search | network
  | documentation | chat
deriving Repr, DecidableEq

namespace Capability

/-- The vocabulary in its order. -/
def all : List Capability :=
  [general, code, terminal, analysis, debug, test, refactor, file, search, network,
    documentation, chat]

/-- The written form of a tag. -/
def name : Capability → String
  | general => "general"
  | code => "code"
  | terminal => "terminal"
  | analysis => "analysis"
  | debug => "debug"
  | test => "test"
  | refactor => "refactor"
  | file => "file"
  | search => "search"
  | network => "network"
  | documentation => "documentation"
  | chat => "chat"

/-- The tag of a text, without regard to case and outer white space. -/
def parse? (s : String) : Option Capability :=
  all.find? fun c => c.name = Text.lowercase (Text.trimmed s)

/-- What is said of a text that is no tag. -/
def unknownMessage (s : String) : String :=
  "Unknown capability tag: " ++ s

/-- The written forms with their tags. -/
def variants : List (String × Capability) :=
  all.map fun c => (c.name, c)

/-- Reads a tag in its exact written form. -/
def read : Json.Reader Capability :=
  Json.readVariant variants

end Capability

/-! ## Sets -/

/-- A non-empty set of tags, listed in the order of the vocabulary. -/
structure CapabilitySet where
  tags : List Capability
  ordered : tags = Capability.all.filter tags.contains
  nonempty : tags ≠ []
deriving DecidableEq

namespace CapabilitySet

theorem filter_contains_filter (l : List Capability) :
    Capability.all.filter l.contains =
      Capability.all.filter (Capability.all.filter l.contains).contains := by
  apply List.filter_congr
  intro c hc
  simp [List.contains_eq_mem, List.mem_filter, hc]

/-- The set of some tags, if there are any. -/
def ofList? (l : List Capability) : Option CapabilitySet :=
  if h : Capability.all.filter l.contains = [] then none
  else some ⟨Capability.all.filter l.contains, filter_contains_filter l, h⟩

/-- What is said of an empty set. -/
def emptyMessage : String :=
  "Capability set must contain at least one tag"

/-- The set of one tag. -/
def single (c : Capability) : CapabilitySet :=
  ⟨Capability.all.filter [c].contains, filter_contains_filter [c], by cases c <;> decide⟩

/-- The set of some tags, or of one other tag if there are none. -/
def ofListOr (fallback : Capability) (l : List Capability) : CapabilitySet :=
  (ofList? l).getD (single fallback)

/-- Whether the set holds a tag. -/
def contains (s : CapabilitySet) (c : Capability) : Bool :=
  s.tags.contains c

/-- Whether two sets share a tag. -/
def intersects (s t : CapabilitySet) : Bool :=
  s.tags.any t.contains

/-- The tags in braces. -/
def display (s : CapabilitySet) : String :=
  "\x7b" ++ ", ".intercalate (s.tags.map Capability.name) ++ "\x7d"

/-- Reads a set from a list of tags. -/
def read : Json.Reader CapabilitySet :=
  Json.readAs (Json.readList Capability.read) fun l =>
    match ofList? l with
    | some s => .ok s
    | none => .error emptyMessage

/-- The list of tags as a value. -/
def toJson (s : CapabilitySet) : Json :=
  Json.ofList (fun c : Capability => .str c.name) s.tags

end CapabilitySet

end Switchboard
