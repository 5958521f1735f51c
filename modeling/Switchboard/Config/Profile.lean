import Switchboard.Json.Reader
import Switchboard.Request.Basic

/-!
# Profiles

A profile says how a model is asked: under which prompt, how freely it may answer, and at what
length. There is one for each kind of request; an override replaces the parts it names.
-/

namespace Switchboard

/-- How a model is asked. -/
structure Profile where
  systemPrompt : String
  temperature : Float32
  maxTokens : Nat

/-- The parts of a profile to replace. -/
structure ProfileOverride where
  systemPrompt : Option String := none
  temperature : Option Float32 := none
  maxTokens : Option Nat := none

namespace Profile

/-- A profile for any request. -/
def default : Profile :=
  ⟨"You are a helpful software engineering assistant.", 0.7, 2048⟩

/-- The profile with some parts replaced. -/
def override (p : Profile) (o : ProfileOverride) : Profile :=
  ⟨o.systemPrompt.getD p.systemPrompt, o.temperature.getD p.temperature,
    o.maxTokens.getD p.maxTokens⟩

/-- The profile as a value. -/
def toJson (p : Profile) : Json :=
  .obj [("system_prompt", .str p.systemPrompt), ("temperature", Json.ofFloat32 p.temperature),
    ("max_tokens", Json.ofNat p.maxTokens)]

/-- Reads a profile. -/
def read : Json.Reader Profile :=
  Json.readRecord (Profile.mk <$> Json.need "system_prompt" Json.readString
    <*> Json.need "temperature" Json.readFloat32
    <*> Json.need "max_tokens" (Json.readNat 32))

end Profile

namespace ProfileOverride

/-- The override as a value; a part that stays is null. -/
def toJson (o : ProfileOverride) : Json :=
  .obj [("system_prompt", Json.ofOption .str o.systemPrompt),
    ("temperature", Json.ofOption Json.ofFloat32 o.temperature),
    ("max_tokens", Json.ofOption Json.ofNat o.maxTokens)]

/-- Reads an override. -/
def read : Json.Reader ProfileOverride :=
  Json.readRecord (ProfileOverride.mk <$> Json.mayHave "system_prompt" Json.readString
    <*> Json.mayHave "temperature" Json.readFloat32
    <*> Json.mayHave "max_tokens" (Json.readNat 32))

end ProfileOverride

/-- The profile of each kind of request. -/
structure ProfileTable where
  forKind : RequestKind → Profile

namespace ProfileTable

/-- The profiles if none are given. -/
def default : ProfileTable where
  forKind
    | .chat =>
      ⟨"You are a helpful software engineering assistant. Answer clearly and concisely.", 0.7,
        2048⟩
    | .command =>
      ⟨"You turn requests into precise terminal commands and explain what they do.", 0.2, 1024⟩
    | .analysis =>
      ⟨"You analyze code for structure, quality and potential problems.", 0.3, 4096⟩
    | .refactor =>
      ⟨"You refactor code while preserving its behaviour. Show the changed code.", 0.2, 4096⟩
    | .debug =>
      ⟨"You diagnose bugs from code and error output and propose minimal fixes.", 0.1, 2048⟩
    | .test => ⟨"You write focused, deterministic tests that cover edge cases.", 0.3, 4096⟩

/-- Replaces parts of the profile of one kind. -/
def override (t : ProfileTable) (kind : RequestKind) (o : ProfileOverride) : ProfileTable :=
  ⟨fun k => if k = kind then (t.forKind kind).override o else t.forKind k⟩

end ProfileTable

end Switchboard
