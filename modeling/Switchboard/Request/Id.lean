import Switchboard.Json.Reader
import Switchboard.Json.Printer

/-!
# Request identifiers

An identifier names a request and the conversation it belongs to. It is a non-empty text of
letters, digits, hyphens, underscores and dots of at most 128 bytes. A text that is none fails
the first of six checks that it violates.
-/

namespace Switchboard

namespace RequestId

/-- Why a text is no identifier. -/
inductive Fault where
  | empty
  | whitespaceOnly
  | outerWhitespace
  | tooLong (length : Nat)
  | pathTraversal
  | invalidCharacters
deriving Repr, DecidableEq

/-- The greatest length in bytes. -/
def maxLength : Nat := 128

/-- The text of a fault. -/
def Fault.message : Fault → String
  | .empty => "Identifier cannot be empty"
  | .whitespaceOnly => "Identifier cannot be whitespace-only"
  | .outerWhitespace => "Identifier cannot have leading or trailing whitespace"
  | .tooLong n =>
    "Identifier too long (" ++ toString n ++ " chars, max " ++ toString maxLength ++ ")"
  | .pathTraversal => "Identifier cannot contain path traversal sequences (../)"
  | .invalidCharacters =>
    "Identifier can only contain alphanumeric characters, hyphens, underscores, and dots"

/-- The characters of identifiers. -/
def isIdChar (c : Char) : Bool :=
  Unicode.isAlphanumeric c || c = '-' || c = '_' || c = '.'

/-- The first check that a text violates. -/
def fault? (s : String) : Option Fault :=
  let cs := s.toList
  if cs.isEmpty then some .empty
  else if (Text.trim cs).isEmpty then some .whitespaceOnly
  else if Text.trim cs != cs then some .outerWhitespace
  else if maxLength < s.utf8ByteSize then some (.tooLong s.utf8ByteSize)
  else if Text.occursIn ['.', '/'] cs then some .pathTraversal
  else if !cs.all isIdChar then some .invalidCharacters
  else none

end RequestId

/-- An identifier. -/
structure RequestId where
  text : String
  valid : RequestId.fault? text = none
deriving DecidableEq

namespace RequestId

theorem text_inj {id id' : RequestId} : id.text = id'.text ↔ id = id' := by
  cases id
  cases id'
  simp

/-- The identifier of a text. -/
def parse (s : String) : Except Fault RequestId :=
  match h : fault? s with
  | none => .ok ⟨s, h⟩
  | some f => .error f

/-- The source under which the exchanges of a conversation are filed. -/
def conversationSource (id : RequestId) : String :=
  "conversation:" ++ id.text

/-- The order of identifiers by their bytes. -/
def le (a b : RequestId) : Bool :=
  decide (a.text ≤ b.text)

/-- The identifier of a text, with the reason if it is refused. -/
def check (s : String) : Except String RequestId :=
  (parse s).mapError Fault.message

/-- Reads an identifier. -/
def read : Json.Reader RequestId :=
  Json.readAs Json.readString check

/-- Reads an identifier that is the key of a member. -/
def ofKey (key : String) : Except Json.Fault RequestId :=
  (check key).mapError .refused

/-- An identifier as a value. -/
def toJson (id : RequestId) : Json :=
  .str id.text

end RequestId

end Switchboard
