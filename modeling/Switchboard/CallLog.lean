/-!
# Logs of calls

What was asked of whom, in order.
-/

namespace Switchboard

/-- Calls in order, each with the name of the one who was called. -/
structure CallLog (α : Type) where
  entries : List (String × α) := []

namespace CallLog

variable {α : Type}

/-- Adds a call. -/
def record (l : CallLog α) (name : String) (call : α) : CallLog α :=
  ⟨l.entries ++ [(name, call)]⟩

/-- Adds the same call of several in a row. -/
def recordAll (l : CallLog α) (names : List String) (call : α) : CallLog α :=
  names.foldl (fun l name => l.record name call) l

/-- The calls of one name. -/
def calls (l : CallLog α) (name : String) : List α :=
  (l.entries.filter fun e => e.1 = name).map (·.2)

/-- Forgets the calls of one name. -/
def forget (l : CallLog α) (name : String) : CallLog α :=
  ⟨l.entries.filter fun e => e.1 ≠ name⟩

end CallLog

end Switchboard
