import Switchboard.Toml.Scalar

/-!
# TOML documents

A document is a table. It is read line by line: a header opens a table, and every other line
sets one key in the table that is open. Keys with points name tables inside. What is written
once is not written again: neither a key, nor a table that has been opened by a header, nor one
that stands for a value.
-/

namespace Switchboard.Toml

/-- A value. -/
inductive Value where
  | scalar (s : Scalar)
  | array (items : List Value)
  | table (entries : List (String × Value))

/-- What a key of an unfinished table holds. -/
inductive Item where
  | value (v : Value)
  /-- A table. It is implied if no header has opened it, and dotted if keys with points made
  it. -/
  | table (implied dotted : Bool) (entries : List (String × Item))
  /-- An array of tables. -/
  | tables (elements : List (List (String × Item)))

/-- The entries of an unfinished table. -/
abbrev Entries := List (String × Item)

/-- Replaces the item of a key, or adds it. -/
def Entries.put (es : Entries) (key : String) (i : Item) : Entries :=
  if es.any fun e => e.1 = key then es.map fun e => if e.1 = key then (key, i) else e
  else es ++ [(key, i)]

mutual
/-- A finished item. -/
def Item.finish : Item → Value
  | .value v => v
  | .table _ _ es => .table (finishEntries es)
  | .tables elements => .array (finishElements elements)

/-- Finished entries. -/
def finishEntries : List (String × Item) → List (String × Value)
  | [] => []
  | (k, i) :: rest => (k, i.finish) :: finishEntries rest

/-- Finished tables. -/
def finishElements : List (List (String × Item)) → List Value
  | [] => []
  | es :: rest => .table (finishEntries es) :: finishElements rest
end

/-! ## Setting keys -/

/-- Sets a key in the table at the end of a path of keys with points. -/
def setKey (key : String) (v : Value) : (path : List String) → Entries → Option Entries
  | [], es =>
    match es.lookup key with
    | some _ => none
    | none => some (es.put key (.value v))
  | p :: path, es =>
    match es.lookup p with
    | none => do return es.put p (.table true true (← setKey key v path []))
    | some (.table implied dotted inner) =>
      if !implied || (path.isEmpty && !dotted) then none
      else do return es.put p (.table implied dotted (← setKey key v path inner))
    | some (.tables elements) =>
      match elements.getLast? with
      | some last =>
        if path.isEmpty then none
        else do return es.put p (.tables (elements.dropLast ++ [← setKey key v path last]))
      | none => none
    | some (.value _) => none

/-- Changes the table at the end of a path of a header. -/
def modifyAt (f : Entries → Option Entries) : (path : List String) → Entries → Option Entries
  | [], es => f es
  | p :: path, es =>
    match es.lookup p with
    | none => do return es.put p (.table true false (← modifyAt f path []))
    | some (.table implied dotted inner) => do
      return es.put p (.table implied dotted (← modifyAt f path inner))
    | some (.tables elements) =>
      match elements.getLast? with
      | some last => do
        return es.put p (.tables (elements.dropLast ++ [← modifyAt f path last]))
      | none => none
    | some (.value _) => none

/-- Characters of keys without quotes. -/
def isKeyChar (c : Char) : Bool :=
  c.isAlphanum || c = '_' || c = '-'

/-- A key without points. -/
def readSimpleKey (s : List Char) : Option (String × List Char) :=
  let bare := s.takeWhile isKeyChar
  if bare.isEmpty then readShortString s
  else some (String.ofList bare, s.drop bare.length)

/-- How deep keys and values nest, and one more. -/
def depthLimit : Nat := 80

/-- A key with points; `fuel` bounds the number of its parts. -/
def readKey : (fuel : Nat) → List Char → Option (List String × List Char)
  | 0, _ => none
  | fuel + 1, s => do
    let (k, rest) ← readSimpleKey (skipBlanks s)
    match skipBlanks rest with
    | '.' :: rest => do
      let (ks, rest) ← readKey fuel rest
      return (k :: ks, rest)
    | rest => return ([k], rest)

/-- A key with points of lawful length. -/
def readPath (s : List Char) : Option (List String × List Char) :=
  readKey (depthLimit - 1) s

/-- The text after blanks, line breaks and comments between the items of an array; `fuel` bounds
the number of lines. -/
def skipBetween : (fuel : Nat) → List Char → Option (List Char)
  | 0, _ => none
  | fuel + 1, s =>
    match skipComment (skipBlanks s) with
    | [] => some []
    | rest =>
      match lineBreak? rest with
      | some after => skipBetween fuel after
      | none => if (skipBlanks s).head? = some '#' then none else some rest

/-- The path before the last key, and that key. -/
def splitPath (path : List String) : Option (List String × String) :=
  path.getLast?.map fun key => (path.dropLast, key)

mutual
/-- A value. The depth bounds the nesting of containers, the fuel that of calls. -/
def readValue (depth fuel : Nat) (s : List Char) : Option (Value × List Char) :=
  match fuel with
  | 0 => none
  | fuel + 1 =>
    match s with
    | '[' :: rest =>
      match depth with
      | 0 => none
      | depth + 1 => (readItems depth fuel rest).map fun r => (.array r.1, r.2)
    | '{' :: rest =>
      match depth with
      | 0 => none
      | depth + 1 =>
        match skipBlanks rest with
        | '}' :: after => some (.table [], after)
        | inner => (readEntries depth fuel [] inner).map fun r => (.table (finishEntries r.1), r.2)
    | s => (readScalar s).map fun r => (.scalar r.1, r.2)

/-- The items of an array up to its bracket. -/
def readItems (depth fuel : Nat) (s : List Char) : Option (List Value × List Char) :=
  match fuel with
  | 0 => none
  | fuel + 1 => do
    match ← skipBetween (s.length + 1) s with
    | ']' :: rest => some ([], rest)
    | inner =>
      let (v, rest) ← readValue depth fuel inner
      match ← skipBetween (rest.length + 1) rest with
      | ',' :: rest => do
        let (vs, rest) ← readItems depth fuel rest
        return (v :: vs, rest)
      | ']' :: rest => some ([v], rest)
      | _ => none

/-- The entries of a table in a line up to its brace, at least one. -/
def readEntries (depth fuel : Nat) (es : Entries) (s : List Char) :
    Option (Entries × List Char) :=
  match fuel with
  | 0 => none
  | fuel + 1 => do
    let (path, rest) ← readPath s
    let (path, key) ← splitPath path
    let (v, rest) ← readValue depth fuel (skipBlanks (← afterMark '=' rest))
    let es ← setKey key v path es
    match skipBlanks rest with
    | ',' :: rest => readEntries depth fuel es rest
    | '}' :: rest => some (es, rest)
    | _ => none
end

/-! ## Lines -/

/-- A document being read: the tables that are finished, and the one that is open. -/
structure Progress where
  root : Entries := []
  /-- The header of the open table; empty at the beginning. -/
  path : List String := []
  isElement : Bool := false
  entries : Entries := []

namespace Progress

/-- Puts the open table in its place. -/
def close (p : Progress) : Option Entries :=
  match splitPath p.path with
  | none => some p.entries
  | some (parent, key) =>
    modifyAt (fun es =>
      match es.lookup key, p.isElement with
      | none, false => some (es.put key (.table false false p.entries))
      | none, true => some (es.put key (.tables [p.entries]))
      | some (.tables elements), true => some (es.put key (.tables (elements ++ [p.entries])))
      | some (.table true _ _), false => some (es.put key (.table false false p.entries))
      | _, _ => none) parent p.root

/-- The entries that a table has before its header opens it, if the header may. -/
def lookup : (path : List String) → Entries → Option Entries
  | [], _ => none
  | [key], es =>
    match es.lookup key with
    | none => some []
    | some (.table true false inner) => some inner
    | some _ => none
  | p :: path, es =>
    match es.lookup p with
    | none => some []
    | some (.table _ _ inner) => lookup path inner
    | some (.tables elements) => lookup path (elements.getLast?.getD [])
    | some (.value _) => none

/-- Opens a table by a header. -/
def openTable (p : Progress) (path : List String) : Option Progress := do
  let root ← p.close
  let inner ← lookup path root
  return { root, path, entries := inner }

/-- Opens the next element of an array of tables by a header. -/
def openElement (p : Progress) (path : List String) : Option Progress := do
  let root ← p.close
  let (parent, key) ← splitPath path
  let root ← modifyAt (fun es =>
    match es.lookup key with
    | none => some es
    | some (.tables _) => some es
    | some _ => none) parent root
  return { root, path, isElement := true }

/-- Sets a key in the open table. -/
def set (p : Progress) (path : List String) (v : Value) : Option Progress := do
  let (path, key) ← splitPath path
  return { p with entries := ← setKey key v path p.entries }

end Progress

/-- Reads one line, and gives back the text after it. -/
def readStatement (p : Progress) (s : List Char) : Option (Progress × List Char) :=
  match s with
  | '[' :: '[' :: rest => do
    let (path, rest) ← readPath rest
    let p ← p.openElement path
    return (p, ← endOfLine? (← afterMark ']' (← afterMark ']' rest)))
  | '[' :: rest => do
    let (path, rest) ← readPath rest
    let p ← p.openTable path
    return (p, ← endOfLine? (← afterMark ']' rest))
  | s => do
    let (path, rest) ← readPath s
    let text := skipBlanks (← afterMark '=' rest)
    let (v, rest) ← readValue (depthLimit - 1) (2 * text.length + 2) text
    return (← p.set path v, ← endOfLine? rest)

/-- Reads all lines, at most `fuel` of them. -/
def readStatements : (fuel : Nat) → Progress → List Char → Option Progress
  | 0, _, _ => none
  | fuel + 1, p, s =>
    match skipBlanks s with
    | [] => some p
    | '#' :: _ => do readStatements fuel p (← endOfLine? s)
    | rest =>
      match lineBreak? rest with
      | some after => readStatements fuel p after
      | none => do
        let (p, after) ← readStatement p rest
        readStatements fuel p after

/-- The text without a byte order mark at its head. -/
def dropMark (s : List Char) : List Char :=
  match s with
  | c :: rest => if c.toNat = 0xfeff then rest else s
  | [] => []

/-- The entries of a document. -/
def parse? (s : String) : Option (List (String × Value)) := do
  let text := dropMark s.toList
  let p ← readStatements (text.length + 1) {} text
  return finishEntries (← p.close)

end Switchboard.Toml
