import Switchboard.Proofs.FileSystem.Siblings
import Switchboard.Proofs.Tool.Confinement

/-!
# Paths beneath a base

What a path begins with, the root or the directory it is seen from, counts only at its head; behind
a base all that is left of a relative path are its names and parents (`Path.components_join`). The
listing tool takes no path with the root or a parent among its components, so what it takes only
leads on from the base by names, and of what it refuses nothing is read
(`WorkspaceListing.descent`).
-/

namespace Switchboard

namespace Path

variable {base path : String} {c : Component}

/-- Whether a component is a name. -/
def Component.isNormal : Component → Bool
  | .normal _ => true
  | _ => false

/-- What a path begins with before its names and parents. -/
def origin (path : String) : List Component :=
  if isAbsolute path then [.root]
  else if (pieces path).head? = some "." then [.current]
  else []

/-- The components of a path are where it starts and what its pieces stand for. -/
theorem components_eq (path : String) :
    components path = origin path ++ (pieces path).filterMap componentOf := by
  obtain ⟨first, rest, hps⟩ := List.exists_cons_of_ne_nil (pieces_ne_nil path)
  have hcons : (first :: rest).filterMap componentOf =
      (componentOf first).toList ++ rest.filterMap componentOf := by
    cases h : componentOf first <;> simp [h]
  rw [components, origin, hps, hcons, ← List.append_assoc, List.head?_cons]
  simp only [Option.some_inj]
  split
  · next habsolute =>
    -- An absolute path begins with an empty piece, which is no component.
    obtain ⟨ps, -, hempty⟩ := isAbsolute_iff.1 habsolute
    obtain rfl : first = "" := (List.cons.inj (hps.symm.trans hempty)).1
    rfl
  · split
    · next hdot =>
      subst hdot
      rfl
    · rfl

theorem isNormal_or_eq_parent {piece : String} (h : componentOf piece = some c) :
    c.isNormal = true ∨ c = .parent := by
  unfold componentOf at h
  split at h
  · cases h
  · split at h
    · exact .inr (Option.some.inj h).symm
    · exact .inl (Option.some.inj h ▸ rfl)

/-- Only an absolute path has a component for the root. -/
theorem root_mem_components_iff : Component.root ∈ components path ↔ isAbsolute path = true := by
  have hpieces : Component.root ∉ (pieces path).filterMap componentOf := by
    intro h
    obtain ⟨piece, -, hpiece⟩ := List.mem_filterMap.1 h
    rcases isNormal_or_eq_parent hpiece with h | h <;> cases h
  rw [components_eq, List.mem_append, or_iff_left hpieces, origin]
  split
  · next h => simp [h]
  · next h => split <;> simp [h]

/-- Where no parent is among the components of a path, all but what it begins with are names. -/
theorem filter_isNormal_components (h : Component.parent ∉ components path) :
    (components path).filter Component.isNormal = (pieces path).filterMap componentOf := by
  have horigin : (origin path).filter Component.isNormal = [] := by
    unfold origin
    split
    · rfl
    · split <;> rfl
  rw [components_eq, List.mem_append, not_or] at h
  rw [components_eq, List.filter_append, horigin, List.nil_append, List.filter_eq_self]
  intro c hc
  obtain ⟨piece, -, hpiece⟩ := List.mem_filterMap.1 hc
  refine (isNormal_or_eq_parent hpiece).resolve_right ?_
  rintro rfl
  exact h.2 hc

theorem filterMap_componentOf_filter (ps : List String) :
    (ps.filter (· != "")).filterMap componentOf = ps.filterMap componentOf := by
  rw [List.filterMap_filter]
  refine List.filterMap_congr fun piece _ => ?_
  by_cases hempty : piece = ""
  · simp [hempty, componentOf]
  · simp [hempty]

theorem head?_pieces_join (hbase : base ≠ "") (hpath : isAbsolute path = false) :
    (pieces (join base path)).head? = (pieces base).head? := by
  have happend : ∀ s t, (pieces (s ++ "/" ++ t)).head? = (pieces s).head? := fun s t => by
    rw [pieces_append, List.head?_append_of_ne_nil _ (pieces_ne_nil s)]
  rw [join_eq hpath, lead]
  split
  · next hlead =>
    -- The base is not empty, so it ends in a slash.
    have hslash := (Bool.or_eq_true_iff.1 hlead).resolve_left (by simpa using hbase)
    obtain ⟨s, hs⟩ := List.getLast?_eq_some_iff.1 (of_decide_eq_true hslash)
    obtain rfl : base = String.ofList s ++ "/" := by
      rw [← String.toList_inj, hs]
      simp
    rw [happend, ← happend _ "", String.append_empty]
  · exact happend base path

/-- A joined path starts where its base does. -/
theorem origin_join (hbase : base ≠ "") (hpath : isAbsolute path = false) :
    origin (join base path) = origin base := by
  rw [origin, origin, isAbsolute_join hpath, head?_pieces_join hbase hpath]

/-- Of a relative path its names and parents lead on from a base. -/
theorem components_join (hbase : base ≠ "") (hpath : isAbsolute path = false) :
    components (join base path) = components base ++ (pieces path).filterMap componentOf := by
  obtain ⟨ps, hjoin, hps⟩ := exists_pieces_lead base path
  rw [← join_eq hpath] at hjoin
  rw [components_eq, components_eq base, origin_join hbase hpath, hjoin, List.filterMap_append,
    ← filterMap_componentOf_filter ps, hps, filterMap_componentOf_filter, List.append_assoc]

end Path

/-! ## The tool -/

namespace WorkspaceListing

variable {base argument : String} {args : Json} {f : ToolFailure}

/-- Why an argument is refused. -/
def refusal (argument : String) : ToolFailure :=
  .invalidArguments ("path '" ++ argument ++ "' escapes the workspace")

/-- A path leads away exactly if it is absolute or goes to a parent. -/
theorem any_leadsAway_iff :
    (Path.components argument).any leadsAway = true ↔
      Path.isAbsolute argument = true ∨ Path.Component.parent ∈ Path.components argument := by
  rw [← Path.root_mem_components_iff, List.any_eq_true]
  constructor
  · rintro ⟨c, hc, haway⟩
    cases c with
    | root => exact .inl hc
    | parent => exact .inr hc
    | _ => cases haway
  · rintro (h | h)
    · exact ⟨_, h, rfl⟩
    · exact ⟨_, h, rfl⟩

/-- An argument is joined to the base unless it leads away. -/
theorem resolve_some (base argument : String) : resolve base (some argument) =
    if Path.isAbsolute argument = true ∨ Path.Component.parent ∈ Path.components argument then
      .error (refusal argument)
    else .ok (Path.join base argument) := by
  simp only [resolve, any_leadsAway_iff]
  rfl

/-- The tool, where to read a directory may have effects of any kind. -/
def listReading {m : Type → Type} [Monad m]
    (read : String → m (Except FileSystem.Fault (List Entry))) (base : String) (args : Json) :
    m (Except ToolFailure (String × Listing)) :=
  match pathArgument args >>= resolve base with
  | .error f => return .error f
  | .ok path => do
    let entries ← read path
    return listWith (fun _ => entries) base args

/-- Where reading has no effects, this is the tool. -/
theorem listReading_pure {m : Type → Type} [Monad m] [LawfulMonad m]
    (read : String → Except FileSystem.Fault (List Entry)) :
    listReading (m := m) (fun path => pure (read path)) base args =
      pure (listWith read base args) := by
  unfold listReading listWith
  cases hargs : pathArgument args with
  | error f => rfl
  | ok relative =>
    cases hpath : resolve base relative with
    | error f => simp [hpath]
    | ok path => simp [hpath]

/-- Without a path there is no directory to read, whatever reading is. -/
theorem listReading_of_error {m : Type → Type} [Monad m]
    {read : String → m (Except FileSystem.Fault (List Entry))}
    (h : (pathArgument args >>= resolve base) = .error f) :
    listReading read base args = pure (.error f) := by
  rw [listReading, h]

/-- An argument that is refused is answered with the refusal. -/
theorem listWith_of_error {read : String → Except FileSystem.Fault (List Entry)}
    (h : (pathArgument args >>= resolve base) = .error f) :
    listWith read base args = .error f :=
  (listReading_pure (m := Id) read).symm.trans (listReading_of_error h)

/-- A path argument is taken exactly if it is relative and has no parent among its components. The
components of the path it stands for are then those of the base, followed by the names in it. Any
other argument is refused, and no directory is read. -/
theorem descent (base argument : String) (hbase : base ≠ "") :
    ((∃ path, resolve base (some argument) = .ok path) ↔
      Path.isAbsolute argument = false ∧
        Path.Component.parent ∉ Path.components argument) ∧
    (∀ path, resolve base (some argument) = .ok path →
      Path.components path =
        Path.components base ++ (Path.components argument).filter Path.Component.isNormal) ∧
    ((∀ path, resolve base (some argument) ≠ .ok path) →
      resolve base (some argument) = .error (refusal argument) ∧
      ∀ args, pathArgument args = .ok (some argument) →
        (∀ read, listWith read base args = .error (refusal argument)) ∧
        ∀ (m : Type → Type) [Monad m] (read : String → m (Except FileSystem.Fault (List Entry))),
          listReading read base args = pure (.error (refusal argument))) := by
  have hresolve := resolve_some base argument
  split at hresolve
  · next haway =>
    refine ⟨?_, ?_, fun _ => ⟨hresolve, fun args hargs => ?_⟩⟩
    · rw [hresolve, ← Bool.not_eq_true, ← not_or]
      simp [haway]
    · simp [hresolve]
    · have hnone : (pathArgument args >>= resolve base) = .error (refusal argument) := by
        rw [hargs, Outcome.ok_bind, hresolve]
      exact ⟨fun _ => listWith_of_error hnone, fun _ _ _ => listReading_of_error hnone⟩
  · next hleads =>
    obtain ⟨hrelative, hparent⟩ := not_or.1 hleads
    rw [Bool.not_eq_true] at hrelative
    refine ⟨iff_of_true ⟨_, hresolve⟩ ⟨hrelative, hparent⟩, fun path hpath => ?_, fun hnone => ?_⟩
    · obtain rfl := Except.ok.inj (hresolve.symm.trans hpath)
      rw [Path.components_join hbase hrelative, Path.filter_isNormal_components hparent]
    · exact absurd hresolve (hnone _)

/-- A path of a base that ends in a slash and an argument with idle parts and a name that begins
like a parent, and an argument that turns back halfway. -/
theorem descent_of_notes :
    "notes/" ≠ "" ∧
      resolve "notes/" (some "./2024//..old/.") = .ok "notes/./2024//..old/." ∧
      Path.components "notes/./2024//..old/." =
        [.normal "notes"] ++ [.normal "2024", .normal "..old"] ∧
      (∀ path, resolve "notes/" (some "2024/../..") ≠ .ok path) ∧
      ∀ read, listWith read "notes/" (.obj [("path", .str "2024/../..")]) =
        .error (.invalidArguments "path '2024/../..' escapes the workspace") := by
  have hne : "notes/" ≠ "" := by decide
  obtain ⟨-, hdown, -⟩ := descent "notes/" "./2024//..old/." hne
  obtain ⟨htaken, -, hrefused⟩ := descent "notes/" "2024/../.." hne
  have hup : ∀ path, resolve "notes/" (some "2024/../..") ≠ .ok path := fun path hpath =>
    (htaken.1 ⟨path, hpath⟩).2 (by decide)
  exact ⟨hne, rfl, hdown _ rfl, hup, ((hrefused hup).2 _ rfl).1⟩

end WorkspaceListing

end Switchboard
