import Mathlib.Data.List.Induction
import Mathlib.Data.List.Nodup
import Switchboard.Model.Registry
import Switchboard.Tool.Registry

/-!
# Registering one after the other

Both registries take a thing in if its name is free, so the things in them have distinct names
(`nodup_enlistAll`) and each is found by its name (`find?_eq_some_iff`). What a registry holds after
many registrations is said by `ModelRegistry.registerAll_eq` and `ToolRegistry.registerAll_eq`. The
first thing registered under a name keeps it, and the names stand in the order in which they were
first given (`Registration.first_come`).
-/

namespace Switchboard

namespace Registration

variable {α : Type} {name : α → String} {l as : List α} {a x : α} {key : String}

/-- Adds a thing if its name is free. -/
def enlist (name : α → String) (l : List α) (a : α) : List α :=
  match l.find? fun x => name x = name a with
  | some _ => l
  | none => l ++ [a]

/-- Adds things one after the other if their names are free. -/
def enlistAll (name : α → String) (l as : List α) : List α :=
  as.foldl (enlist name) l

/-- Enlisting keeps names distinct. -/
theorem nodup_enlist (h : (l.map name).Nodup) (a : α) : ((enlist name l a).map name).Nodup := by
  unfold enlist
  split
  case h_1 => exact h
  case h_2 hnone =>
    have hfree : name a ∉ l.map name := by simpa using hnone
    rw [List.map_append, List.map_singleton, ← List.concat_eq_append]
    exact h.concat hfree

theorem enlist_sublist (l : List α) (a : α) : (enlist name l a).Sublist (l ++ [a]) := by
  unfold enlist
  split
  case h_1 => exact List.sublist_append_left l [a]
  case h_2 => exact List.Sublist.refl _

/-- Enlisting adds a name unless it is there. -/
theorem map_enlist (l : List α) (a : α) : (enlist name l a).map name =
    if name a ∈ l.map name then l.map name else l.map name ++ [name a] := by
  unfold enlist
  split
  case h_1 x hx =>
    have hmem : name a ∈ l.map name :=
      List.mem_map.mpr ⟨x, List.mem_of_find?_eq_some hx, by simpa using List.find?_some hx⟩
    rw [if_pos hmem]
  case h_2 hnone =>
    have hfree : name a ∉ l.map name := by simpa using hnone
    rw [if_neg hfree, List.map_append, List.map_singleton]

/-- A name leads to the first thing that bears it. -/
theorem find?_enlist (l : List α) (a : α) : (enlist name l a).find? (fun x => name x = key) =
    (l ++ [a]).find? fun x => name x = key := by
  unfold enlist
  split
  case h_1 x hx =>
    rw [List.find?_append, List.find?_singleton]
    by_cases hkey : name a = key
    · rw [← hkey, hx, Option.some_or]
    · simp [hkey]
  case h_2 => rfl

theorem enlistAll_concat (l as : List α) (a : α) :
    enlistAll name l (as ++ [a]) = enlist name (enlistAll name l as) a := by
  rw [enlistAll, List.foldl_append, List.foldl_cons, List.foldl_nil, ← enlistAll]

/-- The first element of a name is found, whether or not later ones were enlisted. -/
theorem find?_enlistAll (l as : List α) : (enlistAll name l as).find? (fun x => name x = key) =
    (l ++ as).find? fun x => name x = key := by
  induction as generalizing l with
  | nil => rw [enlistAll, List.foldl_nil, List.append_nil]
  | cons a as ih =>
    rw [enlistAll, List.foldl_cons, ← enlistAll, ih, List.append_cons, List.find?_append,
      find?_enlist, ← List.find?_append]

/-- What has been added has distinct names. -/
theorem nodup_enlistAll (h : (l.map name).Nodup) (as : List α) :
    ((enlistAll name l as).map name).Nodup := by
  induction as generalizing l with
  | nil => exact h
  | cons a as ih => exact ih (nodup_enlist h a)

/-- What has been added are some of the things, in their order. -/
theorem enlistAll_sublist (l as : List α) : (enlistAll name l as).Sublist (l ++ as) := by
  induction as generalizing l with
  | nil => simp [enlistAll]
  | cons a as ih =>
    have hrest : (enlist name l a ++ as).Sublist (l ++ a :: as) := by
      simpa using (enlist_sublist l a).append_right as
    exact (ih (enlist name l a)).trans hrest

theorem eraseDups_concat (l : List String) (key : String) :
    (l ++ [key]).eraseDups = if key ∈ l then l.eraseDups else l.eraseDups ++ [key] := by
  rw [List.eraseDups_append, List.removeAll, List.filter_singleton, List.elem_eq_contains]
  by_cases hkey : key ∈ l <;> simp [hkey, List.eraseDups_cons]

/-- Names stand in the order of their first bearers. -/
theorem map_enlistAll (as : List α) :
    (enlistAll name [] as).map name = (as.map name).eraseDups := by
  induction as using List.reverseRecOn with
  | nil => rfl
  | append_singleton as a ih =>
    rw [enlistAll_concat, map_enlist, ih, List.map_append, List.map_singleton, eraseDups_concat]
    simp only [List.mem_eraseDups]

/-- Among things with distinct names each is found by its name. -/
theorem find?_eq_some_iff (h : (l.map name).Nodup) :
    l.find? (fun x => name x = key) = some a ↔ a ∈ l ∧ name a = key := by
  constructor
  · exact fun hfind => ⟨List.mem_of_find?_eq_some hfind, by simpa using List.find?_some hfind⟩
  · rintro ⟨ha, rfl⟩
    cases hfind : l.find? fun x => name x = name a with
    | none => simpa using List.find?_eq_none.mp hfind a ha
    | some x =>
      have hname : name x = name a := by simpa using List.find?_some hfind
      rw [List.inj_on_of_nodup_map h (List.mem_of_find?_eq_some hfind) ha hname]

/-! ## Registries -/

section Registries

variable {ρ ε : Type}

/-- A registry that takes a thing in after all others if its name is free. What `put` puts into it
changes nothing else. -/
structure IsRegistry (name : α → String) (entries : ρ → List α) (put : ρ → List α → ρ)
    (find? : ρ → String → Option α) (register : ρ → α → Except ε ρ)
    (duplicate : String → ε) : Prop where
  put_entries : ∀ r, put r (entries r) = r
  entries_put : ∀ r l, entries (put r l) = l
  put_put : ∀ r l l', put (put r l) l' = put r l'
  find?_eq : ∀ r key, find? r key = (entries r).find? fun a => name a = key
  register_of_some : ∀ r a b, find? r (name a) = some b → register r a = .error (duplicate (name a))
  register_of_none : ∀ r a, find? r (name a) = none → register r a = .ok (put r (entries r ++ [a]))

/-- The registry after things have been registered one after the other. One that is refused leaves
it as it is. -/
def after (register : ρ → α → Except ε ρ) (r : ρ) (as : List α) : ρ :=
  as.foldl (fun r a => (register r a).toOption.getD r) r

/-- What comes of registering any things in a registry: the first under a name keeps it. -/
structure KeepsFirst (name : α → String) (entries : ρ → List α) (find? : ρ → String → Option α)
    (register : ρ → α → Except ε ρ) (duplicate : String → ε) (r : ρ) : Prop where
  nodup : ∀ as, ((entries (after register r as)).map name).Nodup
  order : ∀ as, (entries (after register r as)).map name = (as.map name).eraseDups
  find?_eq : ∀ as key, find? (after register r as) key = as.find? fun a => name a = key
  find?_eq_some_iff : ∀ as key a, find? (after register r as) key = some a ↔
    a ∈ entries (after register r as) ∧ name a = key
  /-- A name is refused exactly if a thing under it has been taken in before. -/
  refused_iff : ∀ as a, (∃ f, register (after register r as) a = .error f) ↔
    ∃ earlier b later r', as = earlier ++ b :: later ∧
      register (after register r earlier) b = .ok r' ∧ name b = name a
  /-- What is refused is told by its name, and leaves the registry as it is. -/
  refused : ∀ as a f, register (after register r as) a = .error f →
    f = duplicate (name a) ∧ after register r (as ++ [a]) = after register r as
  /-- Names that have been given before change nothing. -/
  again : ∀ as bs, (∀ b ∈ bs, name b ∈ as.map name) →
    after register (after register r as) bs = after register r as

variable {entries : ρ → List α} {put : ρ → List α → ρ} {find? : ρ → String → Option α}
  {register : ρ → α → Except ε ρ} {duplicate : String → ε} {r : ρ} {f : ε}

theorem after_concat (r : ρ) (as : List α) (a : α) : after register r (as ++ [a]) =
    (register (after register r as) a).toOption.getD (after register r as) := by
  rw [after, List.foldl_append, List.foldl_cons, List.foldl_nil, ← after]

namespace IsRegistry

variable (h : IsRegistry name entries put find? register duplicate)
include h

/-- Registering enlists an element. -/
theorem register_eq (r : ρ) (a : α) :
    (register r a).toOption.getD r = put r (enlist name (entries r) a) := by
  unfold enlist
  rw [← h.find?_eq]
  cases hfind : find? r (name a) with
  | some b =>
    rw [h.register_of_some r a b hfind]
    exact (h.put_entries r).symm
  | none =>
    rw [h.register_of_none r a hfind]
    rfl

/-- Registering one element after the other enlists them all. -/
theorem after_eq (r : ρ) (as : List α) :
    after register r as = put r (enlistAll name (entries r) as) := by
  induction as generalizing r with
  | nil => exact (h.put_entries r).symm
  | cons a as ih =>
    rw [after, List.foldl_cons, ← after, ih, h.register_eq, h.entries_put, h.put_put, enlistAll,
      enlistAll, List.foldl_cons]

/-- After registrations a registry holds what was enlisted. -/
theorem entries_after (r : ρ) (as : List α) :
    entries (after register r as) = enlistAll name (entries r) as := by
  rw [h.after_eq, h.entries_put]

/-- After registrations names are distinct. -/
theorem nodup_after (hr : entries r = []) (as : List α) :
    ((entries (after register r as)).map name).Nodup := by
  rw [h.entries_after, hr]
  exact nodup_enlistAll (by simp) as

/-- After registrations the first element of a name is found under it. -/
theorem find?_after (hr : entries r = []) (as : List α) (key : String) :
    find? (after register r as) key = as.find? fun a => name a = key := by
  rw [h.find?_eq, h.entries_after, find?_enlistAll, hr, List.nil_append]

theorem refused (hregister : register r a = .error f) :
    f = duplicate (name a) ∧ ∃ b, find? r (name a) = some b := by
  cases hfind : find? r (name a) with
  | some b =>
    rw [h.register_of_some r a b hfind] at hregister
    exact ⟨(Except.error.inj hregister).symm, b, rfl⟩
  | none =>
    rw [h.register_of_none r a hfind] at hregister
    cases hregister

/-- An element is refused exactly if an earlier one of its name was registered. -/
theorem refused_iff (hr : entries r = []) (as : List α) (a : α) :
    (∃ f, register (after register r as) a = .error f) ↔
      ∃ earlier b later r', as = earlier ++ b :: later ∧
        register (after register r earlier) b = .ok r' ∧ name b = name a := by
  constructor
  · rintro ⟨f, hf⟩
    obtain ⟨-, b, hb⟩ := h.refused hf
    -- The first thing under the name was not refused, as none before it has this name.
    rw [h.find?_after hr, List.find?_eq_some_iff_append] at hb
    obtain ⟨hname, earlier, later, rfl, hearlier⟩ := hb
    have hname : name b = name a := of_decide_eq_true hname
    have hfree : find? (after register r earlier) (name b) = none := by
      rw [h.find?_after hr, List.find?_eq_none, hname]
      simpa using hearlier
    exact ⟨earlier, b, later, _, rfl, h.register_of_none _ b hfree, hname⟩
  · rintro ⟨earlier, b, later, -, rfl, -, hname⟩
    cases hfind : find? (after register r (earlier ++ b :: later)) (name a) with
    | some x => exact ⟨_, h.register_of_some _ a x hfind⟩
    | none =>
      rw [h.find?_after hr, List.find?_eq_none] at hfind
      exact absurd (decide_eq_true hname) (hfind b (by simp))

/-- Registering names again changes nothing. -/
theorem again (hr : entries r = []) {as bs : List α} (hbs : ∀ b ∈ bs, name b ∈ as.map name) :
    after register (after register r as) bs = after register r as := by
  induction bs with
  | nil => rfl
  | cons b bs ih =>
    obtain ⟨hb, hbs⟩ := List.forall_mem_cons.mp hbs
    obtain ⟨a, ha, hname⟩ := List.mem_map.mp hb
    cases hfind : find? (after register r as) (name b) with
    | some x =>
      have hrefused := h.register_of_some _ b x hfind
      rw [after, List.foldl_cons, hrefused]
      exact ih hbs
    | none =>
      rw [h.find?_after hr, List.find?_eq_none] at hfind
      exact absurd (decide_eq_true hname) (hfind a ha)

/-- In a registry that is empty at first, the first thing under a name keeps it. -/
theorem keepsFirst (hr : entries r = []) :
    KeepsFirst name entries find? register duplicate r where
  nodup := h.nodup_after hr
  order as := by rw [h.entries_after, hr, map_enlistAll]
  find?_eq := h.find?_after hr
  find?_eq_some_iff as key a := by
    rw [h.find?_eq, Registration.find?_eq_some_iff (h.nodup_after hr as)]
  refused_iff := h.refused_iff hr
  refused as a f hf := ⟨(h.refused hf).1, by rw [after_concat, hf]; rfl⟩
  again _ _ := h.again hr

end IsRegistry

end Registries

end Registration

open Registration

namespace ModelRegistry

variable {r : ModelRegistry}

/-- Registers providers one after the other. One that is refused is left out. -/
def registerAll (r : ModelRegistry) (ps : List Provider) : ModelRegistry :=
  ps.foldl (fun r p => (r.register p).toOption.getD r) r

/-- Providers are registered by name. -/
theorem isRegistry : IsRegistry Provider.name providers (fun _ ps => ⟨ps⟩) provider? register
    ProviderFailure.duplicate where
  put_entries _ := rfl
  entries_put _ _ := rfl
  put_put _ _ _ := rfl
  find?_eq _ _ := rfl
  register_of_some _ _ _ h := by rw [register, h]
  register_of_none _ _ h := by rw [register, h]

theorem registerAll_eq (ps : List Provider) :
    r.registerAll ps = ⟨enlistAll Provider.name r.providers ps⟩ :=
  isRegistry.after_eq r ps

/-- Registered providers have distinct names. -/
theorem nodup_registerAll (ps : List Provider) :
    ((registerAll {} ps).providers.map Provider.name).Nodup :=
  isRegistry.nodup_after rfl ps

theorem registerAll_sublist (ps : List Provider) : (registerAll {} ps).providers.Sublist ps := by
  rw [registerAll_eq]
  exact enlistAll_sublist [] ps

end ModelRegistry

namespace ToolRegistry

variable {r : ToolRegistry}

/-- Registers tools one after the other. One that is refused is left out. -/
def registerAll (r : ToolRegistry) (ts : List Tool) : ToolRegistry :=
  ts.foldl (fun r t => (r.register t).toOption.getD r) r

/-- Tools are registered by name. -/
theorem isRegistry : IsRegistry Tool.name tools (fun r ts => { r with tools := ts }) tool? register
    ToolFailure.duplicate where
  put_entries _ := rfl
  entries_put _ _ := rfl
  put_put _ _ _ := rfl
  find?_eq _ _ := rfl
  register_of_some _ _ _ h := by rw [register, h]
  register_of_none _ _ h := by rw [register, h]

theorem registerAll_eq (ts : List Tool) :
    r.registerAll ts = { r with tools := enlistAll Tool.name r.tools ts } :=
  isRegistry.after_eq r ts

/-- The tools of a registry that has taken in nothing else have distinct names. -/
theorem nodup_registerAll (hr : r.tools = []) (ts : List Tool) :
    ((r.registerAll ts).tools.map Tool.name).Nodup :=
  isRegistry.nodup_after hr ts

theorem registerAll_sublist (hr : r.tools = []) (ts : List Tool) :
    (r.registerAll ts).tools.Sublist ts := by
  rw [registerAll_eq, hr]
  exact enlistAll_sublist [] ts

end ToolRegistry

/-- In both registries the first thing registered under a name keeps it, whatever is registered
after it, and the names stand in the order in which they were first given. -/
theorem Registration.first_come :
    KeepsFirst Provider.name ModelRegistry.providers ModelRegistry.provider?
      ModelRegistry.register ProviderFailure.duplicate {} ∧
    ∀ enabled table, KeepsFirst Tool.name ToolRegistry.tools ToolRegistry.tool?
      ToolRegistry.register ToolFailure.duplicate { enabled, table } :=
  ⟨ModelRegistry.isRegistry.keepsFirst rfl, fun _ _ => ToolRegistry.isRegistry.keepsFirst rfl⟩

end Switchboard
