import Mathlib.Data.List.Nodup
import Switchboard.Proofs.Config.Layering

/-!
# Options in any order

The options of a map are visited in no fixed order. Each known one is accepted exactly if its value
has the shape that its key asks for, whatever is visited before it (`withOption_eq_ok_iff`), and
what two options with different keys say concerns different parts of a configuration, so their
layers commute (`overlay_comm`). So the options are accepted in every order or in none, and come to
the same configuration in all orders (`unordered`).
-/

namespace Switchboard

namespace Json

/-- A natural number of 64 bits. -/
def IsWord (j : Json) : Prop :=
  ∃ n : Nat, n < Nat.pow 2 64 ∧ j = .num (.int n)

/-- A number of any kind. -/
def IsNumber (j : Json) : Prop :=
  ∃ n, j = .num n

/-- A string. -/
def IsString (j : Json) : Prop :=
  ∃ s, j = .str s

/-- A string, or an array of strings. -/
def IsNames (j : Json) : Prop :=
  j.IsString ∨ ∃ items, j = .arr items ∧ ∀ item ∈ items, item.IsString

/-- An object with strings under its keys. -/
def IsNameTable (j : Json) : Prop :=
  ∃ members, j = .obj members ∧ ∀ m ∈ members, m.2.IsString

end Json

namespace Config

variable {c c' : Config} {o o' : String × Json} {options visited visited' : List (String × Json)}
  {key : String} {j : Json}

/-- The known options and the shapes of their values. -/
def optionShapes : List (String × (Json → Prop)) :=
  [("default_timeout_ms", Json.IsWord), ("tool_timeout_ms", Json.IsWord),
    ("persist_timeout_ms", Json.IsWord), ("enabled_tools", Json.IsNames),
    ("default_models", Json.IsNameTable), ("knowledge_limit", Json.IsWord),
    ("relevance_threshold", Json.IsNumber), ("working_directory", Json.IsString),
    ("event_capacity", Json.IsWord)]

/-- Whether an option of this name is known. -/
def isKnownOption (key : String) : Bool :=
  (optionShapes.map (·.1)).contains key

/-- The value has the shape that the option asks for, if the option is known. -/
def FitsOption (o : String × Json) : Prop :=
  ∀ shape ∈ optionShapes, shape.1 = o.1 → shape.2 o.2

/-! ## One value -/

/-- A value is read as a number exactly if it is a natural number of 64 bits. -/
theorem exists_optionNat_iff : (∃ n, optionNat key j = .ok n) ↔ j.IsWord := by
  constructor
  · rintro ⟨n, h⟩
    unfold optionNat at h
    split at h
    · next m =>
      split at h
      · next hm =>
        exact ⟨m.toNat, (Int.toNat_lt hm.1).mpr hm.2, by rw [Int.toNat_of_nonneg hm.1]⟩
      · cases h
    · cases h
  · rintro ⟨n, hn, rfl⟩
    exact ⟨n, by rw [optionNat, if_pos ⟨Int.natCast_nonneg n, Int.ofNat_lt.mpr hn⟩]; rfl⟩

theorem exists_optionFloat_iff : (∃ x, optionFloat key j = .ok x) ↔ j.IsNumber := by
  cases j with
  | num n => cases n <;> simp [optionFloat, Json.IsNumber]
  | _ => simp [optionFloat, Json.IsNumber, badOption]

theorem exists_optionString_iff : (∃ s, optionString key j = .ok s) ↔ j.IsString := by
  cases j <;> simp [optionString, Json.IsString, badOption]

/-- A list is read to its end exactly if every item is read. -/
theorem exists_mapM_iff {α β ε : Type} {f : α → Except ε β} {l : List α} :
    (∃ r, l.mapM f = .ok r) ↔ ∀ a ∈ l, ∃ b, f a = .ok b := by
  induction l with
  | nil => simp
  | cons a rest ih =>
    simp only [List.mapM_cons, Outcome.bind_eq_ok, Outcome.pure_eq, Except.ok.injEq,
      List.forall_mem_cons, ← ih]
    grind

/-- A value is read as names exactly if it is a string or an array of strings. -/
theorem exists_optionNames_iff : (∃ l, optionNames key j = .ok l) ↔ j.IsNames := by
  cases j with
  | arr items =>
    simp only [optionNames, exists_mapM_iff, Json.IsNames, Json.IsString, Json.arr.injEq,
      reduceCtorEq, exists_false, false_or, exists_eq_left']
    refine forall₂_congr fun item _ => ?_
    cases item <;> simp [badOption]
  | _ => simp [optionNames, Json.IsNames, Json.IsString, badOption]

/-- A value is read as models exactly if it is an object of strings. -/
theorem exists_optionModels_iff : (∃ l, optionModels key j = .ok l) ↔ j.IsNameTable := by
  cases j with
  | obj members =>
    simp only [optionModels, exists_mapM_iff, Json.IsNameTable, Json.obj.injEq, exists_eq_left']
    refine forall₂_congr fun m _ => ?_
    obtain ⟨provider, model⟩ := m
    cases model <;> simp [Json.IsString, badOption]
  | _ => simp [optionModels, Json.IsNameTable, badOption]

theorem fitsOption_of_not_known (h : isKnownOption o.1 = false) : FitsOption o := by
  intro shape hshape heq
  have hknown : isKnownOption o.1 = true :=
    List.contains_iff_mem.mpr (List.mem_map.mpr ⟨shape, hshape, heq⟩)
  simp [h] at hknown

theorem exists_set_iff {α : Type} {x : Except ConfigFault α} {set : α → Config} :
    (∃ c', (do return set (← x)) = Except.ok c') ↔ ∃ a, x = .ok a := by
  cases x <;> simp

/-- Whether an option is accepted does not depend on what is there. -/
theorem exists_withOption_iff : (∃ c', c.withOption o.1 o.2 = .ok c') ↔ FitsOption o := by
  unfold withOption
  split
  case h_10 h₁ h₂ h₃ h₄ h₅ h₆ h₇ h₈ h₉ =>
    refine iff_of_true ⟨c, rfl⟩ (fitsOption_of_not_known ?_)
    simpa [isKnownOption, optionShapes] using ⟨h₁, h₂, h₃, h₄, h₅, h₆, h₇, h₈, h₉⟩
  all_goals
    rename_i hname
    simp only [exists_set_iff, exists_optionNat_iff, exists_optionFloat_iff,
      exists_optionString_iff, exists_optionNames_iff, exists_optionModels_iff, FitsOption,
      optionShapes, List.forall_mem_cons, hname, String.reduceEq]
    simp

/-- An option with an unknown key has no effect. -/
theorem withOption_of_not_known (h : isKnownOption key = false) : c.withOption key j = .ok c := by
  unfold withOption
  split
  case h_10 => rfl
  all_goals
    simp [isKnownOption, optionShapes] at h

/-- An option is accepted exactly if it fits, and then it says what its layer says. -/
theorem withOption_eq_ok_iff :
    c.withOption o.1 o.2 = .ok c' ↔ FitsOption o ∧ c' = c.overlay (optionLayer o) := by
  constructor
  · intro h
    exact ⟨exists_withOption_iff.mp ⟨c', h⟩, eq_of_withOption h⟩
  · rintro ⟨hfits, rfl⟩
    obtain ⟨c', h⟩ := exists_withOption_iff (c := c).mpr hfits
    rw [h, eq_of_withOption h]

/-- Options are accepted exactly if each fits, and then put their layers on in their order. -/
theorem withOptions_eq_ok_iff : c.withOptions options = .ok c' ↔
    (∀ o ∈ options, FitsOption o) ∧ c' = c.cover (options.map optionLayer) := by
  induction options generalizing c with
  | nil => simp [withOptions, eq_comm]
  | cons o rest ih =>
    rw [withOptions, Outcome.bind_eq_ok, List.forall_mem_cons, List.map_cons, cover_cons]
    simp only [withOption_eq_ok_iff, ih]
    grind

/-- Unknown options are passed over. -/
theorem withOptions_filter :
    c.withOptions (options.filter (isKnownOption ·.1)) = c.withOptions options := by
  induction options generalizing c with
  | nil => rfl
  | cons o rest ih =>
    rw [withOptions, List.filter_cons]
    split
    · next hknown =>
      rw [withOptions]
      exact congrArg _ (funext fun _ => ih)
    · next hunknown =>
      rw [withOption_of_not_known (Bool.eq_false_iff.mpr hunknown), Outcome.ok_bind, ih]

/-! ## Every order -/

theorem or_comm_iff {α : Type} {x x' y : Option α} :
    x'.or (x.or y) = x.or (x'.or y) ↔ ∀ a ∈ x, ∀ a' ∈ x', a = a' := by
  cases x <;> cases x' <;> simp [eq_comm]

/-- Options with different keys do not say anything about the same part. -/
theorem optionValue?_apart {α : Type} {name : String} {read : String → Json → Except ConfigFault α}
    (h : o.1 ≠ o'.1) :
    ∀ a ∈ optionValue? o name read, ∀ a' ∈ optionValue? o' name read, a = a' := by
  intro a ha a' ha'
  unfold optionValue? at ha ha'
  split at ha <;> split at ha' <;> simp_all

/-- The layers of options with different keys can be exchanged. -/
theorem overlay_comm (h : o.1 ≠ o'.1) :
    (c.overlay (optionLayer o)).overlay (optionLayer o') =
      (c.overlay (optionLayer o')).overlay (optionLayer o) := by
  have hmodels : Keyed.insertAll (optionLayer o').defaultModels
        (Keyed.insertAll (optionLayer o).defaultModels c.defaultModels) =
      Keyed.insertAll (optionLayer o).defaultModels
        (Keyed.insertAll (optionLayer o').defaultModels c.defaultModels) := by
    have hapart : ∀ l ∈ optionValue? o "default_models" optionModels,
        ∀ l' ∈ optionValue? o' "default_models" optionModels, l = l' := optionValue?_apart h
    simp only [optionLayer]
    cases hx : optionValue? o "default_models" optionModels with
    | none => rfl
    | some l =>
      cases hx' : optionValue? o' "default_models" optionModels with
      | none => rfl
      | some l' => rw [hapart l hx l' hx']
  simp only [overlay, Config.mk.injEq]
  refine ⟨?_, ?_, ?_, ?_, hmodels, ?_, ?_, ?_, ?_, rfl, rfl⟩
  case refine_4 => exact or_comm_iff.mpr (optionValue?_apart h)
  all_goals exact getD_comm_iff.mpr (optionValue?_apart h)

/-- The layers of options with distinct keys can be put on in any order. -/
theorem cover_perm (hkeys : (options.map (·.1)).Nodup) (hvisited : visited.Perm options) :
    c.cover (visited.map optionLayer) = c.cover (options.map optionLayer) := by
  rw [cover, cover, List.foldl_map, List.foldl_map]
  refine hvisited.foldl_eq' (fun o ho o' ho' c => ?_) c
  by_cases heq : o.1 = o'.1
  · rw [List.inj_on_of_nodup_map hkeys (hvisited.mem_iff.mp ho) (hvisited.mem_iff.mp ho') heq]
  · exact overlay_comm heq

/-- The options of a map are accepted in every order or in none, namely exactly if each known one
has a value of the shape that its key asks for. They come to the same configuration in all orders,
in which each says what it says alone, and the unknown ones might as well not be there. -/
theorem unordered (c : Config) {options : List (String × Json)}
    (hkeys : (options.map (·.1)).Nodup) :
    (∀ visited visited', visited.Perm options → visited'.Perm options →
      (c.withOptions visited).toOption = (c.withOptions visited').toOption) ∧
    ∀ visited, visited.Perm options →
      ((c.withOptions visited).isOk = true ↔ ∀ o ∈ options, FitsOption o) ∧
      (∀ c', c.withOptions visited = .ok c' → c' = c.cover (options.map optionLayer)) ∧
      c.withOptions visited = c.withOptions (visited.filter (isKnownOption ·.1)) := by
  -- What any order comes to, said without the order.
  have heq : ∀ visited, visited.Perm options → ∀ c', c.withOptions visited = .ok c' ↔
      (∀ o ∈ options, FitsOption o) ∧ c' = c.cover (options.map optionLayer) := by
    intro visited hvisited c'
    rw [withOptions_eq_ok_iff, cover_perm hkeys hvisited]
    simp only [hvisited.mem_iff]
  refine ⟨fun visited visited' h h' => ?_, fun visited h => ⟨?_, ?_, withOptions_filter.symm⟩⟩
  · refine Option.ext fun c' => ?_
    rw [Outcome.toOption_eq_some_iff, Outcome.toOption_eq_some_iff, heq visited h, heq visited' h']
  · rw [Outcome.isOk_iff]
    simp only [heq visited h, exists_and_left, exists_eq, and_true]
  · exact fun c' hc' => ((heq visited h c').mp hc').2

/-- Options as a panel of settings hands them over, some of which mean nothing here. -/
def panel : List (String × Json) :=
  [("theme", .str "dark"), ("enabled_tools", .str "search, format"),
    ("default_models", .obj [("local", .str "codellama")]),
    ("default_timeout_ms", .num (.int 5000)), ("font", .arr [.null, .bool true])]

/-- The options of the panel are accepted in both orders, with one result. -/
theorem unordered_of_panel :
    ∃ c' : Config, withOptions { workingDirectory := "/" } panel = .ok c' ∧
      withOptions { workingDirectory := "/" } panel.reverse = .ok c' ∧
      withOptions { workingDirectory := "/" } (panel.filter (isKnownOption ·.1)) = .ok c' ∧
      c'.enabledTools = some ["search", "format"] ∧ c'.defaultTimeout = 5000 := by
  have hkeys : (panel.map (·.1)).Nodup := by decide
  obtain ⟨hsame, hall⟩ := unordered { workingDirectory := "/" } hkeys
  obtain ⟨hok, hcover, hknown⟩ := hall panel (List.Perm.refl _)
  have hfits : ∀ o ∈ panel, FitsOption o := by
    have hword : (Json.num (.int 5000)).IsWord := ⟨5000, by decide, rfl⟩
    simp [panel, FitsOption, optionShapes, Json.IsNames, Json.IsString, Json.IsNameTable, hword]
  obtain ⟨c', hc'⟩ := Outcome.isOk_iff.mp (hok.mpr hfits)
  refine ⟨c', hc', ?_, hknown.symm.trans hc', ?_, ?_⟩
  · have hreverse := hsame panel.reverse panel (List.reverse_perm _) (List.Perm.refl _)
    exact Outcome.toOption_eq_some_iff.mp (hreverse.trans (congrArg Except.toOption hc'))
  · rw [hcover c' hc']
    decide +kernel
  · rw [hcover c' hc']
    decide +kernel

end Config

end Switchboard
