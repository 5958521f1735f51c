import Switchboard.Proofs.Config.Layering
import Switchboard.Proofs.Splitting
import Switchboard.Proofs.Words

/-!
# Comma-separated lists

A comma parts a list for good (`splitNames_append`), and a text without one holds at most one
entry, the text without outer white space (`commaList_of_not_mem`). So the entries of a list are in
a normal form that is read as itself (`splitNames_intercalate`). Enabled tools that are given as a
list, in a variable or an option, are those given as an array of its entries, and none of them is
blank (`normal_lists`).
-/

namespace Switchboard

namespace Text

variable {s piece : List Char}

/-- The entries of two lists with a comma between them are those of the one and of the other. -/
theorem commaList_append (s t : List Char) :
    commaList (s ++ ',' :: t) = commaList s ++ commaList t := by
  simp [commaList, List.splitOn_append_cons_self]

/-- A text without a comma holds one entry, or none if it is blank. -/
theorem commaList_of_not_mem (h : ',' ∉ s) :
    commaList s = if trim s = [] then [] else [trim s] := by
  rw [commaList, List.splitOn_eq_singleton h, List.map_singleton, List.filter_singleton]
  cases trim s <;> simp

/-- An entry of a list is not empty, and has neither commas nor white space at its ends. -/
theorem mem_commaList (h : piece ∈ commaList s) :
    piece ≠ [] ∧ ',' ∉ piece ∧ trim piece = piece := by
  obtain ⟨hpiece, hne⟩ := List.mem_filter.mp h
  obtain ⟨part, hpart, rfl⟩ := List.mem_map.mp hpiece
  refine ⟨by simpa using hne, fun hcomma => ?_, strip_strip isBlank part⟩
  exact (mem_of_mem_splitOn hpart (strip_subset isBlank part hcomma)).2 rfl

end Text

namespace Config

variable {name : String} {l : List String}

/-- A name that may stand in a comma-separated list. -/
structure IsListEntry (name : String) : Prop where
  nonempty : name ≠ ""
  noComma : ',' ∉ name.toList
  trimmed : Text.trimmed name = name

theorem IsListEntry.trim_toList (h : IsListEntry name) : Text.trim name.toList = name.toList := by
  rw [← String.ofList_inj, String.ofList_toList]
  exact h.trimmed

/-- A name in a list has a character that is not white space. -/
theorem IsListEntry.isBlankString_eq_false (h : IsListEntry name) :
    Text.isBlankString name = false := by
  rw [Text.isBlankString, ← Bool.not_eq_true, List.all_eq_true]
  intro hblank
  have hnil : Text.trim name.toList = [] := Text.strip_eq_nil_iff.mpr hblank
  rw [h.trim_toList, String.toList_eq_nil_iff] at hnil
  exact h.nonempty hnil

/-! ## Lists -/

/-- What is read from a list is an entry. -/
theorem isListEntry_of_mem_splitNames {s : String} (h : name ∈ splitNames s) :
    IsListEntry name := by
  obtain ⟨piece, hpiece, rfl⟩ := List.mem_map.mp h
  obtain ⟨hne, hcomma, htrim⟩ := Text.mem_commaList hpiece
  refine ⟨by simpa using hne, by simpa using hcomma, ?_⟩
  rw [Text.trimmed, String.toList_ofList, htrim]

/-- The names of two lists with a comma between them are those of the one and of the other. -/
theorem splitNames_append (s t : String) :
    splitNames (s ++ "," ++ t) = splitNames s ++ splitNames t := by
  rw [splitNames, splitNames, splitNames, ← List.map_append, ← Text.commaList_append]
  simp

/-- An entry by itself is read as a list of one name. -/
theorem splitNames_of_isListEntry (h : IsListEntry name) : splitNames name = [name] := by
  have hne : Text.trim name.toList ≠ [] := by
    rw [h.trim_toList]
    simpa using h.nonempty
  rw [splitNames, Text.commaList_of_not_mem h.noComma, if_neg hne, h.trim_toList,
    List.map_singleton, String.ofList_toList]

/-- Entries with commas between them are read as they are. -/
theorem splitNames_intercalate (h : ∀ name ∈ l, IsListEntry name) :
    splitNames (",".intercalate l) = l := by
  induction l with
  | nil => rfl
  | cons name rest ih =>
    obtain ⟨hname, hrest⟩ := List.forall_mem_cons.mp h
    cases rest with
    | nil => exact splitNames_of_isListEntry hname
    | cons next rest =>
      rw [String.intercalate_cons_of_ne_nil (by simp), splitNames_append,
        splitNames_of_isListEntry hname, ih hrest]
      rfl

/-! ## Enabled tools as a list -/

variable {c c' : Config} {vars : Environment} {key : String}

theorem optionNames_ofList (key : String) (l : List String) :
    optionNames key (Json.ofList .str l) = .ok l := by
  rw [Json.ofList, optionNames]
  induction l with
  | nil => rfl
  | cons name rest ih =>
    rw [List.map_cons, List.mapM_cons, ih]
    rfl

/-- An array of names sets the tools to those names. -/
theorem withOption_ofList (c : Config) (l : List String) :
    c.withOption "enabled_tools" (Json.ofList .str l) = .ok { c with enabledTools := some l } := by
  simp [withOption, optionNames_ofList]

/-- A list as a text says the same as the array of its entries. -/
theorem withOption_str (c : Config) (s : String) : c.withOption "enabled_tools" (.str s) =
    c.withOption "enabled_tools" (Json.ofList .str (splitNames s)) := by
  rw [withOption_ofList]
  rfl

/-- Where two options do the same, one may stand for the other. -/
theorem withOptions_congr {o o' : String × Json}
    (h : ∀ c : Config, c.withOption o.1 o.2 = c.withOption o'.1 o'.2)
    (c : Config) (before after : List (String × Json)) :
    c.withOptions (before ++ o :: after) = c.withOptions (before ++ o' :: after) := by
  induction before generalizing c with
  | nil => rw [List.nil_append, List.nil_append, withOptions, withOptions, h]
  | cons p rest ih =>
    rw [List.cons_append, List.cons_append, withOptions, withOptions]
    exact congrArg _ (funext ih)

/-- An environment without a variable. -/
def unset (vars : Environment) (key : String) : Environment :=
  vars.filter (·.1 ≠ key)

theorem lookup_unset {key' : String} (h : key ≠ key') :
    (unset vars key').lookup key = vars.lookup key := by
  rw [unset, Keyed.lookup_filter_ne, if_neg h.symm]

theorem lookup_unset_self : (unset vars key).lookup key = none := by
  rw [unset, Keyed.lookup_filter_ne, if_pos rfl]

/-- A change that a variable does not look at may be made before the variable is read or after. -/
theorem applyVariable_bind {α : Type} {vars' : Environment} {read : String → Except String α}
    {set : Config → α → Config} {g : Config → Config} {f f' : Config → Except ConfigFault Config}
    (hfind : vars'.lookup key = vars.lookup key)
    (hset : ∀ c a, set (g c) a = g (set c a)) (hf : ∀ c, f (g c) = f' c) (c : Config) :
    (applyVariable vars key read set (g c) >>= f) =
      (applyVariable vars' key read set c >>= f') := by
  unfold applyVariable
  rw [hfind]
  cases vars.lookup key with
  | none => exact hf c
  | some text => cases hread : read text <;> simp [hread, hset, hf]

/-- A list in a variable says the same as the environment without it, followed by the option with
the array of its entries. -/
theorem withEnvironment_eq {s : String} (h : vars.lookup "MAESTRO_ENABLED_TOOLS" = some s)
    (c : Config) : c.withEnvironment vars =
      (c.withEnvironment (unset vars "MAESTRO_ENABLED_TOOLS") >>= fun c' =>
        c'.withOption "enabled_tools" (Json.ofList .str (splitNames s))) := by
  simp only [withEnvironment, bind_assoc, withOption_ofList]
  refine applyVariable_bind (g := id) (lookup_unset (by decide)) (fun _ _ => by rfl) (fun c => ?_) c
  refine applyVariable_bind (g := id) (lookup_unset (by decide)) (fun _ _ => by rfl) (fun c => ?_) c
  refine applyVariable_bind (g := id) (lookup_unset (by decide)) (fun _ _ => by rfl) (fun c => ?_) c
  rw [applyVariable, applyVariable, h, lookup_unset_self]
  -- The tools are set; what is read after them does not look at them.
  let g (c : Config) : Config := { c with enabledTools := some (splitNames s) }
  refine applyVariable_bind (g := g) (lookup_unset (by decide)) (fun _ _ => by rfl) (fun c => ?_) c
  refine applyVariable_bind (g := g) (lookup_unset (by decide)) (fun _ _ => by rfl) (fun c => ?_) c
  refine applyVariable_bind (g := g) (lookup_unset (by decide)) (fun _ _ => by rfl) (fun c => ?_) c
  rw [← bind_pure (applyVariable vars _ _ _ _)]
  exact applyVariable_bind (g := g) (lookup_unset (by decide)) (fun _ _ => by rfl) (fun _ => rfl) c

end Config

namespace ConfigStep

open ConfigLayer (last)

variable {fs : FileSystem} {directory : String} {before after : List ConfigStep}
  {step : ConfigStep} {c : Config} {s : String}

/-- The step gives the enabled tools as a list in a text. -/
def GivesToolList (s : String) : ConfigStep → Prop
  | environment vars => vars.lookup "MAESTRO_ENABLED_TOOLS" = some s
  | options l => l.reverse.lookup "enabled_tools" = some (.str s)
  | _ => False

/-- The step leaves the enabled tools as they are. -/
structure SparesTools (fs : FileSystem) (step : ConfigStep) : Prop where
  isEnvironment : step.isEnvironment = false
  enabledTools : ∀ layer ∈ step.layers fs, layer.enabledTools = none

/-- The last option under a name counts. -/
theorem findSome?_optionValue? {α : Type} {l : List (String × Json)} {name : String} {j : Json}
    {a : α} {read : String → Json → Except ConfigFault α} (h : l.lookup name = some j)
    (hread : read name j = .ok a) :
    l.findSome? (Config.optionValue? · name read) = some a := by
  induction l with
  | nil => cases h
  | cons option rest ih =>
    rw [Keyed.lookup_cons_eq_ite] at h
    rw [List.findSome?_cons, Config.optionValue?]
    split at h
    · next hname =>
      rw [if_pos hname, Option.some.inj h, hread]
      rfl
    · next hname =>
      rw [if_neg hname]
      exact ih h

/-- A step that gives a list of tools says last what the list says. -/
theorem last_layers_of_givesToolList (h : step.GivesToolList s) :
    last (step.layers fs) (·.enabledTools) = some (Config.splitNames s) := by
  cases step with
  | environment vars =>
    rw [GivesToolList] at h
    have htext : vars.value? "MAESTRO_ENABLED_TOOLS" (fun s => .ok (Config.splitNames s)) =
        some (Config.splitNames s) := by
      rw [Environment.value?, h]
      rfl
    rw [layers, Config.last_singleton]
    exact htext
  | options l =>
    rw [layers, last, ← List.map_reverse, List.findSome?_map]
    exact findSome?_optionValue? h rfl
  | _ => cases h

/-- The list of tools stands if no later step says anything about tools. -/
theorem last_layersOf_of_givesToolList (h : step.GivesToolList s)
    (hafter : ∀ later ∈ after, later.SparesTools fs) :
    last (layersOf fs (before ++ step :: after)) (·.enabledTools) =
      some (Config.splitNames s) := by
  induction after using List.reverseRecOn with
  | nil => rw [layersOf_concat, Config.last_append, last_layers_of_givesToolList h, Option.some_or]
  | append_singleton earlier later ih =>
    rw [List.forall_mem_append, List.forall_mem_singleton] at hafter
    have hnone : last (later.layers fs) (·.enabledTools) = none := by
      rw [last, List.findSome?_eq_none_iff]
      exact fun layer hlayer => hafter.2.enabledTools layer (List.mem_reverse.mp hlayer)
    rw [← List.cons_append, ← List.append_assoc, layersOf_concat, hafter.2.isEnvironment,
      Config.last_append, hnone, Option.none_or]
    exact ih hafter.1

/-- A list that a step gives stands until it is replaced. -/
theorem enabledTools_of_givesToolList (h : step.GivesToolList s)
    (hafter : ∀ later ∈ after, later.SparesTools fs)
    (hrun : (before ++ step :: after).foldlM (apply fs directory)
      { workingDirectory := directory } = .ok c) :
    c.enabledTools = some (Config.splitNames s) := by
  have htools := congrArg Config.enabledTools (agreesOutsideSections_of_foldlM hrun)
  have hlast : last (layersOf fs (before ++ step :: after)) (·.enabledTools) =
      some (Config.splitNames s) :=
    last_layersOf_of_givesToolList h hafter
  rw [← htools, ← hlast]
  exact (Config.cover_or (·.enabledTools) fun _ _ => rfl).trans (Option.or_none)

end ConfigStep

namespace Config

open Outcome

/-- No name in a list is blank. -/
theorem fault?_ne_of_splitNames {c : Config} {s : String}
    (h : c.enabledTools = some (splitNames s)) :
    c.fault? ≠ some "enabled_tools cannot contain empty names" := by
  intro hfault
  have hblank := hasBlankTool_of_fault? hfault
  rw [hasBlankTool, h] at hblank
  obtain ⟨name, hname, hblank⟩ := List.any_eq_true.mp hblank
  rw [(isListEntry_of_mem_splitNames hname).isBlankString_eq_false] at hblank
  cases hblank

/-- A list in a text is read as entries, entries with commas between them are read as themselves,
and a comma parts a list into two. So the enabled tools that a variable or an option gives as a text
are those that an array of its entries gives; and while they stand, no name of an enabled tool is
found to be blank. -/
theorem normal_lists :
    (∀ s, (∀ name ∈ splitNames s, IsListEntry name) ∧
      splitNames (",".intercalate (splitNames s)) = splitNames s) ∧
    (∀ l : List String, (∀ name ∈ l, IsListEntry name) →
      splitNames (",".intercalate l) = l) ∧
    (∀ s t, splitNames (s ++ "," ++ t) = splitNames s ++ splitNames t) ∧
    (∀ (c : Config) s before after,
      c.withOptions (before ++ ("enabled_tools", .str s) :: after) =
        c.withOptions (before ++ ("enabled_tools", Json.ofList .str (splitNames s)) :: after)) ∧
    (∀ (c : Config) vars s, vars.lookup "MAESTRO_ENABLED_TOOLS" = some s →
      c.withEnvironment vars =
        (c.withEnvironment (unset vars "MAESTRO_ENABLED_TOOLS") >>= fun c' =>
          c'.withOption "enabled_tools" (Json.ofList .str (splitNames s)))) ∧
    ∀ fs directory before (step : ConfigStep) after s, step.GivesToolList s →
      (∀ later ∈ after, later.SparesTools fs) →
        (∀ c : Config, (before ++ step :: after).foldlM (ConfigStep.apply fs directory)
          { workingDirectory := directory } = .ok c → c.enabledTools = some (splitNames s)) ∧
        ofSteps fs directory (before ++ step :: after) ≠
          .error (.invalid "enabled_tools cannot contain empty names") := by
  have hentries (s : String) : ∀ name ∈ splitNames s, IsListEntry name :=
    fun _ => isListEntry_of_mem_splitNames
  refine ⟨fun s => ⟨hentries s, splitNames_intercalate (hentries s)⟩,
    fun l => splitNames_intercalate, splitNames_append,
    fun c s => withOptions_congr (fun c => withOption_str c s) c,
    fun c vars s hvars => withEnvironment_eq hvars c, ?_⟩
  intro fs directory before step after s hgives hafter
  refine ⟨fun c => ConfigStep.enabledTools_of_givesToolList hgives hafter, fun hinvalid => ?_⟩
  obtain ⟨c, hrun, hfault⟩ := ofSteps_eq_invalid_iff.mp hinvalid
  have htools := ConfigStep.enabledTools_of_givesToolList hgives hafter hrun
  exact fault?_ne_of_splitNames htools hfault

/-- A list with empty places in a variable, and then one with white space in an option. -/
def ragged : List ConfigStep :=
  [.environment [("MAESTRO_ENABLED_TOOLS", ",,")], .options [("enabled_tools", .str " a, ,b ,")],
    .knowledgeLimit 3]

/-- A ragged list is brought into normal form. -/
theorem normal_lists_of_ragged : splitNames " a, ,b ," = ["a", "b"] ∧
    ∃ c, ragged.foldlM (ConfigStep.apply .empty "/") { workingDirectory := "/" } = .ok c ∧
      c.enabledTools = some ["a", "b"] := by
  have hsplit : splitNames " a, ,b ," = ["a", "b"] := by
    decide +kernel
  have hspares : ∀ later ∈ [ConfigStep.knowledgeLimit 3], later.SparesTools .empty := by
    rw [List.forall_mem_singleton]
    exact ⟨rfl, List.forall_mem_singleton.mpr rfl⟩
  have hok :
      (ragged.foldlM (ConfigStep.apply .empty "/") { workingDirectory := "/" }).isOk = true := by
    decide +kernel
  obtain ⟨c, hrun⟩ := isOk_iff.mp hok
  obtain ⟨-, -, -, -, -, hsteps⟩ := normal_lists
  have htools := (hsteps .empty "/" [_] (.options [("enabled_tools", .str " a, ,b ,")]) [_]
    " a, ,b ," rfl hspares).1 c hrun
  exact ⟨hsplit, c, hrun, hsplit ▸ htools⟩

end Config

end Switchboard
