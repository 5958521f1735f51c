import Mathlib.Data.List.Forall2
import Switchboard.Model.Registry
import Switchboard.Proofs.Model.Selection

/-!
# Selections and providers that are down

A provider that is unavailable or cannot list its models offers none, so that a selection takes
place among the models of the others (`ModelRegistry.offered_reachable`). When further providers go
down, the models that remain are in the order they were in (`ModelRegistry.sublist_offered`). The
selected model stays the first of least rank as long as the provider that listed it is up
(`undisturbed`).
-/

namespace Switchboard

namespace Provider

variable {p p' : Provider}

/-- The provider is available and lists its models. -/
def isReachable (p : Provider) : Bool :=
  p.available && p.listing.isOk

/-- `p'` is `p`, or `p` when it is unavailable or fails to list its models. -/
inductive Outage (p : Provider) : Provider → Prop
  | up : Outage p p
  | down {available : Bool} {listing : Except ProviderFailure (List ModelDescriptor)}
      (h : available = true → ∃ f, listing = .error f) : Outage p { p with available, listing }

/-- A provider offers what it lists while it is available. -/
theorem getElem?_offered_iff {n : ℕ} {m : ModelDescriptor} :
    p.offered[n]? = some m ↔
      p.available = true ∧ ∃ models, p.listing = .ok models ∧ models[n]? = some m := by
  unfold offered
  cases p.available <;> cases p.listing <;> simp

/-- A provider offers nothing exactly if it is unavailable, fails to list or lists nothing. -/
theorem offered_eq_nil_iff :
    p.offered = [] ↔ (p.available = true → ∀ models, p.listing = .ok models → models = []) := by
  unfold offered
  cases p.available <;> cases p.listing <;> simp

theorem offered_eq_nil_of_not_isReachable (h : p.isReachable = false) : p.offered = [] := by
  rw [offered_eq_nil_iff]
  rintro ha models hl
  simp [isReachable, ha, hl, Except.isOk, Except.toBool] at h

/-- A provider that is down offers nothing new. -/
theorem Outage.sublist_offered (h : p.Outage p') : p'.offered.Sublist p.offered := by
  cases h with
  | up => exact List.Sublist.refl _
  | down h =>
    rw [offered_eq_nil_iff.mpr fun ha models hl => by obtain ⟨f, hf⟩ := h ha; simp [hf] at hl]
    exact List.nil_sublist _

end Provider

namespace ModelRegistry

variable {r r' : ModelRegistry} {names : List String} {provider : Option String} {k n : ℕ}
  {m : ModelDescriptor}

/-- The registry without the providers that cannot be reached. -/
def reachable (r : ModelRegistry) : ModelRegistry where
  providers := r.providers.filter Provider.isReachable

/-- Any of the providers of `r` may be down in `r'`. -/
def Outages (r r' : ModelRegistry) : Prop :=
  List.Forall₂ Provider.Outage r.providers r'.providers

/-- The first of the offered models of least rank is the one that the provider at position `k`
lists at position `n`. -/
def Supplies (r : ModelRegistry) (names : List String) (provider : Option String) (k n : ℕ)
    (m : ModelDescriptor) : Prop :=
  (∃ p models, r.providers[k]? = some p ∧ p.available = true ∧ p.listing = .ok models ∧
    models[n]? = some m) ∧
  IsFirstLeast (SelectionPolicy.rank names provider) r.offered
    (((r.providers.take k).flatMap Provider.offered).length + n) m

/-- The providers that cannot be reached offer nothing. -/
theorem offered_reachable : r.reachable.offered = r.offered := by
  obtain ⟨ps⟩ := r
  simp only [reachable, offered]
  induction ps with
  | nil => rfl
  | cons p ps ih =>
    rw [List.filter_cons, List.flatMap_cons]
    split
    · rw [List.flatMap_cons, ih]
    · next h =>
      rw [ih, Provider.offered_eq_nil_of_not_isReachable (by simpa using h), List.nil_append]

/-- Providers of which some are down offer nothing new. -/
theorem sublist_offered {ps ps' : List Provider} (h : List.Forall₂ Provider.Outage ps ps') :
    (ps'.flatMap Provider.offered).Sublist (ps.flatMap Provider.offered) := by
  induction h with
  | nil => exact List.Sublist.refl _
  | cons h _ ih => exact h.sublist_offered.append ih

/-- What is offered around the model that the provider at position `k` offers at position `n`. -/
theorem offered_eq_append {p : Provider} (hp : r.providers[k]? = some p)
    (hn : p.offered[n]? = some m) :
    r.offered = ((r.providers.take k).flatMap Provider.offered ++ p.offered.take n) ++
      m :: (p.offered.drop (n + 1) ++ (r.providers.drop (k + 1)).flatMap Provider.offered) := by
  obtain ⟨hk, rfl⟩ := List.getElem?_eq_some_iff.mp hp
  obtain ⟨hn, rfl⟩ := List.getElem?_eq_some_iff.mp hn
  calc r.offered
      = (r.providers.take k ++ r.providers[k] :: r.providers.drop (k + 1)).flatMap
          Provider.offered := by rw [List.getElem_cons_drop, List.take_append_drop]; rfl
    _ = (r.providers.take k).flatMap Provider.offered ++
          ((r.providers[k].offered.take n ++ r.providers[k].offered[n] ::
            r.providers[k].offered.drop (n + 1)) ++
              (r.providers.drop (k + 1)).flatMap Provider.offered) := by
        rw [List.flatMap_append, List.flatMap_cons, List.getElem_cons_drop,
          List.take_append_drop]
    _ = _ := by simp only [List.append_assoc, List.cons_append]

/-- Every offered model is offered by some provider. -/
theorem exists_provider_of_getElem? {ps : List Provider} {i : ℕ}
    (h : (ps.flatMap Provider.offered)[i]? = some m) :
    ∃ k n p, ps[k]? = some p ∧ p.offered[n]? = some m ∧
      i = ((ps.take k).flatMap Provider.offered).length + n := by
  induction ps generalizing i with
  | nil => simp at h
  | cons p ps ih =>
    rw [List.flatMap_cons] at h
    by_cases hi : i < p.offered.length
    · rw [List.getElem?_append_left hi] at h
      exact ⟨0, i, p, rfl, h, by simp⟩
    · rw [List.getElem?_append_right (by omega)] at h
      obtain ⟨k, n, q, hq, hn, hi'⟩ := ih h
      refine ⟨k + 1, n, q, hq, hn, ?_⟩
      rw [List.take_succ_cons, List.flatMap_cons, List.length_append]
      omega

/-- The model that is chosen has a supplier. -/
theorem exists_supplies {i : ℕ}
    (h : IsFirstLeast (SelectionPolicy.rank names provider) r.offered i m) :
    ∃ k n, r.Supplies names provider k n m := by
  obtain ⟨k, n, p, hp, hn, rfl⟩ := exists_provider_of_getElem? h.1
  obtain ⟨ha, models, hl, hm⟩ := Provider.getElem?_offered_iff.mp hn
  exact ⟨k, n, ⟨p, models, hp, ha, hl, hm⟩, h⟩

/-- A provider that is up supplies what it supplied before others went down. -/
theorem Supplies.of_outages (h : r.Supplies names provider k n m) (ho : r.Outages r')
    (hk : r'.providers[k]? = r.providers[k]?) : r'.Supplies names provider k n m := by
  obtain ⟨⟨p, models, hp, ha, hl, hm⟩, hleast⟩ := h
  refine ⟨⟨p, models, hk.trans hp, ha, hl, hm⟩, ?_⟩
  have hn : p.offered[n]? = some m := Provider.getElem?_offered_iff.mpr ⟨ha, models, hl, hm⟩
  have hlt : n < p.offered.length := (List.getElem?_eq_some_iff.mp hn).1
  have hlength : ∀ ms : List ModelDescriptor, ms.length + n = (ms ++ p.offered.take n).length :=
    fun ms => by rw [List.length_append, List.length_take_of_le hlt.le]
  rw [offered_eq_append hp hn, hlength] at hleast
  rw [offered_eq_append (hk.trans hp) hn, hlength]
  exact hleast.sublist
    ((sublist_offered (List.forall₂_take k ho)).append (List.Sublist.refl _))
    ((List.Sublist.refl _).append (sublist_offered (List.forall₂_drop (k + 1) ho)))

end ModelRegistry

open ModelRegistry in
/-- A selection takes place among the providers that can be reached. It fails exactly if none of
them lists a model. It gives a model that some provider lists, and whichever other providers go
down, it gives the same model. -/
theorem undisturbed (r : ModelRegistry) (policy : SelectionPolicy) (kind : RequestKind)
    (model provider : Option String) :
    let names := model.toList ++ policy.preferences kind
    r.select policy kind model provider = r.reachable.select policy kind model provider ∧
    (∀ f, r.select policy kind model provider = .error f ↔
      f = .noModels ∧ ∀ p ∈ r.providers, p.available = true →
        ∀ models, p.listing = .ok models → models = []) ∧
    (∀ m, r.select policy kind model provider = .ok m ↔ ∃ k n, r.Supplies names provider k n m) ∧
    ∀ k n m, r.Supplies names provider k n m → ∀ r', r.Outages r' →
      r'.providers[k]? = r.providers[k]? → r'.select policy kind model provider = .ok m := by
  have hok : ∀ (r : ModelRegistry) m, r.select policy kind model provider = .ok m ↔
      ∃ k n, r.Supplies (model.toList ++ policy.preferences kind) provider k n m := fun r m =>
    SelectionPolicy.select_eq_ok_iff.trans
      ⟨fun ⟨_, h⟩ => exists_supplies h, fun ⟨_, _, h⟩ => ⟨_, h.2⟩⟩
  refine ⟨?_, fun f => ?_, hok r, fun k n m h r' ho hk => ?_⟩
  · rw [ModelRegistry.select, ModelRegistry.select, offered_reachable]
  · rw [ModelRegistry.select, SelectionPolicy.select_eq_error_iff, and_comm]
    simp only [offered, List.flatMap_eq_nil_iff, Provider.offered_eq_nil_iff]
  · exact (hok r' m).mpr ⟨k, n, h.of_outages ho hk⟩

end Switchboard
