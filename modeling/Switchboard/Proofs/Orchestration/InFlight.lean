import Mathlib.Data.List.Nodup
import Switchboard.Orchestration.InFlight
import Switchboard.Proofs.Keyed

/-!
# Requests in flight as a finite map

As long as no identifier has two entries, looking up an identifier finds exactly its entry.
Registering adds one entry under a free identifier (`register_eq_ok_iff`), removing takes out the
entry of an identifier (`mem_remove`), and deregistering an execution takes out its own entry
and no other (`Distinct.mem_deregister`). All three keep the entries distinct.
-/

namespace Switchboard.InFlight

variable {f f' : InFlight} {id : RequestId} {generation : Nat}

/-- No identifier has two entries. -/
def Distinct (f : InFlight) : Prop :=
  (f.entries.map (·.1)).Nodup

theorem mem_of_generation? (h : f.generation? id = some generation) :
    (id, generation) ∈ f.entries :=
  Keyed.mem_of_lookup_eq_some h

/-- An identifier is free exactly if it has no entry. -/
theorem generation?_eq_none_iff :
    f.generation? id = none ↔ ∀ generation, (id, generation) ∉ f.entries :=
  Keyed.lookup_eq_none_iff

/-- Of distinct entries, those of one identifier agree. -/
theorem Distinct.eq_of_mem {g g' : Nat} (hf : f.Distinct) (h : (id, g) ∈ f.entries)
    (h' : (id, g') ∈ f.entries) : g = g' :=
  congrArg Prod.snd (List.inj_on_of_nodup_map hf h h' rfl)

/-- Of distinct entries, the one of an identifier is found. -/
theorem Distinct.generation?_eq_some_iff (hf : f.Distinct) :
    f.generation? id = some generation ↔ (id, generation) ∈ f.entries := by
  refine ⟨mem_of_generation?, fun h => ?_⟩
  cases hg : f.generation? id with
  | none => exact absurd h (generation?_eq_none_iff.mp hg generation)
  | some generation' => rw [hf.eq_of_mem h (mem_of_generation? hg)]

/-- Of distinct entries, an execution is held exactly if it has one. -/
theorem Distinct.holds_iff (hf : f.Distinct) :
    f.holds id generation = true ↔ (id, generation) ∈ f.entries := by
  rw [holds, decide_eq_true_iff, hf.generation?_eq_some_iff]

/-- A request is refused exactly if its identifier is in flight. -/
theorem register_eq_error_iff {x : RequestFailure} :
    f.register id = .error x ↔ x = .duplicate id ∧ ∃ generation, (id, generation) ∈ f.entries := by
  unfold register
  cases hg : f.generation? id with
  | none =>
    have := generation?_eq_none_iff.mp hg
    simp [this]
  | some generation =>
    have := mem_of_generation? hg
    simp only [Except.error.injEq]
    exact ⟨fun h => ⟨h.symm, generation, this⟩, fun h => h.1.symm⟩

/-- A request that is taken in gets the next generation, and its identifier was free. -/
theorem register_eq_ok_iff :
    f.register id = .ok (generation, f') ↔
      (∀ generation', (id, generation') ∉ f.entries) ∧ generation = f.lastGeneration + 1 ∧
        f' = ⟨f.entries ++ [(id, generation)], generation⟩ := by
  unfold register
  cases hg : f.generation? id with
  | none =>
    have hfree := generation?_eq_none_iff.mp hg
    simp only [Except.ok.injEq, Prod.mk.injEq]
    constructor
    · rintro ⟨rfl, rfl⟩
      exact ⟨hfree, rfl, rfl⟩
    · rintro ⟨-, rfl, rfl⟩
      exact ⟨rfl, rfl⟩
  | some generation' =>
    have := mem_of_generation? hg
    simp only [reduceCtorEq, false_iff, not_and]
    intro hfree
    exact absurd this (hfree generation')

/-- Registering keeps entries distinct. -/
theorem Distinct.register (hf : f.Distinct) (h : f.register id = .ok (generation, f')) :
    f'.Distinct := by
  obtain ⟨hfree, -, rfl⟩ := register_eq_ok_iff.mp h
  have hnew : id ∉ f.entries.map (·.1) := by
    intro hmem
    obtain ⟨⟨id', generation'⟩, hin, rfl⟩ := List.mem_map.mp hmem
    exact hfree generation' hin
  simpa [Distinct, List.nodup_append] using ⟨hf, fun a g hmem heq =>
    hnew (heq ▸ List.mem_map.mpr ⟨(a, g), hmem, rfl⟩)⟩

@[simp] theorem mem_remove {e : RequestId × Nat} :
    e ∈ (f.remove id).entries ↔ e ∈ f.entries ∧ e.1 ≠ id := by
  simp [remove]

theorem Distinct.remove (hf : f.Distinct) : (f.remove id).Distinct :=
  hf.sublist ((List.filter_sublist (l := f.entries)).map (·.1))

@[simp] theorem lastGeneration_deregister :
    (f.deregister id generation).lastGeneration = f.lastGeneration := by
  unfold deregister
  split <;> rfl

/-- Deregistering takes out one entry at most, the one that is named. -/
theorem Distinct.mem_deregister (hf : f.Distinct) {e : RequestId × Nat} :
    e ∈ (f.deregister id generation).entries ↔ e ∈ f.entries ∧ e ≠ (id, generation) := by
  unfold deregister
  split
  case isTrue h =>
    have hin := hf.holds_iff.mp h
    rw [mem_remove]
    refine and_congr_right fun he => not_congr ⟨?_, fun heq => heq ▸ rfl⟩
    rintro rfl
    exact Prod.ext rfl (hf.eq_of_mem he hin)
  case isFalse h =>
    have hout := fun hin => h (hf.holds_iff.mpr hin)
    exact ⟨fun he => ⟨he, fun heq => hout (heq ▸ he)⟩, And.left⟩

theorem Distinct.deregister (hf : f.Distinct) : (f.deregister id generation).Distinct := by
  unfold InFlight.deregister
  split
  · exact hf.remove
  · exact hf

/-- Deregistering an execution that is not in flight changes nothing. -/
theorem deregister_of_not_holds (h : f.holds id generation = false) :
    f.deregister id generation = f := by
  simp [deregister, h]

end Switchboard.InFlight
