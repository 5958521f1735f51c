import Mathlib.Data.String.Basic
import Switchboard.Keyed

/-!
# Lists in order of their keys

What a list of pairs holds is told by looking its keys up. Setting a key changes what is held under
that key alone (`lookup_insert`) and keeps the keys rising (`Rising.insert`), and of the values set
one after the other the last one counts (`lookup_insertAll`).
-/

namespace Switchboard.Keyed

section Lookup

variable {κ α : Type} [BEq κ] [LawfulBEq κ] {l : List (κ × α)} {key : κ} {a : α}

/-- What is found under a key is held under it. -/
theorem mem_of_lookup_eq_some (h : l.lookup key = some a) : (key, a) ∈ l := by
  obtain ⟨l₁, l₂, rfl, -⟩ := List.lookup_eq_some_iff.mp h
  exact List.mem_append_right l₁ List.mem_cons_self

/-- Nothing is found under a key exactly if no pair has it. -/
theorem lookup_eq_none_iff : l.lookup key = none ↔ ∀ a, (key, a) ∉ l := by
  rw [List.lookup_eq_none_iff]
  constructor
  · intro h a hmem
    simpa using h _ hmem
  · rintro h ⟨k, a⟩ hmem
    rw [bne_iff_ne]
    rintro rfl
    exact h a hmem

/-- Something is found under a key exactly if it is one of the keys. -/
theorem isSome_lookup_iff : (l.lookup key).isSome ↔ key ∈ l.map (·.1) := by
  simp [List.lookup_isSome_iff, eq_comm (a := key)]

theorem lookup_eq_none (h : key ∉ l.map (·.1)) : l.lookup key = none :=
  Option.not_isSome_iff_eq_none.mp (mt isSome_lookup_iff.mp h)

variable [DecidableEq κ]

/-- The first pair under a key counts. -/
theorem lookup_cons_eq_ite {p : κ × α} :
    (p :: l).lookup key = if p.1 = key then some p.2 else l.lookup key := by
  rw [List.lookup_cons]
  by_cases h : p.1 = key
  · simp [h]
  · simp [h, beq_eq_false_iff_ne.2 (Ne.symm h)]

/-- Where keys are distinct, each pair is found under its key. -/
theorem lookup_of_mem (hkeys : (l.map (·.1)).Nodup) (h : (key, a) ∈ l) : l.lookup key = some a := by
  induction l with
  | nil => cases h
  | cons p rest ih =>
    obtain ⟨hp, hrest⟩ := List.nodup_cons.1 (List.map_cons ▸ hkeys)
    rcases List.mem_cons.1 h with rfl | h
    · exact List.lookup_cons_self
    · have hne : key ≠ p.1 := fun heq => hp (heq ▸ List.mem_map_of_mem (f := (·.1)) h)
      rw [lookup_cons_eq_ite, if_neg hne.symm, ih hrest h]

/-- Leaving out the pairs under one key changes what is found under that key alone. -/
theorem lookup_filter_ne (key' : κ) : (l.filter (·.1 ≠ key')).lookup key =
    if key' = key then none else l.lookup key := by
  induction l with
  | nil => simp
  | cons p rest ih =>
    rw [List.filter_cons]
    split
    · next hp =>
      rw [lookup_cons_eq_ite, lookup_cons_eq_ite, ih]
      by_cases hkey : p.1 = key
      · simp [← hkey, Ne.symm (of_decide_eq_true hp)]
      · simp [hkey]
    · next hp =>
      have hp : p.1 = key' := by simpa using hp
      rw [ih, lookup_cons_eq_ite, hp]
      by_cases hkey : key' = key <;> simp [hkey]

end Lookup

variable {α : Type} {l : List (String × α)} {key : String} {a : α}

/-- Setting a key changes what is found under that key alone. -/
theorem lookup_insert {key' : String} :
    (insert key' a l).lookup key = if key' = key then some a else l.lookup key := by
  induction l with
  | nil => exact lookup_cons_eq_ite
  | cons p rest ih =>
    rw [insert]
    by_cases hlt : key' < p.1
    · rw [if_pos hlt]
      exact lookup_cons_eq_ite
    · rw [if_neg hlt]
      by_cases heq : key' = p.1
      · rw [if_pos heq, lookup_cons_eq_ite, lookup_cons_eq_ite, heq]
        by_cases h : p.1 = key <;> simp [h]
      · rw [if_neg heq, lookup_cons_eq_ite, lookup_cons_eq_ite, ih]
        by_cases h : p.1 = key
        · simp [h, show key' ≠ key from fun h' => heq (h'.trans h.symm)]
        · simp [h]

/-- Of the values set under a key the last one counts. -/
theorem lookup_insertAll {pairs : List (String × α)} :
    (insertAll pairs l).lookup key = (pairs.reverse.lookup key).or (l.lookup key) := by
  induction pairs generalizing l with
  | nil => rfl
  | cons p rest ih =>
    rw [insertAll, List.foldl_cons, ← insertAll, ih, lookup_insert, List.reverse_cons,
      List.lookup_append, Option.or_assoc, lookup_cons_eq_ite]
    by_cases h : p.1 = key <;> simp [h]

/-- The keys rise. -/
def Rising (l : List (String × α)) : Prop :=
  l.Pairwise fun p q => p.1 < q.1

theorem mem_insert {p : String × α} (h : p ∈ insert key a l) : p = (key, a) ∨ p ∈ l := by
  induction l with
  | nil => exact .inl (List.mem_singleton.mp h)
  | cons q rest ih =>
    rw [insert] at h
    split_ifs at h with hlt heq
    · exact List.mem_cons.mp h
    · exact (List.mem_cons.mp h).imp_right (List.mem_cons_of_mem q)
    · rcases List.mem_cons.mp h with rfl | h
      · exact .inr List.mem_cons_self
      · exact (ih h).imp_right (List.mem_cons_of_mem q)

/-- Setting a key keeps the keys rising. -/
theorem Rising.insert (h : Rising l) : Rising (insert key a l) := by
  induction l with
  | nil => exact List.pairwise_singleton _ _
  | cons p rest ih =>
    obtain ⟨hp, hrest⟩ := List.pairwise_cons.mp h
    rw [Keyed.insert]
    split_ifs with hlt heq
    · refine List.pairwise_cons.mpr ⟨fun q hq => ?_, h⟩
      rcases List.mem_cons.mp hq with rfl | hq
      · exact hlt
      · exact hlt.trans (hp q hq)
    · exact List.pairwise_cons.mpr ⟨fun q hq => heq ▸ hp q hq, hrest⟩
    · refine List.pairwise_cons.mpr ⟨fun q hq => ?_, ih hrest⟩
      rcases mem_insert hq with rfl | hq
      · exact lt_of_le_of_ne (not_lt.mp hlt) (Ne.symm heq)
      · exact hp q hq

theorem Rising.insertAll {pairs : List (String × α)} (h : Rising l) :
    Rising (insertAll pairs l) := by
  induction pairs generalizing l with
  | nil => exact h
  | cons p rest ih => exact ih h.insert

/-- A key beyond all others is set at the end. -/
theorem insert_of_lt (h : ∀ p ∈ l, p.1 < key) : insert key a l = l ++ [(key, a)] := by
  induction l with
  | nil => rfl
  | cons p rest ih =>
    have hlt : p.1 < key := h p List.mem_cons_self
    rw [insert, if_neg hlt.asymm, if_neg hlt.ne', ih fun q hq => h q (List.mem_cons_of_mem p hq)]
    rfl

/-- Keys set in rising order are held in that order. -/
theorem insertAll_of_rising {acc : List (String × α)} (h : Rising (acc ++ l)) :
    insertAll l acc = acc ++ l := by
  induction l generalizing acc with
  | nil => simp [insertAll]
  | cons p rest ih =>
    have hlt : ∀ q ∈ acc, q.1 < p.1 := fun q hq =>
      (List.pairwise_append.1 h).2.2 q hq p List.mem_cons_self
    rw [List.append_cons] at h
    rw [insertAll, List.foldl_cons, insert_of_lt hlt, ← insertAll, ih h, List.append_assoc]
    rfl

end Switchboard.Keyed
