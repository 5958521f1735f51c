import Switchboard.Proofs.Keyed
import Switchboard.Toml.Document

/-!
# Integers in TOML documents

Every integer in a document has 64 bits with its sign, wherever it stands (`fits_of_parse?`). The
bound is checked where a number is read, and everything after that only moves values about: into
containers, under keys and into tables, each of which fits exactly if what is in it does.
-/

namespace Switchboard.Toml

variable {s : List Char} {es es' : Entries} {key : String}

/-- The integer of a scalar, if it is one, has 64 bits with its sign. -/
def Scalar.Fits : Scalar → Prop
  | .integer n => -(Nat.pow 2 63 : Int) ≤ n ∧ n < Nat.pow 2 63
  | _ => True

/-- All integers in a value fit. -/
inductive Value.Fits : Value → Prop where
  | scalar {a : Scalar} (h : a.Fits) : Fits (.scalar a)
  | array {items : List Value} (h : ∀ v ∈ items, Fits v) : Fits (.array items)
  | table {entries : List (String × Value)} (h : ∀ e ∈ entries, Fits e.2) : Fits (.table entries)

/-- All integers in an item fit. -/
inductive Item.Fits : Item → Prop where
  | value {v : Value} (h : v.Fits) : Fits (.value v)
  | table {implied dotted : Bool} {entries : Entries} (h : ∀ e ∈ entries, Fits e.2) :
    Fits (.table implied dotted entries)
  | tables {elements : List Entries} (h : ∀ es ∈ elements, ∀ e ∈ es, Fits e.2) :
    Fits (.tables elements)

/-- All integers in some entries fit. -/
def Entries.Fits (es : Entries) : Prop :=
  ∀ e ∈ es, e.2.Fits

/-- An integer that is accepted fits. -/
theorem fits_of_integer? {negative : Bool} {n : Nat} {a : Scalar}
    (h : integer? negative n = some a) : a.Fits := by
  obtain ⟨hn, ha⟩ := Option.ite_none_right_eq_some.mp h
  obtain rfl := Option.some.inj ha
  exact hn

theorem fits_of_float? {negative : Bool} {whole : List Char} {fraction : Option (List Char)}
    {exponent : Option (Bool × List Char)} {a : Scalar}
    (h : float? negative whole fraction exponent = some a) : a.Fits := by
  unfold float? at h
  extract_lets f e bits x at h
  split at h
  · obtain rfl := Option.some.inj h
    trivial
  · obtain ⟨-, ha⟩ := Option.ite_none_left_eq_some.mp h
    obtain rfl := Option.some.inj ha
    trivial

theorem fits_of_readBased {base : Nat} {r : Scalar × List Char} (h : readBased base s = some r) :
    r.1.Fits := by
  simp only [readBased, Option.bind_eq_bind, Option.bind_eq_some_iff, Option.pure_def,
    Option.some.injEq] at h
  obtain ⟨_, _, a, ha, rfl⟩ := h
  exact fits_of_integer? ha

theorem fits_of_readDecimal {negative : Bool} {r : Scalar × List Char}
    (h : readDecimal negative s = some r) : r.1.Fits := by
  simp only [readDecimal, Option.bind_eq_bind, Option.bind_eq_some_iff, Option.pure_def] at h
  obtain ⟨_, _, _, _, _, _, h⟩ := h
  split at h
  · obtain ⟨a, ha, hr⟩ := Option.bind_eq_some_iff.mp h
    obtain rfl := Option.some.inj hr
    exact fits_of_integer? ha
  · obtain ⟨a, ha, hr⟩ := Option.bind_eq_some_iff.mp h
    obtain rfl := Option.some.inj hr
    exact fits_of_float? ha

theorem fits_of_readSpecial {negative : Bool} {r : Scalar × List Char}
    (h : readSpecial negative s = some r) : r.1.Fits := by
  unfold readSpecial at h
  simp only at h
  split at h
  · obtain rfl := Option.some.inj h
    trivial
  · obtain rfl := Option.some.inj h
    trivial
  · cases h

/-- A number that was read fits. -/
theorem fits_of_readNumber {r : Scalar × List Char} (h : readNumber s = some r) : r.1.Fits := by
  unfold readNumber at h
  split at h
  · exact fits_of_readBased h
  · exact fits_of_readBased h
  · exact fits_of_readBased h
  · rcases Option.or_eq_some_iff.mp h with h | ⟨-, h⟩
    · exact fits_of_readSpecial h
    · exact fits_of_readDecimal h

theorem fits_of_readDate {r : Scalar × List Char} (h : readDate s = some r) : r.1.Fits := by
  unfold readDate at h
  split at h
  · simp only [Option.bind_eq_bind, Option.bind_eq_some_iff] at h
    obtain ⟨_, _, h⟩ := h
    split at h
    · split at h
      · simp only [Option.bind_eq_some_iff, Option.pure_def, Option.some.injEq] at h
        obtain ⟨_, _, _, _, rfl⟩ := h
        trivial
      · obtain rfl := Option.some.inj h
        trivial
    · obtain rfl := Option.some.inj h
      trivial
  · obtain ⟨_, _, rfl⟩ := Option.map_eq_some_iff.mp h
    trivial

/-- A scalar that was read fits. -/
theorem fits_of_readScalar {r : Scalar × List Char} (h : readScalar s = some r) : r.1.Fits := by
  unfold readScalar at h
  split at h
  · obtain ⟨_, _, rfl⟩ := Option.map_eq_some_iff.mp h
    trivial
  · obtain ⟨_, _, rfl⟩ := Option.map_eq_some_iff.mp h
    trivial
  · obtain rfl := Option.some.inj h
    trivial
  · obtain rfl := Option.some.inj h
    trivial
  · split at h
    · exact fits_of_readDate h
    · exact fits_of_readNumber h

/-! ## Tables -/

namespace Entries

theorem fits_nil : Fits [] :=
  List.forall_mem_nil _

theorem Fits.lookup {i : Item} (h : es.Fits) (hi : es.lookup key = some i) : i.Fits :=
  h (key, i) (Keyed.mem_of_lookup_eq_some hi)

/-- Putting an item that fits keeps the entries fitting. -/
theorem Fits.put {i : Item} (h : es.Fits) (hi : i.Fits) : (es.put key i).Fits := by
  intro e he
  unfold Entries.put at he
  split at he
  · obtain ⟨e', he', rfl⟩ := List.mem_map.mp he
    split
    · exact hi
    · exact h e' he'
  · rcases List.mem_append.mp he with he | he
    · exact h e he
    · obtain rfl := List.mem_singleton.mp he
      exact hi

end Entries

theorem Item.Fits.entries {implied dotted : Bool} (h : (Item.table implied dotted es).Fits) :
    es.Fits := by
  cases h with
  | table h => exact h

theorem Item.Fits.elements {elements : List Entries} (h : (Item.tables elements).Fits) :
    ∀ es ∈ elements, es.Fits := by
  cases h with
  | tables h => exact h

/-- The last of some tables is replaced by one that fits. -/
theorem Item.Fits.replaceLast {elements : List Entries} (h : (Item.tables elements).Fits)
    (hlast : es.Fits) : (Item.tables (elements.dropLast ++ [es])).Fits := by
  refine .tables fun es' hes' => ?_
  rcases List.mem_append.mp hes' with hes' | hes'
  · exact h.elements es' (List.dropLast_subset _ hes')
  · obtain rfl := List.mem_singleton.mp hes'
    exact hlast

/-- Setting a value that fits keeps the entries fitting, however deep its key is. -/
theorem fits_of_setKey {v : Value} (hv : v.Fits) {path : List String} (hes : es.Fits)
    (h : setKey key v path es = some es') : es'.Fits := by
  induction path generalizing es es' with
  | nil =>
    unfold setKey at h
    split at h
    · cases h
    · obtain rfl := Option.some.inj h
      exact hes.put (.value hv)
  | cons p path ih =>
    unfold setKey at h
    split at h
    · obtain ⟨inner, hinner, hr⟩ := Option.bind_eq_some_iff.mp h
      obtain rfl := Option.some.inj hr
      exact hes.put (.table (ih Entries.fits_nil hinner))
    · next hfind =>
      split at h
      · cases h
      · obtain ⟨inner, hinner, ⟨⟩⟩ := Option.bind_eq_some_iff.mp h
        exact hes.put (.table (ih (hes.lookup hfind).entries hinner))
    · next hfind =>
      split at h
      · next hlast =>
        split at h
        · cases h
        · obtain ⟨inner, hinner, hr⟩ := Option.bind_eq_some_iff.mp h
          obtain rfl := Option.some.inj hr
          have helements := hes.lookup hfind
          have hfits := helements.elements _ (List.mem_of_getLast? hlast)
          exact hes.put (helements.replaceLast (ih hfits hinner))
      · cases h
    · cases h

/-- A change that keeps entries fitting does so in any table. -/
theorem fits_of_modifyAt {f : Entries → Option Entries}
    (hf : ∀ es es', es.Fits → f es = some es' → es'.Fits) {path : List String} (hes : es.Fits)
    (h : modifyAt f path es = some es') : es'.Fits := by
  induction path generalizing es es' with
  | nil => exact hf es es' hes h
  | cons p path ih =>
    unfold modifyAt at h
    split at h
    · obtain ⟨inner, hinner, hr⟩ := Option.bind_eq_some_iff.mp h
      obtain rfl := Option.some.inj hr
      exact hes.put (.table (ih Entries.fits_nil hinner))
    · next hfind =>
      obtain ⟨inner, hinner, hr⟩ := Option.bind_eq_some_iff.mp h
      obtain rfl := Option.some.inj hr
      exact hes.put (.table (ih (hes.lookup hfind).entries hinner))
    · next hfind =>
      split at h
      · next hlast =>
        obtain ⟨inner, hinner, ⟨⟩⟩ := Option.bind_eq_some_iff.mp h
        have helements := hes.lookup hfind
        have hfits := helements.elements _ (List.mem_of_getLast? hlast)
        exact hes.put (helements.replaceLast (ih hfits hinner))
      · cases h
    · cases h

mutual

/-- An item that fits is finished as a value that fits. -/
theorem Item.Fits.finish : {i : Item} → i.Fits → i.finish.Fits
  | .value _, .value h => by
    rw [Item.finish]
    exact h
  | .table _ _ _, .table h => by
    rw [Item.finish]
    exact .table (Entries.Fits.finish h)
  | .tables _, .tables h => by
    rw [Item.finish]
    exact .array (fits_finishElements h)

theorem Entries.Fits.finish : {es : List (String × Item)} → (∀ e ∈ es, e.2.Fits) →
    ∀ e ∈ finishEntries es, e.2.Fits
  | [], _ => by simp [finishEntries]
  | (k, i) :: rest, h => by
    obtain ⟨hi, hrest⟩ := List.forall_mem_cons.mp h
    rw [finishEntries]
    exact List.forall_mem_cons.mpr ⟨Item.Fits.finish hi, Entries.Fits.finish hrest⟩

theorem fits_finishElements : {elements : List (List (String × Item))} →
    (∀ es ∈ elements, ∀ e ∈ es, e.2.Fits) → ∀ v ∈ finishElements elements, v.Fits
  | [], _ => by simp [finishElements]
  | es :: rest, h => by
    obtain ⟨hes, hrest⟩ := List.forall_mem_cons.mp h
    rw [finishElements]
    exact List.forall_mem_cons.mpr ⟨.table (Entries.Fits.finish hes), fits_finishElements hrest⟩

end

/-- What is read with some fuel fits. -/
structure ReadsFitting (fuel : Nat) : Prop where
  value : ∀ depth s r, readValue depth fuel s = some r → r.1.Fits
  items : ∀ depth s r, readItems depth fuel s = some r → ∀ v ∈ r.1, v.Fits
  entries : ∀ depth es s r, es.Fits → readEntries depth fuel es s = some r → r.1.Fits

/-- Values, items and entries that are read fit. -/
theorem readsFitting (fuel : Nat) : ReadsFitting fuel := by
  induction fuel with
  | zero =>
    constructor <;> intros <;> simp_all [readValue, readItems, readEntries]
  | succ fuel ih =>
    constructor
    case value =>
      intro depth s r h
      unfold readValue at h
      split at h
      · split at h
        · cases h
        · obtain ⟨_, hitems, rfl⟩ := Option.map_eq_some_iff.mp h
          exact .array (ih.items _ _ _ hitems)
      · split at h
        · cases h
        · split at h
          · obtain rfl := Option.some.inj h
            exact .table (List.forall_mem_nil _)
          · obtain ⟨_, hentries, rfl⟩ := Option.map_eq_some_iff.mp h
            exact .table (Entries.Fits.finish (ih.entries _ _ _ _ Entries.fits_nil hentries))
      · obtain ⟨_, hscalar, rfl⟩ := Option.map_eq_some_iff.mp h
        exact .scalar (fits_of_readScalar hscalar)
    case items =>
      intro depth s r h
      unfold readItems at h
      obtain ⟨_, -, h⟩ := Option.bind_eq_some_iff.mp h
      split at h
      · obtain rfl := Option.some.inj h
        exact List.forall_mem_nil _
      · obtain ⟨_, hv, h⟩ := Option.bind_eq_some_iff.mp h
        obtain ⟨_, -, h⟩ := Option.bind_eq_some_iff.mp h
        have hfits := ih.value _ _ _ hv
        split at h
        · obtain ⟨_, hvs, h⟩ := Option.bind_eq_some_iff.mp h
          obtain rfl := Option.some.inj h
          exact List.forall_mem_cons.mpr ⟨hfits, ih.items _ _ _ hvs⟩
        · obtain rfl := Option.some.inj h
          exact List.forall_mem_singleton.mpr hfits
        · cases h
    case entries =>
      intro depth es s r hes h
      unfold readEntries at h
      simp only [Option.bind_eq_bind, Option.bind_eq_some_iff] at h
      obtain ⟨_, -, _, -, _, -, _, hv, _, hset, h⟩ := h
      have hfits := fits_of_setKey (ih.value _ _ _ hv) hes hset
      split at h
      · exact ih.entries _ _ _ _ hfits h
      · obtain rfl := Option.some.inj h
        exact hfits
      · cases h

/-! ## Documents -/

namespace Progress

variable {p p' : Progress} {path : List String}

/-- What has been read of a document fits. -/
structure Fits (p : Progress) : Prop where
  root : p.root.Fits
  entries : p.entries.Fits

/-- Closing the open table keeps what was read fitting. -/
theorem fits_of_close (h : p.Fits) (hes : p.close = some es) : es.Fits := by
  unfold close at hes
  split at hes
  · obtain rfl := Option.some.inj hes
    exact h.entries
  · refine fits_of_modifyAt (fun es es' hes hput => ?_) h.root hes
    split at hput
    · obtain rfl := Option.some.inj hput
      exact hes.put (.table h.entries)
    · obtain rfl := Option.some.inj hput
      exact hes.put (.tables (List.forall_mem_singleton.mpr h.entries))
    · next hfind _ =>
      obtain rfl := Option.some.inj hput
      refine hes.put (.tables fun es' hes' => ?_)
      rcases List.mem_append.mp hes' with hes' | hes'
      · exact (hes.lookup hfind).elements es' hes'
      · obtain rfl := List.mem_singleton.mp hes'
        exact h.entries
    · obtain rfl := Option.some.inj hput
      exact hes.put (.table h.entries)
    · cases hput

theorem fits_of_lookup (hes : es.Fits) (h : lookup path es = some es') : es'.Fits := by
  fun_induction lookup path es with
  | case1 | case4 | case8 => cases h
  | case2 | case5 =>
    obtain rfl := Option.some.inj h
    exact Entries.fits_nil
  | case3 _ _ _ hfind =>
    obtain rfl := Option.some.inj h
    exact (hes.lookup hfind).entries
  | case6 _ _ _ _ _ _ _ hfind ih => exact ih (hes.lookup hfind).entries h
  | case7 _ _ _ _ elements hfind ih =>
    refine ih ?_ h
    cases hlast : elements.getLast? with
    | none => exact Entries.fits_nil
    | some last => exact (hes.lookup hfind).elements last (List.mem_of_getLast? hlast)

theorem fits_of_openTable (hp : p.Fits) (h : p.openTable path = some p') : p'.Fits := by
  obtain ⟨root, hroot, h⟩ := Option.bind_eq_some_iff.mp h
  obtain ⟨inner, hinner, ⟨⟩⟩ := Option.bind_eq_some_iff.mp h
  have hfits := fits_of_close hp hroot
  exact ⟨hfits, fits_of_lookup hfits hinner⟩

theorem fits_of_openElement (hp : p.Fits) (h : p.openElement path = some p') : p'.Fits := by
  obtain ⟨root, hroot, h⟩ := Option.bind_eq_some_iff.mp h
  obtain ⟨_, -, h⟩ := Option.bind_eq_some_iff.mp h
  obtain ⟨opened, hopened, ⟨⟩⟩ := Option.bind_eq_some_iff.mp h
  refine ⟨fits_of_modifyAt (fun es es' hes hkept => ?_) (fits_of_close hp hroot) hopened,
    Entries.fits_nil⟩
  split at hkept
  · exact Option.some.inj hkept ▸ hes
  · exact Option.some.inj hkept ▸ hes
  · cases hkept

theorem fits_of_set {v : Value} (hp : p.Fits) (hv : v.Fits) (h : p.set path v = some p') :
    p'.Fits := by
  obtain ⟨_, -, h⟩ := Option.bind_eq_some_iff.mp h
  obtain ⟨entries, hentries, ⟨⟩⟩ := Option.bind_eq_some_iff.mp h
  exact ⟨hp.root, fits_of_setKey hv hp.entries hentries⟩

/-- A statement keeps what was read fitting. -/
theorem fits_of_readStatement {r : Progress × List Char} (hp : p.Fits)
    (h : readStatement p s = some r) : r.1.Fits := by
  unfold readStatement at h
  split at h
  · simp only [Option.bind_eq_bind, Option.bind_eq_some_iff, Option.pure_def] at h
    obtain ⟨_, -, _, hopened, _, -, _, -, _, -, ⟨⟩⟩ := h
    exact fits_of_openElement hp hopened
  · simp only [Option.bind_eq_bind, Option.bind_eq_some_iff, Option.pure_def] at h
    obtain ⟨_, -, _, hopened, _, -, _, -, ⟨⟩⟩ := h
    exact fits_of_openTable hp hopened
  · simp only [Option.bind_eq_bind, Option.bind_eq_some_iff, Option.pure_def] at h
    obtain ⟨_, -, _, -, _, hv, _, hset, _, -, ⟨⟩⟩ := h
    exact fits_of_set hp ((readsFitting _).value _ _ _ hv) hset

theorem fits_of_readStatements {fuel : Nat} (hp : p.Fits)
    (h : readStatements fuel p s = some p') : p'.Fits := by
  induction fuel generalizing p s with
  | zero => cases h
  | succ fuel ih =>
    unfold readStatements at h
    split at h
    · exact Option.some.inj h ▸ hp
    · obtain ⟨_, -, h⟩ := Option.bind_eq_some_iff.mp h
      exact ih hp h
    · split at h
      · exact ih hp h
      · obtain ⟨_, hstatement, h⟩ := Option.bind_eq_some_iff.mp h
        exact ih (fits_of_readStatement hp hstatement) h

end Progress

/-- Every integer in a document has 64 bits with its sign. -/
theorem fits_of_parse? {text : String} {entries : List (String × Value)}
    (h : parse? text = some entries) : ∀ e ∈ entries, e.2.Fits := by
  obtain ⟨p, hp, h⟩ := Option.bind_eq_some_iff.mp h
  obtain ⟨es, hes, ⟨⟩⟩ := Option.bind_eq_some_iff.mp h
  have hstart : Progress.Fits {} := ⟨Entries.fits_nil, Entries.fits_nil⟩
  have hfits : es.Fits := Progress.fits_of_close (Progress.fits_of_readStatements hstart hp) hes
  exact Entries.Fits.finish hfits

end Switchboard.Toml
