import Switchboard.Proofs.Decimal.Digits
import Switchboard.Proofs.Outcome
import Switchboard.Proofs.Timestamp.Calendar

/-!
# Written points in time

Every point in time is read back from its written form. Whatever text is read, and whatever
its offset, the result is a point in time of the calendar.
-/

namespace Switchboard.Timestamp

open Decimal Outcome

theorem isDigit_of_mem_padded {width n : Nat} {c : Char} (h : c ∈ padded width n) : c.isDigit := by
  rcases List.mem_append.1 h with h | h
  · rw [List.eq_of_mem_replicate h]
    rfl
  · exact isDigit_of_mem_natDigits h

@[simp] theorem padded_ne_nil (width n : Nat) : padded width n ≠ [] := by
  simp [padded]

/-- A padded number is read back from its digits. -/
@[simp] theorem ofDigitChars_padded (width n : Nat) :
    Nat.ofDigitChars 10 (padded width n) 0 = n := by
  simp [padded, Nat.ofDigitChars_append, Nat.ofDigitChars_replicate_zero]

/-- A padded number has the width it is padded to, if it is not too long. -/
theorem length_padded {width n : Nat} (hw : 0 < width) (h : n < Nat.pow 10 width) :
    (padded width n).length = width := by
  have hle := length_natDigits_le hw h
  simp only [padded, List.length_append, List.length_replicate]
  omega

/-- The part of a text in which a number is looked for. -/
def window : Option Nat → List Char → List Char
  | some w, s => s.take w
  | none, s => s

theorem window_isPrefix (width : Option Nat) (s : List Char) : (window width s).IsPrefix s := by
  cases width with
  | none => exact List.prefix_rfl
  | some w => exact List.take_prefix w s

theorem length_window_le {width : Option Nat} {w : Nat} (hw : width = some w) (s : List Char) :
    (window width s).length ≤ w := by
  subst hw
  exact List.length_take_le w s

/-- A number is as many digits as the window shows. -/
theorem readNumber_eq (width : Option Nat) (s : List Char) :
    readNumber width s =
      match s, (window width s).takeWhile Char.isDigit with
      | [], _ => .error .tooShort
      | _, [] => .error .invalid
      | _, ds =>
        if Nat.ofDigitChars 10 ds 0 < Nat.pow 2 63 then
          .ok (Nat.ofDigitChars 10 ds 0, s.drop ds.length)
        else .error .outOfRange := by
  unfold readNumber
  cases width with
  | none =>
    cases s with
    | nil => rfl
    | cons c s =>
      dsimp only [window]
      cases (c :: s).takeWhile Char.isDigit <;> rfl
  | some w =>
    cases s with
    | nil => rfl
    | cons c s =>
      dsimp only [window]
      cases ((c :: s).take w).takeWhile Char.isDigit <;> rfl

/-- A run of digits is read as a whole if the width ends it or no digit follows. -/
theorem readNumber_digits {width : Option Nat} {ds r : List Char} (hd : ∀ c ∈ ds, c.isDigit)
    (hne : ds ≠ []) (hw : ∀ w, width = some w → ds.length ≤ w)
    (hr : width = some ds.length ∨ EndsNumber r)
    (hlt : Nat.ofDigitChars 10 ds 0 < Nat.pow 2 63) :
    readNumber width (ds ++ r) = .ok (Nat.ofDigitChars 10 ds 0, r) := by
  have hwindow : ∃ r', window width (ds ++ r) = ds ++ r' ∧ EndsNumber r' := by
    cases width with
    | none => exact ⟨r, rfl, hr.resolve_left (by simp)⟩
    | some w =>
      refine ⟨r.take (w - ds.length), ?_, ?_⟩
      · simp [window, List.take_append, List.take_of_length_le (hw w rfl)]
      · rcases hr with hr | hr
        · simp [Option.some.inj hr]
        · cases w - ds.length with
          | zero => exact endsNumber_nil
          | succ k =>
            cases r with
            | nil => exact endsNumber_nil
            | cons c r => exact endsNumber_cons.2 (endsNumber_cons.1 hr)
  obtain ⟨r', hwindow, hr'⟩ := hwindow
  rw [readNumber_eq, hwindow, takeWhile_digits hd hr']
  cases ds with
  | nil => exact absurd rfl hne
  | cons d ds =>
    simp only [List.cons_append, if_pos hlt, List.length_cons, List.drop_succ_cons,
      List.drop_left]

/-- What a number was read from. -/
theorem readNumber_eq_ok {width : Option Nat} {s r : List Char} {n : Nat}
    (h : readNumber width s = .ok (n, r)) :
    ∃ ds, s = ds ++ r ∧ (∀ c ∈ ds, c.isDigit) ∧ n = Nat.ofDigitChars 10 ds 0 ∧
      ∀ w, width = some w → ds.length ≤ w := by
  have hpre := (List.takeWhile_prefix Char.isDigit).trans (window_isPrefix width s)
  have hlen : ∀ w, width = some w → ((window width s).takeWhile Char.isDigit).length ≤ w :=
    fun w hw => Nat.le_trans (List.takeWhile_prefix _).length_le (length_window_le hw s)
  have hdigits : ∀ c ∈ (window width s).takeWhile Char.isDigit, c.isDigit :=
    fun c hc => List.all_eq_true.1 List.all_takeWhile c hc
  rw [readNumber_eq] at h
  generalize (window width s).takeWhile Char.isDigit = ds at h hpre hlen hdigits
  obtain ⟨rest, rfl⟩ := hpre
  split at h
  · cases h
  · cases h
  · split at h
    · cases h
      exact ⟨_, by rw [List.drop_left], hdigits, rfl, hlen⟩
    · cases h

theorem isBlank_of_isDigit {c : Char} (h : c.isDigit) : Text.isBlank c = false := by
  have hc := toNat_of_isDigit h
  simp only [Text.isBlank, Bool.or_eq_false_iff, Bool.and_eq_false_iff, decide_eq_false_iff_not]
  omega

theorem skipBlanks_cons {c : Char} {s : List Char} (h : Text.isBlank c = false) :
    skipBlanks (c :: s) = c :: s := by
  simp [skipBlanks, h]

theorem skipBlanks_padded (width n : Nat) (r : List Char) :
    skipBlanks (padded width n ++ r) = padded width n ++ r := by
  cases hp : padded width n with
  | nil => exact absurd hp (padded_ne_nil _ _)
  | cons d ds =>
    exact skipBlanks_cons (isBlank_of_isDigit (isDigit_of_mem_padded (hp ▸ List.mem_cons_self)))

/-! ## Reading what was written -/

/-- A padded number is read up to its width. -/
theorem readNumber_padded {width n : Nat} {r : List Char} (hw : 0 < width)
    (h : n < Nat.pow 10 width) (hlt : n < Nat.pow 2 63) :
    readNumber (some width) (padded width n ++ r) = .ok (n, r) := by
  have hlen := length_padded hw h
  have hread := @readNumber_digits (some width) (padded width n) r
    (fun _ => isDigit_of_mem_padded) (padded_ne_nil _ _) (by simp [hlen]) (.inl (by rw [hlen]))
    (by simpa using hlt)
  simpa using hread

/-- A part of two digits is read back if it is within its bounds. -/
theorem readPart_padded {lo hi n : Nat} {r : List Char} (hlo : lo ≤ n) (hhi : n ≤ hi)
    (h : n < 100) : readPart lo hi (padded 2 n ++ r) = .ok (n, r) := by
  have hread := @readNumber_padded 2 n r (by decide) h (Nat.lt_trans h (by decide))
  simp only [readPart, skipBlanks_padded, hread]
  simp [hlo, hhi]

theorem readYear_of_digit {c : Char} {s r : List Char} {n : Nat} (hc : c.isDigit)
    (h : readNumber (some 4) (c :: s) = .ok (n, r)) (hn : n < Nat.pow 2 31) :
    readYear (c :: s) = .ok ((n : Int), r) := by
  have hminus : c ≠ '-' := by rintro rfl; exact absurd hc (by decide)
  have hplus : c ≠ '+' := by rintro rfl; exact absurd hc (by decide)
  unfold readYear
  rw [skipBlanks_cons (isBlank_of_isDigit hc)]
  simp only [List.cons.injEq, hminus, hplus, false_and, imp_false, not_false_eq_true, implies_true,
    h, bind, Except.bind, pure, Except.pure]
  rw [if_pos (by omega)]

theorem readYear_minus {s r : List Char} {n : Nat} (h : readNumber none s = .ok (n, r))
    (hn : n < Nat.pow 2 31) : readYear ('-' :: s) = .ok (-(n : Int), r) := by
  unfold readYear
  rw [skipBlanks_cons (by decide)]
  simp only [h, bind, Except.bind, pure, Except.pure]
  rw [if_pos (by omega)]

theorem readYear_plus {s r : List Char} {n : Nat} (h : readNumber none s = .ok (n, r))
    (hn : n < Nat.pow 2 31) : readYear ('+' :: s) = .ok ((n : Int), r) := by
  unfold readYear
  rw [skipBlanks_cons (by decide)]
  simp only [h, bind, Except.bind, pure, Except.pure]
  rw [if_pos (by omega)]

/-- A year of the calendar is read back, with its sign if it has one. -/
theorem readYear_renderYear {y : Int} (hlo : minYear ≤ y) (hhi : y ≤ maxYear) (r : List Char) :
    readYear (renderYear y ++ '-' :: r) = .ok (y, '-' :: r) := by
  have h31 : Nat.pow 2 31 = 2147483648 := rfl
  have h63 : Nat.pow 2 63 = 9223372036854775808 := rfl
  have hbound : y.natAbs < Nat.pow 2 31 := by
    unfold minYear at hlo
    unfold maxYear at hhi
    omega
  have hsigned : readNumber none (padded 4 y.natAbs ++ '-' :: r) = .ok (y.natAbs, '-' :: r) := by
    have hread := @readNumber_digits none (padded 4 y.natAbs) ('-' :: r)
      (fun _ => isDigit_of_mem_padded) (padded_ne_nil _ _) (by simp)
      (.inr (endsNumber_cons.2 rfl)) (by rw [ofDigitChars_padded]; omega)
    simpa using hread
  unfold renderYear
  by_cases hy : 0 ≤ y ∧ y ≤ 9999
  · have hdigits : y.toNat < Nat.pow 10 4 := by
      rw [show Nat.pow 10 4 = 10000 from rfl]
      omega
    have hread := @readNumber_padded 4 y.toNat ('-' :: r) (by decide) hdigits (by omega)
    rw [if_pos hy]
    cases hp : padded 4 y.toNat with
    | nil => exact absurd hp (padded_ne_nil _ _)
    | cons d ds =>
      rw [hp, List.cons_append] at hread
      rw [List.cons_append, readYear_of_digit (isDigit_of_mem_padded (hp ▸ List.mem_cons_self))
        hread (by omega), Int.toNat_of_nonneg hy.1]
  · rw [if_neg hy]
    by_cases hneg : y < 0
    · rw [if_pos hneg, List.cons_append, readYear_minus hsigned hbound,
        show -(y.natAbs : Int) = y by omega]
    · rw [if_neg hneg, List.cons_append, readYear_plus hsigned hbound,
        show (y.natAbs : Int) = y by omega]

/-- A fraction of a second is read back. -/
theorem readFraction_renderFraction {nano : Nat} (h : nano < 1000000000) (r : List Char) :
    readFraction (renderFraction nano ++ 'Z' :: r) = .ok (nano, 'Z' :: r) := by
  have hpoint : ∀ w n, 0 < w → w ≤ 9 → n < 10 ^ w →
      readFraction ('.' :: padded w n ++ 'Z' :: r) = .ok (n * 10 ^ (9 - w), 'Z' :: r) := by
    intro w n hw hw9 hn
    have hlt : n < 10 ^ 9 := Nat.lt_of_lt_of_le hn (Nat.pow_le_pow_right (by decide) hw9)
    have hread := @readNumber_digits (some 9) (padded w n) ('Z' :: r)
      (fun _ => isDigit_of_mem_padded) (padded_ne_nil _ _) (by simp [length_padded hw hn, hw9])
      (.inr (endsNumber_cons.2 rfl))
      (by rw [ofDigitChars_padded]; exact Nat.lt_trans hlt (by decide))
    simp only [readFraction, List.cons_append, hread, ok_bind, pure_eq]
    simp [length_padded hw hn]
  unfold renderFraction
  split
  · next h0 => simp [readFraction, h0]
  · split
    · rw [hpoint 3 _ (by decide) (by decide) (by omega)]
      simp only [Except.ok.injEq, Prod.mk.injEq, and_true]
      omega
    · split
      · rw [hpoint 6 _ (by decide) (by decide) (by omega)]
        simp only [Except.ok.injEq, Prod.mk.injEq, and_true]
        omega
      · rw [hpoint 9 _ (by decide) (by decide) (by omega)]
        simp

/-- A date of the calendar is read back. -/
theorem readDate_render {t : Timestamp} (h : t.IsValid) (r : List Char) :
    readDate (renderYear t.year ++ '-' :: (padded 2 t.month ++ '-' :: (padded 2 t.day ++ 'T' :: r)))
      = .ok ((t.year, t.month, t.day), 'T' :: r) := by
  obtain ⟨hlo, hhi, hm, hm', hd, hd', -⟩ := h
  have hday : t.day ≤ 31 := by
    have : daysInMonth t.year t.month ≤ 31 := by unfold daysInMonth; split <;> split <;> omega
    omega
  simp only [readDate, readYear_renderYear hlo hhi,
    skipBlanks_cons (by decide : Text.isBlank '-' = false), readMark, if_pos,
    readPart_padded hm hm' (by omega), readPart_padded hd hday (by omega),
    ok_bind, pure_eq]

/-- A time of day is read back, leap seconds included. -/
theorem readTime_render {hour minute second nano : Nat} (hh : hour < 24) (hm : minute < 60)
    (hs : second ≤ 60) (hn : nano < 1000000000) :
    readTime (padded 2 hour ++ ':' :: (padded 2 minute ++ ':' :: (padded 2 second ++
      (renderFraction nano ++ ['Z'])))) = .ok ((hour, minute, second, nano), ['Z']) := by
  simp only [readTime, readPart_padded (Nat.zero_le hour) (show hour ≤ 23 by omega) (by omega),
    readPart_padded (Nat.zero_le minute) (show minute ≤ 59 by omega) (by omega),
    readPart_padded (Nat.zero_le second) hs (by omega), readFraction_renderFraction hn,
    skipBlanks_cons (by decide : Text.isBlank ':' = false),
    skipBlanks_cons (by decide : Text.isBlank 'Z' = false), readMark, if_pos,
    ok_bind, pure_eq]

theorem readSeparator_mark (r : List Char) : readSeparator ('T' :: r) = .ok ((), r) := by
  simp [readSeparator]

theorem ofLocal_zero (t : Timestamp) : t.ofLocal 0 = some t :=
  if_pos rfl

/-- A point in time is read back from its written form. -/
theorem parse_render {t : Timestamp} (h : t.IsValid) : parse t.render = .ok t := by
  obtain ⟨hlo, hhi, hm, hm', hd, hd', hh, hmin, hs, hn, hleap⟩ := id h
  have hzone : readZone ['Z'] = .ok (0, []) := rfl
  have hrange : ¬(t.year < minYear ∨ maxYear < t.year ∨ daysInMonth t.year t.month < t.day) := by
    omega
  have hclock : ∀ second nano : Nat, second ≤ 60 → nano < 1000000000 →
      (if second = 60 then (⟨t.year, t.month, t.day, t.hour, t.minute, 59, nano + 1000000000⟩ :
          Timestamp)
        else ⟨t.year, t.month, t.day, t.hour, t.minute, second, nano⟩) = t →
      parse (renderYear t.year ++ '-' :: (padded 2 t.month ++ '-' :: (padded 2 t.day ++ 'T' ::
        (padded 2 t.hour ++ ':' :: (padded 2 t.minute ++ ':' :: (padded 2 second ++
          (renderFraction nano ++ ['Z']))))))) = .ok t := by
    intro second nano hsec hnano hwritten
    simp only [parse, readDate_render h, readSeparator_mark, readTime_render hh hmin hsec hnano,
      hzone, ok_bind, hwritten, ofLocal_zero, if_neg hrange]
    rfl
  unfold render
  simp only [List.append_assoc, List.cons_append]
  by_cases hl : 1000000000 ≤ t.nano
  · simp only [if_pos hl]
    refine hclock _ _ (by omega) (by omega) ?_
    rw [if_pos (by rw [hleap hl]), Nat.sub_add_cancel hl, ← hleap hl]
  · simp only [if_neg hl]
    exact hclock _ _ (by omega) (by omega) (if_neg (by omega))

/-! ## What is read is a point in time -/

/-- A part that was read is within its bounds. -/
theorem readPart_eq_ok {lo hi n : Nat} {s r : List Char} (h : readPart lo hi s = .ok (n, r)) :
    lo ≤ n ∧ n ≤ hi := by
  obtain ⟨⟨m, s'⟩, -, h⟩ := bind_eq_ok.1 h
  dsimp only at h
  split at h
  · next hb =>
    cases h
    exact hb
  · cases h

theorem readFraction_eq_ok {nano : Nat} {s r : List Char} (h : readFraction s = .ok (nano, r)) :
    nano < 1000000000 := by
  unfold readFraction at h
  split at h
  · obtain ⟨⟨n, rest⟩, hn, h⟩ := bind_eq_ok.1 h
    cases h
    obtain ⟨ds, rfl, hd, rfl, hlen⟩ := readNumber_eq_ok hn
    have hlt := ofDigitChars_lt hd 0
    have h9 : ds.length ≤ 9 := hlen 9 rfl
    have hused : (ds ++ rest).length - rest.length = ds.length := by simp
    rw [hused]
    calc Nat.ofDigitChars 10 ds 0 * 10 ^ (9 - ds.length)
        < 10 ^ ds.length * 10 ^ (9 - ds.length) :=
          Nat.mul_lt_mul_of_pos_right (by simpa using hlt) (Nat.pow_pos (by decide))
      _ = 10 ^ 9 := by rw [← Nat.pow_add, Nat.add_sub_cancel' h9]
  · cases h
    decide

/-- Offsets are whole minutes. -/
theorem readOffset_eq_ok {offset : Int} {s r : List Char} (h : readOffset s = .ok (offset, r)) :
    offset % 60 = 0 := by
  unfold readOffset at h
  split at h
  · cases h
  · split at h
    · cases h
      rfl
    · split at h
      · obtain ⟨⟨a, b, s'⟩, -, h⟩ := bind_eq_ok.1 h
        dsimp only at h
        split at h
        · cases h
        · obtain ⟨⟨c, d, s''⟩, -, h⟩ := bind_eq_ok.1 h
          dsimp only at h
          split at h
          · cases h
          · split at h
            · cases h
            · cases h
              split <;> omega
      · cases h

theorem readZone_eq_ok {offset : Int} {s r : List Char} (h : readZone s = .ok (offset, r)) :
    offset % 60 = 0 := by
  unfold readZone at h
  split at h
  · cases h
    rfl
  · exact readOffset_eq_ok h

/-- A date that was read has a month of the year and a positive day. -/
theorem readDate_eq_ok {year : Int} {month day : Nat} {s r : List Char}
    (h : readDate s = .ok ((year, month, day), r)) : 1 ≤ month ∧ month ≤ 12 ∧ 1 ≤ day := by
  obtain ⟨⟨y, s₁⟩, -, h⟩ := bind_eq_ok.1 h
  obtain ⟨⟨_, s₂⟩, -, h⟩ := bind_eq_ok.1 h
  obtain ⟨⟨m, s₃⟩, hm, h⟩ := bind_eq_ok.1 h
  obtain ⟨⟨_, s₄⟩, -, h⟩ := bind_eq_ok.1 h
  obtain ⟨⟨d, s₅⟩, hd, h⟩ := bind_eq_ok.1 h
  cases h
  have hmonth := readPart_eq_ok hm
  have hday := readPart_eq_ok hd
  exact ⟨hmonth.1, hmonth.2, hday.1⟩

/-- A time that was read is one of the day, leap seconds included. -/
theorem readTime_eq_ok {hour minute second nano : Nat} {s r : List Char}
    (h : readTime s = .ok ((hour, minute, second, nano), r)) :
    hour < 24 ∧ minute < 60 ∧ second ≤ 60 ∧ nano < 1000000000 := by
  obtain ⟨⟨a, s₁⟩, ha, h⟩ := bind_eq_ok.1 h
  obtain ⟨⟨_, s₂⟩, -, h⟩ := bind_eq_ok.1 h
  obtain ⟨⟨b, s₃⟩, hb, h⟩ := bind_eq_ok.1 h
  obtain ⟨⟨_, s₄⟩, -, h⟩ := bind_eq_ok.1 h
  obtain ⟨⟨c, s₅⟩, hc, h⟩ := bind_eq_ok.1 h
  obtain ⟨⟨n, s₆⟩, hn, h⟩ := bind_eq_ok.1 h
  cases h
  have hhour := readPart_eq_ok ha
  have hminute := readPart_eq_ok hb
  have hsecond := readPart_eq_ok hc
  exact ⟨by omega, by omega, hsecond.2, readFraction_eq_ok hn⟩

/-- An offset of whole minutes leaves a leap second at the end of a minute. -/
theorem IsValid.ofLocal {t t' : Timestamp} {offset : Int} (h : t.IsValid) (ho : offset % 60 = 0)
    (hl : t.ofLocal offset = some t') : t'.IsValid := by
  unfold Timestamp.ofLocal at hl
  split at hl
  · cases hl
    exact h
  · obtain ⟨-, -, -, -, -, -, hh, hmin, hs, hn, hleap⟩ := h
    dsimp only at hl
    split at hl
    · cases hl
    · next hrange =>
      cases hl
      obtain ⟨hm, hm', hd, hd'⟩ := dateOfDay_bounds
        (dayNumber t.year t.month t.day +
          (t.hour * 3600 + t.minute * 60 + t.second - offset) / 86400)
      obtain ⟨hlo, hhi⟩ := not_or.1 hrange
      refine ⟨Int.not_lt.1 hlo, Int.not_lt.1 hhi, hm, hm', hd, hd', ?_, ?_, ?_, hn, ?_⟩ <;>
        dsimp only
      · omega
      · omega
      · omega
      · intro hnano
        have hsecond := hleap hnano
        omega

/-- Every text that is read names a point in time of the calendar. -/
theorem isValid_of_parse {s : List Char} {t : Timestamp} (h : parse s = .ok t) : t.IsValid := by
  obtain ⟨⟨⟨year, month, day⟩, s₁⟩, hdate, h⟩ := bind_eq_ok.1 h
  obtain ⟨⟨_, s₂⟩, -, h⟩ := bind_eq_ok.1 h
  obtain ⟨⟨⟨hour, minute, second, nano⟩, s₃⟩, htime, h⟩ := bind_eq_ok.1 h
  obtain ⟨⟨offset, s₄⟩, hzone, h⟩ := bind_eq_ok.1 h
  obtain ⟨hm, hm', hd⟩ := readDate_eq_ok hdate
  obtain ⟨hh, hmin, hs, hn⟩ := readTime_eq_ok htime
  dsimp only at h
  split at h
  · cases h
  · split at h
    · cases h
    · next hrange =>
      split at h
      · cases h
      · generalize hw : (if second = 60 then
            (⟨year, month, day, hour, minute, 59, nano + 1000000000⟩ : Timestamp)
          else ⟨year, month, day, hour, minute, second, nano⟩) = written at h
        have hyear : minYear ≤ year ∧ year ≤ maxYear ∧ day ≤ daysInMonth year month := by omega
        have hwritten : written.IsValid := by
          obtain ⟨hlo, hhi, hd'⟩ := hyear
          subst hw
          split
          · exact ⟨hlo, hhi, hm, hm', hd, hd', hh, hmin, by dsimp only; omega,
              by dsimp only; omega, fun _ => rfl⟩
          · exact ⟨hlo, hhi, hm, hm', hd, hd', hh, hmin, by dsimp only; omega,
              by dsimp only; omega, fun hnano => by dsimp only at hnano ⊢; omega⟩
        split at h
        · next t' hl =>
          cases h
          exact hwritten.ofLocal (readZone_eq_ok hzone) hl
        · cases h

end Switchboard.Timestamp
