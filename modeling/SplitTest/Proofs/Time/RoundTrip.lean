import Mathlib
import SplitTest.Proofs.Number.Digits
import SplitTest.Proofs.Time.Calendar
import SplitTest.Time.Reader

/-
  The text of a timestamp is read back as that timestamp (`read_render`).
  One lemma for each part of the text: numbers of a fixed width, dates, times of day, zones.
-/

namespace SplitTest.Timestamp

/-! ## Numbers of a fixed width -/

theorem length_padded {width n : Nat} (hwidth : 0 < width) (h : n < 10 ^ width) :
    (padded width n).length = width := by
  have hlen := (Nat.length_toDigits_le_iff (b := 10) (by decide) hwidth).2 h
  simp only [padded, List.length_append, List.length_replicate]
  omega

theorem allDigits_padded (width n : Nat) : AllDigits (padded width n) :=
  allDigits_append.2 ⟨allDigits_replicate_zero _, allDigits_toDigits n⟩

theorem digitsValue_padded (width n : Nat) : digitsValue (padded width n) = n := by
  rw [padded, digitsValue_append, digitsValue_replicate_zero, digitsValue_toDigits, Nat.zero_mul,
    Nat.zero_add]

/-- A number that is written with a fixed width is taken from the front of a text. -/
theorem takeNumber_padded {width n : Nat} (hwidth : 0 < width) (h : n < 10 ^ width)
    (rest : List Char) : takeNumber width (padded width n ++ rest) = some (n, rest) := by
  have hlen := length_padded hwidth h
  have hall : (padded width n).all Char.isDigit = true :=
    List.all_eq_true.2 (allDigits_padded width n)
  have htake : (padded width n ++ rest).take width = padded width n := List.take_left' hlen
  have hdrop : (padded width n ++ rest).drop width = rest := List.drop_left' hlen
  unfold takeNumber
  dsimp only
  rw [htake, hdrop, if_pos ⟨hlen, hall⟩, digitsValue_padded]

/-! ## Dates -/

theorem takeDate_renderDate {d : Date} (hexists : d.exists? = true) (hyear : d.year < 10 ^ 4)
    (hmonth : d.month < 10 ^ 2) (hday : d.day < 10 ^ 2) (rest : List Char) :
    takeDate (renderDate d ++ rest) = some (d, rest) := by
  simp only [takeDate, renderDate, List.append_assoc, List.cons_append, Option.bind_eq_bind,
    takeNumber_padded (by decide) hyear, takeNumber_padded (by decide) hmonth,
    takeNumber_padded (by decide) hday, takeChar, Option.bind_some, beq_self_eq_true, if_true]
  exact if_pos hexists

/-! ## Times of day -/

/-- What may follow a time of day: neither a digit nor the mark of a fraction. -/
structure EndsTime (rest : List Char) : Prop where
  digit : NoDigitNext rest
  point : rest.head? ≠ some '.'
  comma : rest.head? ≠ some ','

theorem EndsTime.cons {c : Char} {rest : List Char} (hdigit : c.isDigit = false) (hpoint : c ≠ '.')
    (hcomma : c ≠ ',') : EndsTime (c :: rest) :=
  ⟨noDigitNext_cons hdigit, by simpa using hpoint, by simpa using hcomma⟩

theorem fractionTicks_padded {fraction : Nat} (h : fraction < Calendar.ticksPerSecond) :
    fractionTicks (padded 6 fraction) = some fraction := by
  have hlen : (padded 6 fraction).length = 6 := length_padded (by decide) h
  have hne : padded 6 fraction ≠ [] := by
    rw [← List.length_pos_iff, hlen]
    decide
  rw [fractionTicks, if_neg hne, List.take_of_length_le hlen.le, hlen, digitsValue_padded]
  simp

/-- The seconds of a time of day, with the fraction that may be left out. -/
theorem takeSeconds_render {seconds fraction : Nat} (hs : seconds < 60)
    (hf : fraction < Calendar.ticksPerSecond) {rest : List Char} (hr : EndsTime rest) :
    takeSeconds (':' :: (padded 2 seconds ++
        ((if fraction = 0 then [] else '.' :: padded 6 fraction) ++ rest))) =
      some (seconds * Calendar.ticksPerSecond + fraction, rest) := by
  have hwidth : seconds < 10 ^ 2 := by omega
  simp only [takeSeconds, takeNumber_padded (by decide) hwidth, Option.bind_eq_bind,
    Option.bind_some]
  rw [if_neg (by omega)]
  by_cases h0 : fraction = 0
  · rw [if_pos h0, List.nil_append, h0, Nat.add_zero]
    cases rest with
    | nil => rfl
    | cons c rest =>
      have hmark : ¬(c = '.' ∨ c = ',') := by
        rintro (rfl | rfl)
        · exact hr.point rfl
        · exact hr.comma rfl
      simp only [if_neg hmark]
  · rw [if_neg h0, List.cons_append]
    simp only [true_or, if_true, splitDigits_append (allDigits_padded 6 fraction) hr.digit,
      fractionTicks_padded hf, Option.map_some]

theorem takeTime_renderTime {tickOfDay : Nat} (h : tickOfDay < Calendar.ticksPerDay)
    {rest : List Char} (hr : EndsTime rest) :
    takeTime (renderTime tickOfDay ++ rest) = some (tickOfDay, rest) := by
  simp only [Calendar.ticksPerDay, Calendar.ticksPerSecond] at h
  have hhours : tickOfDay / Calendar.ticksPerSecond / 3600 < 10 ^ 2 := by
    simp only [Calendar.ticksPerSecond]
    omega
  have hminutes : tickOfDay / Calendar.ticksPerSecond / 60 % 60 < 10 ^ 2 := by omega
  have hsixty : tickOfDay / Calendar.ticksPerSecond % 60 < 60 := Nat.mod_lt _ (by decide)
  have hfraction : tickOfDay % Calendar.ticksPerSecond < Calendar.ticksPerSecond :=
    Nat.mod_lt _ (by decide)
  have hseconds := takeSeconds_render hsixty hfraction hr
  simp only [takeTime, renderTime, List.append_assoc, List.cons_append, Option.bind_eq_bind,
    takeNumber_padded (by decide) hhours, takeNumber_padded (by decide) hminutes, takeChar,
    Option.bind_some, beq_self_eq_true, if_true, hseconds]
  rw [if_pos (by simp only [Calendar.ticksPerSecond]; omega)]
  congr 2
  simp only [Calendar.ticksPerMinute, Calendar.ticksPerSecond]
  omega

/-! ## Zones -/

theorem readZoneMinutes_padded {minutes : Nat} (h : minutes < 1440) :
    readZoneMinutes (padded 2 (minutes / 60) ++ ':' :: padded 2 (minutes % 60)) =
      some minutes := by
  have hhours : minutes / 60 < 10 ^ 2 := by omega
  have hrest : minutes % 60 < 10 ^ 2 := by omega
  have hlast := takeNumber_padded (by decide) hrest []
  rw [List.append_nil] at hlast
  simp only [readZoneMinutes, takeNumber_padded (by decide) hhours, Option.bind_eq_bind,
    Option.bind_some, takeChar, beq_self_eq_true, if_true, Option.getD_some, hlast]
  rw [if_pos ⟨trivial, by omega, by omega⟩]
  congr 1
  omega

theorem readZone_renderOffset {offset : Int} (hgt : -1440 < offset) (hlt : offset < 1440) :
    readZone (renderOffset offset) = some offset := by
  have habs : offset.natAbs < 1440 := by omega
  have hminutes := readZoneMinutes_padded habs
  unfold renderOffset
  by_cases hneg : offset < 0
  · rw [if_pos hneg, readZone, if_neg (by decide), if_neg (by decide), if_pos (by decide),
      hminutes]
    change some (-(offset.natAbs : Int)) = some offset
    congr 1
    omega
  · rw [if_neg hneg, readZone, if_neg (by decide), if_pos rfl, hminutes, Option.map_some]
    congr 1
    exact Int.natAbs_of_nonneg (Int.not_lt.1 hneg)

/-- The text of the zone of a timestamp. -/
theorem readZone_render {offset : Int} (hgt : -1440 < offset) (hlt : offset < 1440) :
    readZone (if offset = 0 then ['Z'] else renderOffset offset) = some offset := by
  split_ifs with h0
  · rw [h0]
    rfl
  · exact readZone_renderOffset hgt hlt

theorem endsTime_renderOffset (offset : Int) : EndsTime (renderOffset offset) := by
  unfold renderOffset
  split_ifs <;> exact EndsTime.cons (by decide) (by decide) (by decide)

theorem endsTime_zone (offset : Int) :
    EndsTime (if offset = 0 then ['Z'] else renderOffset offset) := by
  split_ifs
  · exact EndsTime.cons (by decide) (by decide) (by decide)
  · exact endsTime_renderOffset offset

/-! ## Timestamps -/

theorem readCivil_renderLocal (t : Timestamp) {zone : List Char} (hends : EndsTime zone)
    (hzone : readZone zone = some t.offset) :
    readCivil (t.renderLocal ++ zone) = some (Date.ofOrdinal (t.tick / Calendar.ticksPerDay),
      t.tick % Calendar.ticksPerDay, t.offset) := by
  have hday : t.tick / Calendar.ticksPerDay < Date.days :=
    (Nat.div_lt_iff_lt_mul (by decide)).2 t.tick_lt
  obtain ⟨-, hyear, hmonth, hdate⟩ := Date.ofOrdinal_bounds hday
  have htime := takeTime_renderTime (Nat.mod_lt t.tick (by decide)) hends
  simp only [readCivil, renderLocal, List.append_assoc, List.cons_append,
    takeDate_renderDate (Date.exists_ofOrdinal _) hyear hmonth hdate, Option.bind_eq_bind,
    Option.bind_some]
  rw [if_neg (List.cons_ne_nil _ _), takeChar, if_pos (by decide), Option.bind_some, htime,
    Option.bind_some, hzone, Option.bind_some]

/-- The date and time of a timestamp are read back with any text of its zone. -/
theorem read_renderLocal (t : Timestamp) {zone : List Char} (hends : EndsTime zone)
    (hzone : readZone zone = some t.offset) : read (t.renderLocal ++ zone) = .ok t := by
  have hday : t.tick / Calendar.ticksPerDay < Date.days :=
    (Nat.div_lt_iff_lt_mul (by decide)).2 t.tick_lt
  have hyear := (Date.ofOrdinal_bounds hday).1
  have htick : (Date.ofOrdinal (t.tick / Calendar.ticksPerDay)).toOrdinal * Calendar.ticksPerDay +
      t.tick % Calendar.ticksPerDay = t.tick := by
    rw [Date.toOrdinal_ofOrdinal]
    exact Nat.div_add_mod' _ _
  rw [read, readCivil_renderLocal t hends hzone]
  dsimp only
  rw [if_neg (by omega), htick, ofTick, dif_pos ⟨t.tick_lt, t.offset_gt, t.offset_lt⟩]

/-- A timestamp that was written is read back. -/
theorem read_render (t : Timestamp) : read t.render = .ok t :=
  read_renderLocal t (endsTime_zone t.offset) (readZone_render t.offset_gt t.offset_lt)

theorem read_renderNumeric (t : Timestamp) : read t.renderNumeric = .ok t :=
  read_renderLocal t (endsTime_renderOffset t.offset)
    (readZone_renderOffset t.offset_gt t.offset_lt)

end SplitTest.Timestamp
