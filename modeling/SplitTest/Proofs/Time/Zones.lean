import Mathlib
import SplitTest.Proofs.Time.RoundTrip
import SplitTest.Schema.Scalar

/-
  The zone of a timestamp that was read.
  A text is a date and time followed by a zone, which may be empty. What stands before the zone is a
  timestamp by itself, in UTC, and the zone moves the instant (`exists_zone_of_read`). A number has
  no zone and is in UTC (`names_of_timestamp`).
-/

namespace SplitTest

namespace Timestamp

/-! ## What is taken from the front of a text -/

/-- The text is exactly what is taken, whatever follows it. -/
def Takes {α : Type} (take : List Char → Option (α × List Char)) (front : List Char) (a : α) :
    Prop :=
  ∀ rest, take (front ++ rest) = some (a, rest)

theorem exists_takes_takeNumber {n number : Nat} {cs rest : List Char}
    (h : takeNumber n cs = some (number, rest)) :
    ∃ front, cs = front ++ rest ∧ Takes (takeNumber n) front number := by
  simp only [takeNumber] at h
  split_ifs at h with hdigits
  cases h
  refine ⟨cs.take n, (List.take_append_drop n cs).symm, fun rest => ?_⟩
  have htake : (cs.take n ++ rest).take n = cs.take n := List.take_left' hdigits.1
  have hdrop : (cs.take n ++ rest).drop n = rest := List.drop_left' hdigits.1
  simp only [takeNumber, htake, hdrop]
  rw [if_pos hdigits]

theorem exists_of_takeChar {p : Char → Bool} {cs rest : List Char} (h : takeChar p cs = some rest) :
    ∃ c, cs = c :: rest ∧ p c = true := by
  cases cs with
  | nil => cases h
  | cons c cs =>
    rw [takeChar] at h
    split_ifs at h with hp
    cases h
    exact ⟨c, rfl, hp⟩

theorem exists_takes_takeDate {date : Date} {cs rest : List Char}
    (h : takeDate cs = some (date, rest)) :
    ∃ front, cs = front ++ rest ∧ Takes takeDate front date := by
  simp only [takeDate, Option.bind_eq_bind, Option.bind_eq_some_iff, Prod.exists] at h
  obtain ⟨year, cs₁, hyear, cs₂, hdash, month, cs₃, hmonth, cs₄, hdash', day, cs₅, hday, h⟩ := h
  split_ifs at h with hexists
  cases h
  obtain ⟨years, rfl, hyears⟩ := exists_takes_takeNumber hyear
  obtain ⟨dash, rfl, hisDash⟩ := exists_of_takeChar hdash
  obtain ⟨months, rfl, hmonths⟩ := exists_takes_takeNumber hmonth
  obtain ⟨dash', rfl, hisDash'⟩ := exists_of_takeChar hdash'
  obtain ⟨days, rfl, hdays⟩ := exists_takes_takeNumber hday
  refine ⟨years ++ dash :: (months ++ dash' :: days), by simp, fun rest => ?_⟩
  simp only [takeDate, Option.bind_eq_bind, List.append_assoc, List.cons_append, hyears _,
    hmonths _, hdays _, Option.bind_some, takeChar, hisDash, hisDash', if_true, hexists]

/-- The seconds that are taken from the front of a text are all of some text. -/
theorem exists_takeSeconds {ticks : Nat} {cs rest : List Char}
    (h : takeSeconds cs = some (ticks, rest)) :
    ∃ front, cs = front ++ rest ∧ takeSeconds front = some (ticks, []) := by
  unfold takeSeconds at h
  split at h
  · simp only [Option.bind_eq_bind, Option.bind_eq_some_iff, Prod.exists] at h
    obtain ⟨seconds, cs₁, hseconds, h⟩ := h
    obtain ⟨digits, rfl, hdigits⟩ := exists_takes_takeNumber hseconds
    split_ifs at h with hlarge
    have hwhole : takeSeconds (':' :: digits) = some (seconds * Calendar.ticksPerSecond, []) := by
      have htake := hdigits []
      rw [List.append_nil] at htake
      simp only [takeSeconds, htake, Option.bind_eq_bind, Option.bind_some, if_neg hlarge]
    split at h
    · next c cs₂ =>
      split_ifs at h with hmark
      · simp only [Option.map_eq_some_iff, Prod.mk.injEq] at h
        obtain ⟨fraction, hfraction, rfl, rfl⟩ := h
        refine ⟨':' :: (digits ++ c :: (splitDigits cs₂).1), ?_, ?_⟩
        · simp [splitDigits]
        · have hsplit := splitDigits_append (allDigits_splitDigits cs₂) noDigitNext_nil
          rw [List.append_nil] at hsplit
          simp only [takeSeconds, hdigits _, Option.bind_eq_bind, Option.bind_some, if_neg hlarge,
            if_pos hmark, hsplit, hfraction, Option.map_some]
      · cases h
        exact ⟨':' :: digits, rfl, hwhole⟩
    · cases h
      exact ⟨':' :: digits, rfl, hwhole⟩
  · cases h
    exact ⟨[], rfl, rfl⟩

theorem exists_takeTime {ticks : Nat} {cs rest : List Char} (h : takeTime cs = some (ticks, rest)) :
    ∃ front, cs = front ++ rest ∧ takeTime front = some (ticks, []) := by
  simp only [takeTime, Option.bind_eq_bind, Option.bind_eq_some_iff, Prod.exists] at h
  obtain ⟨hour, cs₁, hhour, cs₂, hcolon, minute, cs₃, hminute, second, cs₄, hsecond, h⟩ := h
  split_ifs at h with hrange
  cases h
  obtain ⟨hours, rfl, hhours⟩ := exists_takes_takeNumber hhour
  obtain ⟨colon, rfl, hisColon⟩ := exists_of_takeChar hcolon
  obtain ⟨minutes, rfl, hminutes⟩ := exists_takes_takeNumber hminute
  obtain ⟨seconds, rfl, hseconds⟩ := exists_takeSeconds hsecond
  refine ⟨hours ++ colon :: (minutes ++ seconds), by simp, ?_⟩
  simp only [takeTime, Option.bind_eq_bind, hhours _, hminutes _, hseconds, Option.bind_some,
    takeChar, hisColon, if_true]
  rw [if_pos hrange]

/-- A date and time is followed by its zone, and is one without the zone. -/
theorem exists_readCivil {date : Date} {ticks : Nat} {offset : Int} {cs : List Char}
    (h : readCivil cs = some (date, ticks, offset)) :
    ∃ civil zone, cs = civil ++ zone ∧ readZone zone = some offset ∧
      readCivil civil = some (date, ticks, 0) := by
  simp only [readCivil, Option.bind_eq_bind, Option.bind_eq_some_iff, Prod.exists] at h
  obtain ⟨date', cs₁, hdate, h⟩ := h
  obtain ⟨days, rfl, hdays⟩ := exists_takes_takeDate hdate
  split_ifs at h with hend
  · cases h
    rw [hend]
    refine ⟨days ++ [], [], by simp, rfl, ?_⟩
    simp only [readCivil, Option.bind_eq_bind, hdays _, Option.bind_some, if_true]
  · simp only [Option.bind_eq_some_iff, Prod.exists] at h
    obtain ⟨cs₂, hmark, ticks', zone, htime, offset', hzone, h⟩ := h
    cases h
    obtain ⟨mark, rfl, hisMark⟩ := exists_of_takeChar hmark
    obtain ⟨time, rfl, hwhole⟩ := exists_takeTime htime
    refine ⟨days ++ mark :: time, zone, by simp, hzone, ?_⟩
    simp only [readCivil, Option.bind_eq_bind, hdays _, Option.bind_some, takeChar, hisMark,
      if_true, hwhole, readZone, if_neg (List.cons_ne_nil mark time)]

/-! ## Timestamps -/

theorem ofTick_eq_some_iff {tick : Nat} {offset : Int} {t : Timestamp} :
    ofTick tick offset = some t ↔ t.tick = tick ∧ t.offset = offset := by
  unfold ofTick
  constructor
  · intro h
    split_ifs at h
    cases h
    exact ⟨rfl, rfl⟩
  · rintro ⟨rfl, rfl⟩
    exact dif_pos ⟨t.tick_lt, t.offset_gt, t.offset_lt⟩

theorem offset_of_ofMicroseconds {n : Int} {t : Timestamp} (h : ofMicroseconds n = .ok t) :
    t.offset = 0 := by
  simp only [ofMicroseconds] at h
  split_ifs at h
  split at h
  · next ht =>
    cases h
    exact (ofTick_eq_some_iff.1 ht).2
  · cases h

theorem offset_of_ofBinary64 {x : Binary64} {t : Timestamp} (h : ofBinary64 x = .ok t) :
    t.offset = 0 := by
  unfold ofBinary64 at h
  split at h
  · exact offset_of_ofMicroseconds h
  · cases h

theorem offset_of_ofNumeral {n : Numeral} {t : Timestamp} (h : ofNumeral n = .ok t) :
    t.offset = 0 := by
  unfold ofNumeral at h
  split at h
  · cases h
  · split at h
    · next ht =>
      cases h
      exact offset_of_ofMicroseconds ht
    · cases h

/-- The same date and time is a timestamp in UTC too, and a zone that is ahead makes the instant
    earlier. -/
theorem exists_unmoved (t : Timestamp) :
    ∃ unmoved, ofTick t.tick 0 = some unmoved ∧ unmoved.offset = 0 ∧
      t.instant = unmoved.instant - t.offset * Calendar.ticksPerMinute := by
  refine ⟨_, dif_pos ⟨t.tick_lt, by decide, by decide⟩, rfl, ?_⟩
  simp [instant]

/-- A text that is a timestamp ends with its zone, which may be empty. What stands before it is a
    moment in UTC, and the zone moves the instant. -/
theorem exists_zone_of_read {cs : List Char} {t : Timestamp} (h : read cs = .ok t) :
    ∃ civil zone unmoved, cs = civil ++ zone ∧ readZone zone = some t.offset ∧
      read civil = .ok unmoved ∧ unmoved.offset = 0 ∧
      t.instant = unmoved.instant - t.offset * Calendar.ticksPerMinute := by
  have hread := h
  unfold read at h
  split at h
  · next date ticks offset hcivil =>
    split_ifs at h with hyear
    split at h
    · next ht =>
      cases h
      obtain ⟨htick, rfl⟩ := ofTick_eq_some_iff.1 ht
      obtain ⟨civil, zone, hcs, hzone, hcivil⟩ := exists_readCivil hcivil
      obtain ⟨unmoved, hunmoved, hmoved⟩ := exists_unmoved t
      rw [htick] at hunmoved
      refine ⟨civil, zone, unmoved, hcs, hzone, ?_, hmoved⟩
      simp only [read, hcivil, if_neg hyear, hunmoved]
    · cases h
  · split at h
    · have hoffset := offset_of_ofNumeral h
      refine ⟨cs, [], t, (List.append_nil cs).symm, ?_, hread, hoffset, ?_⟩
      · rw [hoffset, readZone]
      · rw [hoffset, Int.zero_mul, Int.sub_zero]
    · cases h

/-! ## Values of documents -/

/-- A value names a moment. A text does so up to its zone, as a moment in UTC, and the zone moves the
    instant; anything else counts in UTC. -/
inductive Names : Json → Timestamp → Prop
  | text {civil zone : List Char} {unmoved t : Timestamp} (hcivil : read civil = .ok unmoved)
      (hunmoved : unmoved.offset = 0) (hzone : readZone zone = some t.offset)
      (hinstant : t.instant = unmoved.instant - t.offset * Calendar.ticksPerMinute) :
      Names (.scalar (.text (String.ofList (civil ++ zone)))) t
  | number {j : Json} {t : Timestamp} (hj : ∀ s, j ≠ .scalar (.text s)) (hoffset : t.offset = 0) :
      Names j t

theorem ofTimestamp_eq_value {r : Except ReadFault Timestamp} {t : Timestamp} :
    Reading.ofTimestamp r = .value t ↔ r = .ok t := by
  unfold Reading.ofTimestamp Reading.fail
  split <;> simp

/-- A value that is read as a timestamp names it. -/
theorem names_of_timestamp {j : Json} {t : Timestamp} (h : Reading.timestamp j = .value t) :
    Names j t := by
  unfold Reading.timestamp at h
  split at h
  · next s =>
    obtain ⟨civil, zone, unmoved, hs, hzone, hcivil, hunmoved, hinstant⟩ :=
      exists_zone_of_read (ofTimestamp_eq_value.1 h)
    have htext : s = String.ofList (civil ++ zone) := by rw [← hs, String.ofList_toList]
    rw [htext]
    exact .text hcivil hunmoved hzone hinstant
  · split_ifs at h
    · exact .number nofun (offset_of_ofMicroseconds (ofTimestamp_eq_value.1 h))
    · cases h
  · exact .number nofun (offset_of_ofBinary64 (ofTimestamp_eq_value.1 h))
  · cases h

/-- The same clock face is an earlier instant where clocks are ahead, and is in UTC where no zone is
    named. -/
example :
    (read "2024-01-01T12:00:00+05:30".toList).toOption.map instant =
      (read "2024-01-01T06:30:00".toList).toOption.map instant := by
  decide +kernel

end Timestamp

end SplitTest
