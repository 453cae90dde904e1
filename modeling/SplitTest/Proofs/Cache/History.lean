import Mathlib
import SplitTest.Cache

/-
  What a cache answers, in terms of its history.
  A history is a list of steps, in any order and of any length: values are kept, the cache is
  invalidated or looked at, and its clock is moved forward or backward. Of all this the answers
  depend on the last value kept, when that was, and whether an invalidation came after it
  (`run_of_lastKept`); before the first value there is nothing to answer (`kept_run`).
  `answers_from_history` puts that into one statement.
-/

namespace SplitTest

namespace TimedCache

/-! ## Freshness -/

section

variable {α : Type} {c : TimedCache α} {now : Instant}

/-- The value that is kept was not invalidated, and its age is below the lifetime. -/
def Fresh (c : TimedCache α) (now : Instant) (value : α) : Prop :=
  c.invalidated = false ∧ ∃ since, c.kept = some (value, since) ∧ now - since < c.lifetime

theorem fresh?_eq_some_iff {value : α} : c.fresh? now = some value ↔ c.Fresh now value := by
  unfold fresh? Fresh
  cases c.kept with
  | none => simp
  | some k =>
    obtain ⟨kept, since⟩ := k
    simp only [Option.some.injEq, Prod.mk.injEq, Option.ite_none_left_eq_some, not_or, not_le,
      Bool.not_eq_true]
    constructor
    · rintro ⟨⟨hvalid, hage⟩, rfl⟩
      exact ⟨hvalid, since, ⟨rfl, rfl⟩, hage⟩
    · rintro ⟨hvalid, _, ⟨rfl, rfl⟩, hage⟩
      exact ⟨⟨hvalid, hage⟩, rfl⟩

theorem fresh?_eq_none_iff : c.fresh? now = none ↔ ¬∃ value, c.Fresh now value := by
  rw [Option.eq_none_iff_forall_ne_some]
  simp only [ne_eq, fresh?_eq_some_iff, not_exists]

/-- What is not fresh stays so until a value is kept. -/
theorem not_fresh_mono {later : Instant} (hle : now ≤ later) (h : ¬∃ value, c.Fresh now value) :
    ¬∃ value, c.Fresh later value := by
  rintro ⟨value, hvalid, since, hkept, hage⟩
  exact h ⟨value, hvalid, since, hkept,
    Int.lt_of_le_of_lt (Int.sub_le_sub_right hle since) hage⟩

end

/-! ## Histories -/

/-- What a cache can be asked for: its fresh value, the value kept last, or the age of that. -/
inductive Look
  | fresh
  | stale
  | age
  deriving DecidableEq

/-- The answer to a look; an age is in seconds. -/
abbrev Look.Answer (α : Type) : Look → Type
  | fresh => Option α
  | stale => Option α
  | age => Option Binary64

/-- What can happen to a cache and its clock. -/
inductive Step (α : Type)
  | keep (value : α)
  | invalidate
  | look (l : Look)
  /-- The clock moves by so many microseconds, back if there are fewer than none. -/
  | move (micros : Int)

/-- A step that is more than a look. -/
def Step.isChange {α : Type} : Step α → Bool
  | look _ => false
  | _ => true

/-- A cache with its clock. -/
structure Clocked (α : Type) where
  cache : TimedCache α
  now : Instant

namespace Clocked

variable {α : Type}

/-- A new cache, when the clock shows some time. -/
def start (ttl : Int) (now : Instant) : Clocked α := ⟨.new ttl, now⟩

/-- What a look gives. -/
def answer (t : Clocked α) : (l : Look) → l.Answer α
  | .fresh => t.cache.fresh? t.now
  | .stale => t.cache.stale?
  | .age => (t.cache.age? t.now).map ageSeconds

/-- What a step does. -/
def step (t : Clocked α) : Step α → Clocked α
  | .keep value => { t with cache := t.cache.keep value t.now }
  | .invalidate => { t with cache := t.cache.invalidate }
  | .look _ => t
  | .move micros => { t with now := t.now + micros }

/-- What a history does. -/
def run (t : Clocked α) (history : List (Step α)) : Clocked α :=
  history.foldl step t

theorem run_cons (t : Clocked α) (s : Step α) (history : List (Step α)) :
    t.run (s :: history) = (t.step s).run history := rfl

theorem run_append (t : Clocked α) (earlier later : List (Step α)) :
    t.run (earlier ++ later) = (t.run earlier).run later :=
  List.foldl_append

/-- Looking changes nothing. -/
theorem run_filter_isChange (t : Clocked α) (history : List (Step α)) :
    t.run (history.filter Step.isChange) = t.run history := by
  induction history generalizing t with
  | nil => rfl
  | cons s history ih =>
    cases s with
    | look l =>
      rw [List.filter_cons_of_neg (by simp [Step.isChange]), run_cons]
      exact ih t
    | keep | invalidate | move =>
      rw [List.filter_cons_of_pos rfl, run_cons, run_cons]
      exact ih _

theorem lifetime_run (t : Clocked α) (history : List (Step α)) :
    (t.run history).cache.lifetime = t.cache.lifetime := by
  induction history generalizing t with
  | nil => rfl
  | cons s history ih =>
    rw [run_cons, ih]
    cases s <;> rfl

/-- A clock that is never moved back does not fall behind. -/
theorem now_le_now_run (t : Clocked α) {history : List (Step α)}
    (h : ∀ micros, .move micros ∈ history → 0 ≤ micros) : t.now ≤ (t.run history).now := by
  induction history generalizing t with
  | nil => exact le_refl t.now
  | cons s history ih =>
    have hrest := ih (t.step s) fun micros hm => h micros (List.mem_cons_of_mem s hm)
    rw [run_cons]
    refine le_trans ?_ hrest
    cases s with
    | move micros =>
      show t.now ≤ t.now + micros
      exact Int.le_add_of_nonneg_right (h micros List.mem_cons_self)
    | keep | invalidate | look => exact le_refl t.now

end Clocked

/-- No value is kept in a history. -/
def KeepsNothing {α : Type} (history : List (Step α)) : Prop :=
  ∀ value, .keep value ∉ history

/-- The value that is kept last in a history, with what came before and after that. -/
structure LastKept {α : Type} (history : List (Step α)) (value : α)
    (before later : List (Step α)) : Prop where
  split : history = before ++ .keep value :: later
  last : KeepsNothing later

section

variable {α : Type} {history : List (Step α)} {value : α} {before later : List (Step α)}

theorem keepsNothing_cons {s : Step α} :
    KeepsNothing (s :: history) ↔ (∀ value, s ≠ .keep value) ∧ KeepsNothing history := by
  simp only [KeepsNothing, List.mem_cons, not_or, forall_and, ne_eq, eq_comm]

/-- A history that keeps something keeps something last. -/
theorem exists_lastKept (h : ¬KeepsNothing history) :
    ∃ value before later, LastKept history value before later := by
  induction history with
  | nil => exact absurd (fun _ => List.not_mem_nil) h
  | cons s history ih =>
    by_cases hrest : KeepsNothing history
    · have hkeep : ∃ value, s = .keep value := by
        by_contra hnone
        exact h (keepsNothing_cons.2 ⟨not_exists.1 hnone, hrest⟩)
      obtain ⟨value, rfl⟩ := hkeep
      exact ⟨value, [], history, rfl, hrest⟩
    · obtain ⟨value, before, later, rfl, hlast⟩ := ih hrest
      exact ⟨value, s :: before, later, rfl, hlast⟩

/-! ## What a cache remembers -/

/-- Without a new value the old one stays, and only an invalidation marks it. -/
theorem kept_run (t : Clocked α) (h : KeepsNothing history) :
    (t.run history).cache.kept = t.cache.kept ∧
      ((t.run history).cache.invalidated = true ↔
        t.cache.invalidated = true ∨ .invalidate ∈ history) := by
  induction history generalizing t with
  | nil => simp [Clocked.run]
  | cons s history ih =>
    obtain ⟨hs, hrest⟩ := keepsNothing_cons.1 h
    obtain ⟨hkept, hinvalidated⟩ := ih (t.step s) hrest
    rw [Clocked.run_cons, hkept, hinvalidated, List.mem_cons]
    cases s with
    | keep value => exact absurd rfl (hs value)
    | invalidate => exact ⟨rfl, by simp [Clocked.step, TimedCache.invalidate]⟩
    | look | move => exact ⟨rfl, by simp [Clocked.step]⟩

variable {ttl : Int} {now : Instant}

/-- Before the first value there is nothing. -/
theorem kept_run_start (h : KeepsNothing history) :
    ((Clocked.start ttl now).run history).cache.kept = none :=
  (kept_run _ h).1

/-- After that, a cache remembers the last value, when it was kept, and whether it was invalidated
    since. -/
theorem run_of_lastKept (h : LastKept history value before later) :
    ((Clocked.start ttl now).run history).cache.kept =
        some (value, ((Clocked.start ttl now).run before).now) ∧
      (((Clocked.start ttl now).run history).cache.invalidated = true ↔
        .invalidate ∈ later) := by
  obtain ⟨hkept, hinvalidated⟩ :=
    kept_run (((Clocked.start ttl now).run before).step (.keep value)) h.last
  rw [h.split, Clocked.run_append, Clocked.run_cons, hkept, hinvalidated]
  exact ⟨rfl, by simp [Clocked.step, TimedCache.keep]⟩

/-- What a cache remembers is what its history says. -/
theorem remembered_iff {since : Instant} {invalidated : Bool} :
    ((Clocked.start ttl now).run history).cache.kept = some (value, since) ∧
        ((Clocked.start ttl now).run history).cache.invalidated = invalidated ↔
      ∃ before later, LastKept history value before later ∧
        ((Clocked.start ttl now).run before).now = since ∧
        (invalidated = true ↔ .invalidate ∈ later) := by
  constructor
  · rintro ⟨hkept, rfl⟩
    have hsomething : ¬KeepsNothing history := by
      intro hnothing
      rw [kept_run_start hnothing] at hkept
      cases hkept
    obtain ⟨value', before, later, hlast⟩ := exists_lastKept hsomething
    rw [(run_of_lastKept hlast).1, Option.some.injEq, Prod.mk.injEq] at hkept
    obtain ⟨rfl, hsince⟩ := hkept
    exact ⟨before, later, hlast, hsince, (run_of_lastKept hlast).2⟩
  · rintro ⟨before, later, hlast, rfl, hflag⟩
    obtain ⟨hkept, hinvalidated⟩ := run_of_lastKept hlast
    exact ⟨hkept, Bool.eq_iff_iff.2 (hinvalidated.trans hflag.symm)⟩

/-! ## Answers -/

theorem answer_fresh_iff :
    ((Clocked.start ttl now).run history).answer .fresh = some value ↔
      ∃ before later, LastKept history value before later ∧ .invalidate ∉ later ∧
        ((Clocked.start ttl now).run history).now - ((Clocked.start ttl now).run before).now <
          ttl := by
  rw [Clocked.answer, fresh?_eq_some_iff, Fresh, Clocked.lifetime_run]
  constructor
  · rintro ⟨hvalid, since, hkept, hage⟩
    obtain ⟨before, later, hlast, rfl, hflag⟩ := remembered_iff.1 ⟨hkept, hvalid⟩
    exact ⟨before, later, hlast, by simpa using hflag, hage⟩
  · rintro ⟨before, later, hlast, hvalid, hage⟩
    have hflag : false = true ↔ .invalidate ∈ later := by simpa using hvalid
    obtain ⟨hkept, hinvalidated⟩ := remembered_iff.2 ⟨before, later, hlast, rfl, hflag⟩
    exact ⟨hinvalidated, _, hkept, hage⟩

theorem answer_stale_iff :
    ((Clocked.start ttl now).run history).answer .stale = some value ↔
      ∃ before later, LastKept history value before later := by
  rw [Clocked.answer, stale?, Option.map_eq_some_iff]
  constructor
  · rintro ⟨⟨_, since⟩, hkept, rfl⟩
    obtain ⟨before, later, hlast, -⟩ := remembered_iff.1 ⟨hkept, rfl⟩
    exact ⟨before, later, hlast⟩
  · rintro ⟨before, later, hlast⟩
    exact ⟨_, (run_of_lastKept hlast).1, rfl⟩

theorem answer_age_iff {age : Binary64} :
    ((Clocked.start ttl now).run history).answer .age = some age ↔
      ∃ value before later, LastKept history value before later ∧
        age = ageSeconds (((Clocked.start ttl now).run history).now -
          ((Clocked.start ttl now).run before).now) := by
  -- a composition would have the kernel work the age out
  rw [Clocked.answer, age?, Option.map_map, Function.comp_def, Option.map_eq_some_iff]
  constructor
  · rintro ⟨⟨value, _⟩, hkept, rfl⟩
    obtain ⟨before, later, hlast, rfl, -⟩ := remembered_iff.1 ⟨hkept, rfl⟩
    exact ⟨value, before, later, hlast, rfl⟩
  · rintro ⟨value, before, later, hlast, rfl⟩
    exact ⟨_, (run_of_lastKept hlast).1, rfl⟩

/-! ## Steps that leave no trace -/

/-- Two caches that differ at most in the mark of an invalidation that met no value. -/
structure Alike (t t' : Clocked α) : Prop where
  now : t'.now = t.now
  lifetime : t'.cache.lifetime = t.cache.lifetime
  kept : t'.cache.kept = t.cache.kept
  invalidated : t.cache.kept ≠ none → t'.cache.invalidated = t.cache.invalidated

theorem Alike.step {t t' : Clocked α} (h : Alike t t') (s : Step α) :
    Alike (t.step s) (t'.step s) := by
  cases s with
  | keep value =>
    refine ⟨h.now, h.lifetime, ?_, fun _ => rfl⟩
    show some (value, t'.now) = some (value, t.now)
    rw [h.now]
  | invalidate => exact ⟨h.now, h.lifetime, h.kept, fun _ => rfl⟩
  | look l => exact h
  | move micros =>
    refine ⟨?_, h.lifetime, h.kept, h.invalidated⟩
    show t'.now + micros = t.now + micros
    rw [h.now]

theorem Alike.run {t t' : Clocked α} (h : Alike t t') (history : List (Step α)) :
    Alike (t.run history) (t'.run history) := by
  induction history generalizing t t' with
  | nil => exact h
  | cons s history ih => exact ih (h.step s)

theorem Alike.answer {t t' : Clocked α} (h : Alike t t') (l : Look) : t'.answer l = t.answer l := by
  cases l with
  | fresh =>
    apply Option.ext
    intro value
    simp only [Clocked.answer, fresh?_eq_some_iff, Fresh, h.now, h.lifetime, h.kept]
    refine and_congr_left fun hkept => ?_
    obtain ⟨since, hkept, -⟩ := hkept
    rw [h.invalidated (by simp [hkept])]
  | stale => rw [Clocked.answer, Clocked.answer, stale?, stale?, h.kept]
  | age => rw [Clocked.answer, Clocked.answer, age?, age?, h.kept, h.now]

/-- An invalidation before the first value is without consequence. -/
theorem alike_invalidate (h : KeepsNothing history) :
    Alike ((Clocked.start ttl now).run history)
      (((Clocked.start ttl now).run history).step .invalidate) :=
  ⟨rfl, rfl, rfl, fun hsome => absurd (kept_run_start h) hsome⟩

/-- What is not fresh stays so until the next value, as long as the clock does not go back. -/
theorem answer_fresh_run_eq_none {t : Clocked α} (h : t.answer .fresh = none)
    (hnothing : KeepsNothing later) (hmoves : ∀ micros, .move micros ∈ later → 0 ≤ micros) :
    (t.run later).answer .fresh = none := by
  rw [Clocked.answer, fresh?_eq_none_iff] at h ⊢
  obtain ⟨hkept, hinvalidated⟩ := kept_run t hnothing
  rintro ⟨value, hvalid, hage⟩
  apply not_fresh_mono (Clocked.now_le_now_run t hmoves) h
  refine ⟨value, ?_, ?_⟩
  · rw [← Bool.not_eq_true, hinvalidated, not_or] at hvalid
    exact Bool.eq_false_iff.2 hvalid.1
  · rwa [hkept, Clocked.lifetime_run] at hage

end

/-- Over every lifetime, every clock and every history of a new cache. A value is answered as fresh
    exactly if it is the one kept last, nothing was invalidated after that, and less than a lifetime
    has passed since by the clock. The value kept last, however old, and its age are answered exactly
    if there is one. Histories with the same changes have the same answers, however often the cache
    was looked at. An invalidation before the first value changes no later answer. And once nothing
    is fresh, nothing is until the next value, as long as the clock does not go back. -/
theorem answers_from_history {α : Type} (ttl : Int) (now : Instant) (history : List (Step α)) :
    (∀ value, ((Clocked.start ttl now).run history).answer .fresh = some value ↔
      ∃ before later, LastKept history value before later ∧ .invalidate ∉ later ∧
        ((Clocked.start ttl now).run history).now - ((Clocked.start ttl now).run before).now <
          ttl) ∧
    (∀ value, ((Clocked.start ttl now).run history).answer .stale = some value ↔
      ∃ before later, LastKept history value before later) ∧
    (∀ age, ((Clocked.start ttl now).run history).answer .age = some age ↔
      ∃ value before later, LastKept history value before later ∧
        age = ageSeconds (((Clocked.start ttl now).run history).now -
          ((Clocked.start ttl now).run before).now)) ∧
    (∀ history' : List (Step α), history'.filter Step.isChange = history.filter Step.isChange →
      ∀ l, ((Clocked.start ttl now).run history').answer l =
        ((Clocked.start ttl now).run history).answer l) ∧
    (KeepsNothing history → ∀ later l,
      ((Clocked.start ttl now).run (history ++ .invalidate :: later)).answer l =
        ((Clocked.start ttl now).run (history ++ later)).answer l) ∧
    ∀ later : List (Step α), KeepsNothing later →
      (∀ micros, .move micros ∈ later → 0 ≤ micros) →
      ((Clocked.start ttl now).run history).answer .fresh = none →
      ((Clocked.start ttl now).run (history ++ later)).answer .fresh = none := by
  refine ⟨fun _ => answer_fresh_iff, fun _ => answer_stale_iff, fun _ => answer_age_iff, ?_, ?_, ?_⟩
  · intro history' hchanges l
    rw [← Clocked.run_filter_isChange _ history', hchanges, Clocked.run_filter_isChange]
  · intro hnothing later l
    rw [Clocked.run_append, Clocked.run_append, Clocked.run_cons]
    exact ((alike_invalidate hnothing).run later).answer l
  · intro later hnothing hmoves hnone
    rw [Clocked.run_append]
    exact answer_fresh_run_eq_none hnone hnothing hmoves

/-- At the end of the lifetime a value is no longer fresh; a clock that goes back a little makes it
    fresh again. -/
theorem answers_from_history_boundary :
    ((Clocked.start 60000000 0).run [.invalidate, .keep "v1", .move 60000000]).answer .fresh =
        none ∧
      ((Clocked.start 60000000 0).run
        [.invalidate, .keep "v1", .move 60000000, .look .fresh, .move (-1)]).answer .fresh =
        some "v1" := by
  refine ⟨by decide, ?_⟩
  obtain ⟨hfresh, -⟩ := answers_from_history 60000000 0
    [.invalidate, .keep "v1", .move 60000000, .look .fresh, .move (-1)]
  have hlast : LastKept
      [.invalidate, .keep "v1", .move 60000000, .look .fresh, .move (-1)] "v1"
      [.invalidate] [.move 60000000, .look .fresh, .move (-1)] :=
    ⟨rfl, by simp [KeepsNothing]⟩
  exact (hfresh "v1").2 ⟨_, _, hlast, by simp, by decide⟩

end TimedCache

end SplitTest
