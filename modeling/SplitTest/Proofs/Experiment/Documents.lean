import Mathlib
import SplitTest.Proofs.Assignment.Service
import SplitTest.Proofs.Experiment.Readability

/-
  Loading what was stored.
  An experiment that was read from some text is rendered as a document. Loading that document gives
  the experiment back, the kinds and the order of all values and the zones of both timestamps
  included, unless one of its configurations holds a double that is not finite: then the document
  has faults (`document_exact`). What the clock shows plays no part.
-/

namespace SplitTest

open Experiments

/-- Loading the document of an experiment that was read from some text gives that experiment, and no
    other, exactly when all doubles in its configurations are finite. Otherwise the document has
    faults. Nothing else changes. -/
theorem document_exact {e : Experiment} (h : e.Accepted) (w : World App) :
    (∀ d, App.runStore (load e.render) w = (.ok d, w) ↔
      (∀ v ∈ e.variants, ∀ entry ∈ v.config.entries, entry.2.Finite) ∧ d = e) ∧
    ((∃ v ∈ e.variants, ∃ entry ∈ v.config.entries, ¬entry.2.Finite) ↔
      ∃ faults, App.runStore (load e.render) w = (.error (.invalidDocument faults), w)) := by
  rw [runStore_load]
  have hok : ∀ d, decode (.utc w.clock) e.render = .ok d ↔ e.Finite ∧ d = e :=
    fun d => decode_eq_ok_iff.trans (Experiment.ofText_render_eq_value h.sized)
  refine ⟨fun d => ?_, ?_⟩
  · rw [Prod.mk.injEq, hok d]
    exact and_iff_left rfl
  · have hfinite : (∃ v ∈ e.variants, ∃ entry ∈ v.config.entries, ¬entry.2.Finite) ↔ ¬e.Finite := by
      simp only [Experiment.Finite, Config.Finite]
      push Not
      rfl
    rw [hfinite]
    constructor
    · intro hnot
      cases hdecode : decode (.utc w.clock) e.render with
      | ok d => exact absurd ((hok d).1 hdecode).1 hnot
      | error error =>
        obtain ⟨faults, rfl⟩ := exists_faults_of_decode_error hdecode
        exact ⟨faults, rfl⟩
    · rintro ⟨faults, hfaults⟩ hall
      rw [(hok e).2 ⟨hall, rfl⟩] at hfaults
      cases hfaults

/-! ## An experiment with every kind of value -/

/-- A text with all kinds of values, some of which look like others, and with timestamps in two
    zones. -/
def assortedText : String :=
  "\x7b\"id\":\"caf\\u00e9 \\\"1\\\"\",\"page\":\"landing\",\"isActive\":\"off\",\"variants\":[" ++
  "\x7b\"id\":\"a\",\"trafficPercentage\":\"40\",\"config\":\x7b\"on\":true,\"one\":1,\"whole\":2.0," ++
  "\"minus\":-0.0,\"tenth\":0.1,\"text\":\"1\",\"day\":\"2026-01-01\",\"on\":false\x7d\x7d," ++
  "\x7b\"id\":\"b\",\"config\":\x7b\"long\":123456789012345678901234567890\x7d\x7d]," ++
  "\"createdAt\":\"2026-01-01T12:30:00.000001+05:30\",\"updatedAt\":\"2026-01-01 00:00\"\x7d"

/-- What it is read as. -/
def assorted : Experiment where
  id := "café \"1\""
  name := ""
  page := "landing"
  isActive := false
  variants :=
    [⟨"a", "", 40, .ofList [("on", .flag false), ("one", .whole 1), ("whole", .real (.ofInt 2)),
      ("minus", .real (.finite true 0)), ("tenth", .real (.ofDecimal false 1 (-1))),
      ("text", .text "1"), ("day", .text "2026-01-01")]⟩,
     ⟨"b", "", 0, .ofList [("long", .whole 123456789012345678901234567890)]⟩]
  createdAt := (Timestamp.ofTick (63902867400 * Calendar.ticksPerSecond + 1) 330).getD (.utc 0)
  updatedAt := .utc (1767225600 * Calendar.ticksPerSecond)

theorem accepted_assorted : assorted.Accepted := by
  refine ⟨.utc 0, assortedText, Reading.eq_value_of_value? ?_⟩
  decide +kernel

theorem accepted_boundless (now : Timestamp) : (boundless now).Accepted :=
  ⟨now, boundlessText, ofText_boundlessText now⟩

/-- It is given back as it was, and an infinite double is not. -/
theorem document_exact_assorted :
    assorted.Accepted ∧ (boundless (.utc 0)).Accepted ∧
      (App.runStore (load assorted.render) (App.start Settings.defaults true 0)).1 = .ok assorted ∧
      ∃ faults, (App.runStore (load (boundless (.utc 0)).render)
        (App.start Settings.defaults true 0)).1 = .error (.invalidDocument faults) := by
  refine ⟨accepted_assorted, accepted_boundless _, ?_, ?_⟩
  · have hfinite : assorted.Finite := by decide +kernel
    rw [((document_exact accepted_assorted (App.start Settings.defaults true 0)).1 assorted).2
      ⟨hfinite, rfl⟩]
  · obtain ⟨faults, hfaults⟩ :=
      (document_exact (accepted_boundless (.utc 0)) (App.start Settings.defaults true 0)).2.1
        ⟨_, List.mem_cons_self, ("a", .real (.infinite false)), List.mem_cons_self,
          Bool.noConfusion⟩
    exact ⟨faults, congrArg Prod.fst hfaults⟩

end SplitTest
