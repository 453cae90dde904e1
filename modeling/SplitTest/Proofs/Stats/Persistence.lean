import Mathlib
import SplitTest.Proofs.Stats.Codec
import SplitTest.Proofs.Stats.Staleness
import SplitTest.Proofs.Time.RoundTrip

/-
  What an update leaves behind.
  After an update the store has the document of the statistics, and the cache has kept them. As long
  as nobody writes other statistics this stays so (`Kept.after`), through readings, invalidations,
  outages, other writes and any time that passes. A reader gets the statistics in all of it
  (`statistics_persist`): from the store when the cache has nothing fresh, and from the cache when
  their revenue is infinite and the document therefore cannot be read.
-/

namespace SplitTest

namespace World

/-- Asking for the statistics changes nothing in the store. -/
theorem store_asked (w : World App) : w.asked.store = w.state.server.store := by
  rcases Server.send_cases (.readText w.state.keys.stats) w.state.server with
    ⟨-, hstore⟩ | ⟨outage, -, hstore⟩
  · exact hstore
  · exact hstore

end World

namespace Statistics

/-! ## What the document stands for -/

theorem stands_document_iff {now : Timestamp} {text : String} (htext : text ≠ "")
    {s : PlatformStats} : Stands now (some text) s ↔ PlatformStats.ofText now text = .value s := by
  constructor
  · intro h
    cases h with
    | empty => exact absurd rfl htext
    | document h => exact h
  · exact .document

/-- The document of figures that make sense stands for them, unless their revenue is infinite: then
    it stands for nothing. -/
theorem stands_render_iff {now : Timestamp} {s d : PlatformStats} (hsized : s.Sized)
    (hrange : s.InRange) :
    Stands now (some s.render) d ↔ s.totalRevenue.isFinite = true ∧ d = s := by
  rw [stands_document_iff s.render_ne_empty, PlatformStats.ofText_render_eq_value hsized]
  constructor
  · rintro ⟨⟨hfinite, -, -⟩, hd⟩
    exact ⟨hfinite, hd⟩
  · rintro ⟨hfinite, hd⟩
    exact ⟨⟨hfinite, PlatformStats.isFinite_of_inRange hrange, hrange⟩, hd⟩

/-! ## What stays -/

/-- The event neither writes statistics nor touches the text under their key. -/
def Event.Spares (key : String) : Event → Prop
  | update _ | save _ => False
  | outside change => ∀ s, (change s).text? key = s.text? key
  | read | invalidate | outage _ | wait _ => True

/-- The store has the document of the statistics, and they are what the cache kept last. -/
structure Kept (keys : Keys) (s : PlatformStats) (w : World App) : Prop where
  sized : s.Sized
  inRange : s.InRange
  keys_eq : w.state.keys = keys
  text : w.state.server.store.text? keys.stats = some s.render
  cache : ∃ cache since, w.state.cache = some cache ∧ cache.kept = some (s, since)

section

variable {keys : Keys} {s : PlatformStats} {w : World App}

theorem Kept.leaving (h : Kept keys s w) {server : Server} {cache : TimedCache PlatformStats}
    {since : Instant} (hserver : server.store = w.state.server.store)
    (hcache : cache.kept = some (s, since)) (log : List Entry) :
    Kept keys s (w.leaving server cache log) where
  sized := h.sized
  inRange := h.inRange
  keys_eq := h.keys_eq
  text := (congrArg (Store.text? · keys.stats) hserver).trans h.text
  cache := ⟨cache, since, rfl, hcache⟩

/-- Whatever the store can be read as then is the statistics. -/
theorem Kept.stands_iff (h : Kept keys s w) {now : Timestamp} {d : PlatformStats} :
    Stands now (w.state.server.store.text? w.state.keys.stats) d ↔
      s.totalRevenue.isFinite = true ∧ d = s := by
  rw [h.keys_eq, h.text]
  exact stands_render_iff h.sized h.inRange

/-- A reader gets the statistics, and they stay. -/
theorem Kept.exists_stats_eq (h : Kept keys s w) :
    ∃ w', App.stats w = (.ok s, w') ∧ Kept keys s w' := by
  obtain ⟨cache, since, hcache, hkept⟩ := h.cache
  have hopen : App.openCache w = .ok cache := by rw [App.openCache, hcache]
  obtain ⟨d, server, cache', log, hstats, hsourced⟩ := Statistics.exists_stats_eq hopen
  cases hsourced with
  | cached hfresh =>
    obtain ⟨-, since', hkept', -⟩ := hfresh
    rw [hkept] at hkept'
    cases hkept'
    exact ⟨_, hstats, h.leaving rfl hkept log⟩
  | read _ hreads =>
    obtain ⟨-, rfl⟩ := h.stands_iff.1 hreads.stands
    exact ⟨_, hstats, h.leaving w.store_asked rfl log⟩
  | fallback =>
    rw [hkept] at hstats
    exact ⟨_, hstats, h.leaving w.store_asked hkept log⟩

/-- No event that spares the statistics takes them away. -/
theorem Kept.after (h : Kept keys s w) {event : Event} (hevent : event.Spares keys.stats) :
    Kept keys s (event.after w) := by
  cases event with
  | update given => exact hevent.elim
  | save given => exact hevent.elim
  | read =>
    obtain ⟨w', hstats, hkept⟩ := h.exists_stats_eq
    rw [Event.after, hstats]
    exact hkept
  | outside change =>
    exact ⟨h.sized, h.inRange, h.keys_eq, (hevent _).trans h.text, h.cache⟩
  | invalidate =>
    obtain ⟨cache, since, hcache, hkept⟩ := h.cache
    have hafter : Event.invalidate.after w = w.withCache cache.invalidate := by
      rw [Event.after, App.invalidateStats, App.openCache, hcache]
    rw [hafter]
    exact ⟨h.sized, h.inRange, h.keys_eq, h.text, ⟨cache.invalidate, since, rfl, hkept⟩⟩
  | outage failure => exact ⟨h.sized, h.inRange, h.keys_eq, h.text, h.cache⟩
  | wait micros => exact ⟨h.sized, h.inRange, h.keys_eq, h.text, h.cache⟩

theorem Kept.worldAfter (h : Kept keys s w) {events : List Event}
    (hevents : ∀ event ∈ events, event.Spares keys.stats) :
    Kept keys s (Statistics.worldAfter w events) := by
  induction events generalizing w with
  | nil => exact h
  | cons event events ih =>
    rw [List.forall_mem_cons] at hevents
    exact ih (h.after hevents.1) hevents.2

/-- A reader whose cache has nothing fresh gets the statistics from the store, whatever that cache
    kept before, if their revenue is finite. -/
theorem Kept.stats_withCache (h : Kept keys s w) (hw : w.Healthy)
    (hfinite : s.totalRevenue.isFinite = true) {cache : TimedCache PlatformStats}
    (hstale : ¬∃ kept, cache.Fresh w.clock kept) :
    (App.stats (w.withCache cache)).1 = .ok s := by
  have hopen : App.openCache (w.withCache cache) = .ok cache := rfl
  have hreads : (w.withCache cache).Reads s :=
    ⟨hw.hasClient, hw.failure, h.stands_iff.2 ⟨hfinite, rfl⟩⟩
  obtain ⟨d, server, cache', log, hstats, hsourced⟩ := Statistics.exists_stats_eq hopen
  rw [hstats]
  cases hsourced with
  | cached hfresh => exact absurd ⟨d, hfresh⟩ hstale
  | read _ hd => rw [(h.stands_iff.1 hd.stands).2]
  | fallback _ hnone => exact absurd ⟨s, hreads⟩ hnone

/-! ## Updates -/

/-- An update ends as its write to the store does. -/
theorem update_result {cache : TimedCache PlatformStats} (hopen : App.openCache w = .ok cache)
    (given : PlatformStats) :
    (App.runStats (update w.state.keys given) w).1 =
      (App.runStore (save w.state.keys (given.stamped (.utc w.clock))) (w.withCache cache)).1 := by
  unfold App.runStats
  rw [hopen, update]
  dsimp only
  rw [Program.run_bind_of_ok (show Program.now.run _ _ = (.ok w.clock, w.withCache cache) from rfl)]
  have hsave := run_overStore cache (save w.state.keys (given.stamped (.utc w.clock)))
    (w.withCache cache)
  rcases hresult : App.runStore (save w.state.keys (given.stamped (.utc w.clock)))
    (w.withCache cache) with ⟨r, after⟩
  rw [hresult] at hsave
  cases r with
  | error e => rw [Program.run_bind_of_error hsave]
  | ok saved =>
    rw [Program.run_bind_of_ok hsave]
    rfl

theorem runs_save (keys : Keys) (s : PlatformStats) (v : View) :
    Runs (save keys s) v (.ok s) { v with store := v.store.setText keys.stats s.render } :=
  Runs.bind (Runs.send fun _ => rfl) (Runs.bind (Runs.report _) (Runs.done s))

/-- On a store that works an update succeeds, and leaves the stamped statistics in store and
    cache. -/
theorem exists_update_kept {cache : TimedCache PlatformStats} (hopen : App.openCache w = .ok cache)
    (hw : w.Healthy) {given : PlatformStats} (hgiven : given.Accepted) :
    ∃ after, App.runStats (update w.state.keys given) w =
        (.ok (given.stamped (.utc w.clock)), after) ∧
      Kept w.state.keys (given.stamped (.utc w.clock)) after := by
  obtain ⟨r, cache', log, hupdate, hsaved, hcache⟩ := exists_update_eq hopen given
  have hresult := update_result hopen given
  have hshows : (w.withCache cache).Shows ⟨w.clock, w.issued, w.state.server.store⟩ :=
    ⟨⟨hw.hasClient, hw.failure⟩, rfl, rfl, rfl⟩
  rw [hupdate, (runs_save _ _ _ _ hshows).1] at hresult
  dsimp only at hresult
  subst hresult
  refine ⟨_, hupdate, hgiven.sized.stamped _, hgiven.inRange, rfl, ?_, ?_⟩
  · cases hsaved with
    | written hstore =>
      exact (congrArg (Store.text? · _) hstore).trans (Store.text?_setText_self _ _ _)
  · rcases hcache with ⟨s, hs, rfl⟩ | ⟨⟨e, he⟩, -⟩
    · cases hs
      exact ⟨_, w.clock, rfl, rfl⟩
    · cases he

end

/-- What an update makes of statistics: the same figures, under the id of the one record that is
    kept, with the text of the moment. -/
structure UpdatedAt (now : Instant) (given v : PlatformStats) : Prop where
  id : v.id = "current"
  lastUpdated : v.lastUpdated = String.ofList (Timestamp.utc now).renderNumeric
  /-- The text says which moment it was. -/
  moment : Timestamp.read v.lastUpdated.toList = .ok (.utc now)
  activeAuthors : v.activeAuthors = given.activeAuthors
  booksPublished : v.booksPublished = given.booksPublished
  totalRevenue : v.totalRevenue = given.totalRevenue
  averageRating : v.averageRating = given.averageRating
  countriesServed : v.countriesServed = given.countriesServed

theorem UpdatedAt.eq {now : Instant} {given v : PlatformStats} (h : UpdatedAt now given v) :
    v = { given with
      id := "current", lastUpdated := String.ofList (Timestamp.utc now).renderNumeric } := by
  obtain ⟨id, activeAuthors, booksPublished, totalRevenue, averageRating, countriesServed,
    lastUpdated⟩ := v
  obtain ⟨rfl, rfl, -, rfl, rfl, rfl, rfl, rfl⟩ := h
  rfl

theorem updatedAt_stamped (now : Instant) (given : PlatformStats) :
    UpdatedAt now given (given.stamped (.utc now)) := by
  refine ⟨rfl, rfl, ?_, rfl, rfl, rfl, rfl, rfl⟩
  change Timestamp.read (String.ofList (Timestamp.utc now).renderNumeric).toList = _
  rw [String.toList_ofList]
  exact Timestamp.read_renderNumeric _

/-- After an update on a store that works, which stamps the statistics with the moment, as long as
    nobody writes other ones: whatever is read, invalidated or written elsewhere, whatever fails and
    however much time passes, a reader gets what the update returned. If the revenue is finite, so
    does a reader whose cache has nothing fresh, whatever it kept before, as soon as the store
    works: the document says it all. -/
theorem statistics_persist {w : World App} {cache : TimedCache PlatformStats}
    (hopen : App.openCache w = .ok cache) (hw : w.Healthy) {given : PlatformStats}
    (hgiven : given.Accepted) :
    ∃ v after, App.runStats (update w.state.keys given) w = (.ok v, after) ∧
      UpdatedAt w.clock given v ∧
      ∀ events, (∀ event ∈ events, event.Spares w.state.keys.stats) →
        (App.stats (worldAfter after events)).1 = .ok v ∧
        (v.totalRevenue.isFinite = true → (worldAfter after events).Healthy →
          ∀ other : TimedCache PlatformStats,
            (¬∃ kept, other.Fresh (worldAfter after events).clock kept) →
              (App.stats ((worldAfter after events).withCache other)).1 = .ok v) := by
  obtain ⟨after, hupdate, hkept⟩ := exists_update_kept hopen hw hgiven
  refine ⟨_, after, hupdate, updatedAt_stamped w.clock given, fun events hevents => ?_⟩
  have hlater := hkept.worldAfter hevents
  obtain ⟨w', hstats, -⟩ := hlater.exists_stats_eq
  refine ⟨by rw [hstats], fun hfinite hhealthy other hstale => ?_⟩
  exact hlater.stats_withCache hhealthy hfinite hstale

/-- Figures with a number of any size, a negative zero and a fraction that binary has no end for,
    under another id and with a text that is no moment. -/
def figuresText : String :=
  "\x7b\"id\":\"draft\",\"active_authors\":\"1_200\"," ++
  "\"booksPublished\":123456789012345678901234567890,\"totalRevenue\":0.1," ++
  "\"averageRating\":-0.0,\"lastUpdated\":\"never\"\x7d"

/-- What they are read as. -/
def figures : PlatformStats :=
  ⟨"draft", 1200, 123456789012345678901234567890, .ofDecimal false 1 (-1), .finite true 0, 0,
    "never"⟩

theorem accepted_figures : figures.Accepted := by
  refine ⟨.utc 0, figuresText, Reading.eq_value_of_value? ?_⟩
  decide +kernel

/-- What an update makes of them at the start of 1970. -/
def figuresUpdated : PlatformStats :=
  { figures with id := "current", lastUpdated := "1970-01-01T00:00:00+00:00" }

theorem UpdatedAt.eq_figuresUpdated {v : PlatformStats} (h : UpdatedAt 0 figures v) :
    v = figuresUpdated := by
  have htext : String.ofList (Timestamp.utc 0).renderNumeric = "1970-01-01T00:00:00+00:00" := by
    decide +kernel
  rw [h.eq, htext]
  rfl

/-- They are read, go stale, are invalidated and cannot be read for a while; an experiment is
    written. -/
def hardTimes : List Event :=
  [.read, .wait 7200000000, .invalidate, .outage (some ⟨.connection, "redis down"⟩), .read,
    .outside fun store => store.setField "experiments:landing" "hero" "\x7b", .outage none]

/-- Afterwards a reader gets them, also from a cache that has kept nothing. -/
theorem statistics_persist_hardTimes :
    let w := App.start Settings.defaults true 0
    App.openCache w = .ok (.new 3600000000) ∧ w.Healthy ∧ figures.Accepted ∧
      (∀ event ∈ hardTimes, event.Spares w.state.keys.stats) ∧
      ∃ after, App.runStats (update w.state.keys figures) w = (.ok figuresUpdated, after) ∧
        (App.stats (worldAfter after hardTimes)).1 = .ok figuresUpdated ∧
        (App.stats ((worldAfter after hardTimes).withCache (.new 3600000000))).1 =
          .ok figuresUpdated := by
  intro w
  have hopen : App.openCache w = .ok (.new 3600000000) := rfl
  have hw : w.Healthy := ⟨rfl, rfl⟩
  have hspares : ∀ event ∈ hardTimes, event.Spares w.state.keys.stats := by
    simp only [hardTimes, List.forall_mem_cons, Event.Spares]
    exact ⟨trivial, trivial, trivial, trivial, trivial, fun _ => rfl, trivial,
      fun _ h => absurd h List.not_mem_nil⟩
  obtain ⟨v, after, hupdate, hstamped, hlater⟩ := statistics_persist hopen hw accepted_figures
  obtain rfl := hstamped.eq_figuresUpdated
  obtain ⟨hstats, hother⟩ := hlater hardTimes hspares
  have hhealthy : (worldAfter after hardTimes).Healthy := by
    have hafter : after = (App.runStats (update w.state.keys figures) w).2 := by rw [hupdate]
    rw [hafter]
    exact ⟨rfl, rfl⟩
  have hstale : ¬∃ kept : PlatformStats,
      (TimedCache.new 3600000000).Fresh (worldAfter after hardTimes).clock kept := by
    rintro ⟨kept, -, since, hkept, -⟩
    cases hkept
  have hfinite : figuresUpdated.totalRevenue.isFinite = true := by
    decide +kernel
  exact ⟨hopen, hw, accepted_figures, hspares, after, hupdate, hstats,
    hother hfinite hhealthy (.new 3600000000) hstale⟩

end Statistics

end SplitTest
