import Mathlib
import SplitTest.Proofs.Stats.Reading
import SplitTest.Proofs.Store.Outages

/-
  How old the statistics for a reader can be.
  A run is a list of events, in any order and of any length: readings, updates, writes that the
  cache does not know of, invalidations, outages and the passing of time. The invariant is that a
  value in the cache that is not invalidated is `Backed`: when it was kept, the store stood for it or
  an update had just written it, and no invalidation came after that. So what a reader gets, unless
  the store was asked in vain, was true less than a lifetime ago (`staleness_bounded`).
-/

namespace SplitTest

namespace Statistics

/-! ## Updates -/

/-- The server after statistics were sent to it. -/
def sent (w : World App) (s : PlatformStats) : Server :=
  (w.state.server.send (.writeText w.state.keys.stats s.render)).2

/-- What the attempt to write statistics ends with, and what it does to the store. -/
inductive Saved (w : World App) (s : PlatformStats) : Except Error PlatformStats → Prop
  | written (hstore : (sent w s).store =
      w.state.server.store.setText w.state.keys.stats s.render) : Saved w s (.ok s)
  | refused (e : Error) (hstore : (sent w s).store = w.state.server.store) : Saved w s (.error e)

theorem exists_run_save (w : World App) (s : PlatformStats) :
    ∃ r log, App.runStore (save w.state.keys s) w = (r, { w.withServer (sent w s) with log }) ∧
      Saved w s r := by
  have hsend := runStore_send (.writeText w.state.keys.stats s.render) w
  rcases Server.send_cases (.writeText w.state.keys.stats s.render) w.state.server with
    ⟨hanswer, hstore⟩ | ⟨outage, hanswer, hstore⟩
  · rw [hanswer] at hsend
    exact ⟨_, _, Program.run_bind_of_ok hsend, .written hstore⟩
  · rw [hanswer] at hsend
    exact ⟨_, _, Program.run_bind_of_error hsend, .refused _ hstore⟩

/-- Statistics that were written are kept; an update that is refused leaves the cache as it was. -/
theorem exists_update_eq {cache : TimedCache PlatformStats} {w : World App}
    (hopen : App.openCache w = .ok cache) (given : PlatformStats) :
    ∃ r cache' log, App.runStats (update w.state.keys given) w =
        (r, w.leaving (sent w (given.stamped (.utc w.clock))) cache' log) ∧
      Saved w (given.stamped (.utc w.clock)) r ∧
      ((∃ s, r = .ok s ∧ cache' = ⟨cache.lifetime, some (s, w.clock), false⟩) ∨
        (∃ e, r = .error e) ∧ cache' = cache) := by
  have hupdate : App.runStats (update w.state.keys given) w =
      (update w.state.keys given).run (App.answerQuery cache)
        (w.leaving w.state.server cache w.log) := by
    unfold App.runStats
    rw [hopen]
    rfl
  obtain ⟨r, log, hsave, hsaved⟩ := exists_run_save (w.leaving w.state.server cache w.log)
    (given.stamped (.utc w.clock))
  rw [← run_overStore cache] at hsave
  rw [hupdate, update, Program.run_bind_of_ok run_now]
  cases hsaved with
  | written hstore =>
    refine ⟨_, _, _, (Program.run_bind_of_ok hsave).trans rfl, .written hstore,
      Or.inl ⟨_, rfl, rfl⟩⟩
  | refused e hstore =>
    exact ⟨_, _, _, Program.run_bind_of_error hsave, .refused e hstore, Or.inr ⟨⟨e, rfl⟩, rfl⟩⟩

/-! ## Runs -/

/-- What can happen to the statistics. -/
inductive Event
  | read
  | update (given : PlatformStats)
  /-- Statistics are written without the cache knowing. -/
  | save (s : PlatformStats)
  /-- Others change the contents of the store, for instance by writing any text under the key. -/
  | outside (change : Store → Store)
  | invalidate
  /-- The store starts to fail, or recovers. -/
  | outage (failure : Option Failure)
  /-- Microseconds pass. -/
  | wait (micros : Nat)

/-- The world after an event. -/
def Event.after (w : World App) : Event → World App
  | read => (App.stats w).2
  | update given => (App.runStats (Statistics.update w.state.keys given) w).2
  | save s => (App.runStore (Statistics.save w.state.keys s) w).2
  | outside change =>
    w.withServer { w.state.server with store := change w.state.server.store }
  | invalidate => (App.invalidateStats w).2
  | outage failure => w.withServer { w.state.server with failure }
  | wait micros => { w with clock := w.clock + micros }

/-- The world after a run. -/
def worldAfter (w : World App) (events : List Event) : World App :=
  events.foldl Event.after w

theorem worldAfter_snoc (w : World App) (events : List Event) (event : Event) :
    worldAfter w (events ++ [event]) = event.after (worldAfter w events) := by
  rw [worldAfter, List.foldl_append]
  rfl

/-- At the end of a run the store stands for these statistics, or an update has just written them. -/
inductive Vouched (w : World App) (events : List Event) (s : PlatformStats) : Prop
  | stored (h : Stands (.utc (worldAfter w events).clock)
      ((worldAfter w events).state.server.store.text? (worldAfter w events).state.keys.stats) s)
  | written (before : List Event) (given : PlatformStats) (hlast : events = before ++ [.update given])
      (hresult : (App.runStats (update (worldAfter w before).state.keys given)
        (worldAfter w before)).1 = .ok s)
      (htext : (worldAfter w events).state.server.store.text?
        (worldAfter w events).state.keys.stats = some s.render)

/-- At some moment of the run, when the clock showed `since`, the statistics were vouched for, and
    nothing was invalidated from then on. -/
def Backed (w : World App) (events : List Event) (s : PlatformStats) (since : Instant) : Prop :=
  ∃ earlier later, events = earlier ++ later ∧ .invalidate ∉ later ∧
    (worldAfter w earlier).clock = since ∧ Vouched w earlier s

/-- A cache of the given lifetime whose value, unless it is invalidated, is backed. -/
structure Sound (w : World App) (ttl : Int) (events : List Event)
    (c : TimedCache PlatformStats) : Prop where
  lifetime : c.lifetime = ttl
  backed : c.invalidated = false → ∀ s since, c.kept = some (s, since) → Backed w events s since

/-- What holds at the end of every run. -/
structure Upheld (w : World App) (ttl : Int) (events : List Event) : Prop where
  settings : (worldAfter w events).state.settings = w.state.settings
  cache : ∀ c ∈ (worldAfter w events).state.cache, Sound w ttl events c

section

variable {w : World App} {ttl : Int} {events : List Event} {event : Event}
  {c : TimedCache PlatformStats} {s : PlatformStats} {since : Instant}

theorem sound_new : Sound w ttl events (.new ttl) :=
  ⟨rfl, fun _ _ _ hkept => by cases hkept⟩

theorem Vouched.backed (h : Vouched w events s) : Backed w events s (worldAfter w events).clock :=
  ⟨events, [], (List.append_nil events).symm, List.not_mem_nil, rfl, h⟩

/-- Nothing but an invalidation ends the backing. -/
theorem Backed.snoc (h : Backed w events s since) (hevent : event ≠ .invalidate) :
    Backed w (events ++ [event]) s since := by
  obtain ⟨earlier, later, rfl, hlater, hclock, hvouched⟩ := h
  refine ⟨earlier, later ++ [event], List.append_assoc _ _ _, ?_, hclock, hvouched⟩
  rw [List.mem_append, List.mem_singleton]
  exact fun hmem => hmem.elim hlater fun heq => hevent heq.symm

theorem Sound.snoc (h : Sound w ttl events c) (hevent : event ≠ .invalidate) :
    Sound w ttl (events ++ [event]) c :=
  ⟨h.lifetime, fun hvalid s since hkept => (h.backed hvalid s since hkept).snoc hevent⟩

/-- A cache that has just kept a value is sound if the value is backed as of then. -/
theorem sound_kept (h : c.lifetime = ttl) (hs : Backed w events s since) :
    Sound w ttl events ⟨c.lifetime, some (s, since), false⟩ := by
  refine ⟨h, ?_⟩
  rintro - _ _ ⟨⟩
  exact hs

theorem exists_openCache (hlifetime : Lifetime.ofInt w.state.settings.statsLifetime = .ok ttl)
    (h : Upheld w ttl events) :
    ∃ c, App.openCache (worldAfter w events) = .ok c ∧ Sound w ttl events c := by
  unfold App.openCache
  cases hcache : (worldAfter w events).state.cache with
  | none =>
    rw [h.settings, hlifetime]
    exact ⟨_, rfl, sound_new⟩
  | some c => exact ⟨c, rfl, h.cache c hcache⟩

/-! One lemma for each event that touches the cache. -/

theorem upheld_read (h : Upheld w ttl events) (hopen : App.openCache (worldAfter w events) = .ok c)
    (hsound : Sound w ttl events c) : Upheld w ttl (events ++ [.read]) := by
  obtain ⟨s, server, cache', log, hstats, hsourced⟩ := exists_stats_eq hopen
  have hafter : worldAfter w (events ++ [.read]) = (worldAfter w events).leaving server cache' log := by
    rw [worldAfter_snoc, Event.after, hstats]
  refine ⟨by rw [hafter]; exact h.settings, ?_⟩
  rw [hafter]
  rintro _ ⟨⟩
  have hread : Event.read ≠ .invalidate := by simp
  cases hsourced with
  | cached => exact hsound.snoc hread
  | read _ hreads =>
    exact sound_kept hsound.lifetime ((Vouched.stored hreads.stands).backed.snoc hread)
  | fallback => exact hsound.snoc hread

theorem upheld_update (h : Upheld w ttl events)
    (hopen : App.openCache (worldAfter w events) = .ok c) (hsound : Sound w ttl events c)
    (given : PlatformStats) : Upheld w ttl (events ++ [.update given]) := by
  obtain ⟨r, cache', log, hupdate, hsaved, hcache⟩ := exists_update_eq hopen given
  have hafter : worldAfter w (events ++ [.update given]) = (worldAfter w events).leaving
      (sent (worldAfter w events) (given.stamped (.utc (worldAfter w events).clock))) cache' log := by
    rw [worldAfter_snoc, Event.after, hupdate]
  refine ⟨by rw [hafter]; exact h.settings, ?_⟩
  rw [hafter]
  rintro _ ⟨⟩
  rcases hcache with ⟨s, rfl, rfl⟩ | ⟨-, rfl⟩
  · cases hsaved with
    | written hstore =>
      have hvouched : Vouched w (events ++ [.update given]) _ :=
        .written events given rfl (congrArg Prod.fst hupdate) (by
          rw [hafter]
          exact (congrArg (Store.text? · _) hstore).trans (Store.text?_setText_self _ _ _))
      have hclock : (worldAfter w (events ++ [.update given])).clock =
          (worldAfter w events).clock := by
        rw [hafter]
        rfl
      have hbacked := hvouched.backed
      rw [hclock] at hbacked
      exact sound_kept hsound.lifetime hbacked
  · exact hsound.snoc (by simp)

theorem upheld_invalidate (h : Upheld w ttl events)
    (hopen : App.openCache (worldAfter w events) = .ok c) (hsound : Sound w ttl events c) :
    Upheld w ttl (events ++ [.invalidate]) := by
  have hafter : worldAfter w (events ++ [.invalidate]) =
      (worldAfter w events).withCache c.invalidate := by
    rw [worldAfter_snoc, Event.after, App.invalidateStats, hopen]
  refine ⟨by rw [hafter]; exact h.settings, ?_⟩
  rw [hafter]
  rintro _ ⟨⟩
  exact ⟨hsound.lifetime, fun hvalid => by cases hvalid⟩

/-- An event that touches neither the settings nor the cache. -/
theorem upheld_of_eq (h : Upheld w ttl events) (hevent : event ≠ .invalidate)
    (hsettings : (event.after (worldAfter w events)).state.settings =
      (worldAfter w events).state.settings)
    (hcache : (event.after (worldAfter w events)).state.cache =
      (worldAfter w events).state.cache) : Upheld w ttl (events ++ [event]) := by
  refine ⟨?_, ?_⟩
  · rw [worldAfter_snoc, hsettings]
    exact h.settings
  · rw [worldAfter_snoc, hcache]
    exact fun c hc => (h.cache c hc).snoc hevent

theorem upheld_snoc (hlifetime : Lifetime.ofInt w.state.settings.statsLifetime = .ok ttl)
    (h : Upheld w ttl events) (event : Event) : Upheld w ttl (events ++ [event]) := by
  obtain ⟨c, hopen, hsound⟩ := exists_openCache hlifetime h
  cases event with
  | read => exact upheld_read h hopen hsound
  | update given => exact upheld_update h hopen hsound given
  | invalidate => exact upheld_invalidate h hopen hsound
  | save s =>
    obtain ⟨r, log, hsave, -⟩ := exists_run_save (worldAfter w events) s
    refine upheld_of_eq h (by simp) ?_ ?_
    all_goals
      rw [Event.after, hsave]
      rfl
  | outside | outage | wait => exact upheld_of_eq h (by simp) rfl rfl

/-- Every run upholds it. -/
theorem upheld (hlifetime : Lifetime.ofInt w.state.settings.statsLifetime = .ok ttl)
    (hempty : ∀ c ∈ w.state.cache, c = .new ttl) (events : List Event) : Upheld w ttl events := by
  induction events using List.reverseRecOn with
  | nil =>
    refine ⟨rfl, fun c hc => ?_⟩
    rw [hempty c hc]
    exact sound_new
  | append_singleton events event ih => exact upheld_snoc hlifetime ih event

end

/-! ## Readings -/

/-- In every run of an application whose cache was empty: what a reader gets, unless nothing in the
    cache is fresh and the store is asked in vain, was vouched for now or less than a lifetime ago,
    and nothing was invalidated since. -/
theorem staleness_bounded {w : World App} {ttl : Int}
    (hlifetime : Lifetime.ofInt w.state.settings.statsLifetime = .ok ttl)
    (hempty : ∀ c ∈ w.state.cache, c = .new ttl) (events : List Event) {s : PlatformStats}
    (hs : (App.stats (worldAfter w events)).1 = .ok s)
    (hsource : (∃ c ∈ (worldAfter w events).state.cache, ∃ kept,
        c.Fresh (worldAfter w events).clock kept) ∨ ∃ found, (worldAfter w events).Reads found) :
    ∃ earlier later, events = earlier ++ later ∧ .invalidate ∉ later ∧
      ((worldAfter w earlier).clock = (worldAfter w events).clock ∨
        (worldAfter w events).clock - (worldAfter w earlier).clock < ttl) ∧
      Vouched w earlier s := by
  have hupheld := upheld hlifetime hempty events
  obtain ⟨c, hopen, hsound⟩ := exists_openCache hlifetime hupheld
  obtain ⟨s', server, cache', log, hstats, hsourced⟩ := exists_stats_eq hopen
  rw [hstats] at hs
  cases hs
  cases hsourced with
  | cached hfresh =>
    obtain ⟨hvalid, since, hkept, hage⟩ := hfresh
    obtain ⟨earlier, later, hevents, hlater, rfl, hvouched⟩ := hsound.backed hvalid s since hkept
    rw [hsound.lifetime] at hage
    exact ⟨earlier, later, hevents, hlater, Or.inr hage, hvouched⟩
  | read _ hreads =>
    exact ⟨events, [], (List.append_nil events).symm, List.not_mem_nil, Or.inl rfl,
      .stored hreads.stands⟩
  | fallback hstale hreads =>
    rcases hsource with ⟨d, hd, kept, hfresh⟩ | hfound
    · rw [App.openCache, hd] at hopen
      cases hopen
      exact absurd ⟨kept, hfresh⟩ hstale
    · exact absurd hfound hreads

/-- An update, after which somebody writes a text that is no document, and a little time passes. -/
def overwritten : List Event :=
  [.update sevenAuthors, .outside fun store => store.setText "platform_stats:current" "\x7b",
    .wait 10]

/-- A reader still gets what the update wrote. -/
theorem staleness_bounded_overwritten :
    let w := App.start Settings.defaults true 0
    Lifetime.ofInt w.state.settings.statsLifetime = .ok 3600000000 ∧
      (∀ c ∈ w.state.cache, c = .new 3600000000) ∧
      (App.stats (worldAfter w overwritten)).1 = .ok (sevenAuthors.stamped (.utc 0)) ∧
      (∃ c ∈ (worldAfter w overwritten).state.cache, ∃ kept,
        c.Fresh (worldAfter w overwritten).clock kept) ∧
      ∃ earlier later, overwritten = earlier ++ later ∧ .invalidate ∉ later ∧
        Vouched w earlier (sevenAuthors.stamped (.utc 0)) := by
  intro w
  have hlifetime : Lifetime.ofInt w.state.settings.statsLifetime = .ok 3600000000 := rfl
  have hempty : ∀ c ∈ w.state.cache, c = .new 3600000000 := fun _ h => by cases h
  have hs : (App.stats (worldAfter w overwritten)).1 = .ok (sevenAuthors.stamped (.utc 0)) := rfl
  have hfresh : ∃ c ∈ (worldAfter w overwritten).state.cache, ∃ kept,
      c.Fresh (worldAfter w overwritten).clock kept :=
    ⟨⟨3600000000, some (sevenAuthors.stamped (.utc 0), 0), false⟩, rfl, _, rfl, _, rfl, by decide⟩
  obtain ⟨earlier, later, hevents, hlater, -, hvouched⟩ :=
    staleness_bounded hlifetime hempty overwritten hs (Or.inl hfresh)
  exact ⟨hlifetime, hempty, hs, hfresh, earlier, later, hevents, hlater, hvouched⟩

end Statistics

end SplitTest
