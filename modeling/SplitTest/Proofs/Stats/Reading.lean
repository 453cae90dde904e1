import Mathlib
import SplitTest.App
import SplitTest.Proofs.Cache.History
import SplitTest.Proofs.Store.Healthy

/-
  Where the statistics for a reader come from.
  A reader is always answered. `Sourced` puts every situation into one of three classes, over every
  text in the store, every state of its connection, every failure and every state of the cache: the
  answer is the fresh value of the cache, or what the store says and then the cache keeps it, or
  else the value that was kept last, or the defaults, and then the cache stays as it was.
  `stats_answered` says so of the service and of the endpoint.
-/

namespace SplitTest

/-! ## The store -/

namespace Statistics

/-- What the text under the key of the statistics stands for; where there is none, or an empty one,
    that is the defaults. -/
inductive Stands (now : Timestamp) : Option String → PlatformStats → Prop
  | absent : Stands now none (.defaults now)
  | empty : Stands now (some "") (.defaults now)
  | document {text : String} {s : PlatformStats} (h : PlatformStats.ofText now text = .value s) :
      Stands now (some text) s

/-- The statistics that a text holds, or its faults as an error. -/
def decoded (now : Timestamp) (text : Option String) : Except Error (Option PlatformStats) :=
  match text.filter (· != "") with
  | none => .ok none
  | some text =>
    match PlatformStats.ofText now text with
    | .value s => .ok (some s)
    | .faults faults => .error (.invalidDocument faults)

theorem ofText_empty (now : Timestamp) : PlatformStats.ofText now "" = .fail .jsonInvalid := rfl

/-- A text stands for what is decoded from it, or for the defaults if it holds nothing. -/
theorem stands_iff {now : Timestamp} {text : Option String} {s : PlatformStats} :
    Stands now text s ↔ ∃ found, decoded now text = .ok found ∧ s = found.getD (.defaults now) := by
  constructor
  · intro h
    cases h with
    | absent => exact ⟨none, rfl, rfl⟩
    | empty => exact ⟨none, rfl, rfl⟩
    | @document text s h =>
      have htext : text ≠ "" := by
        rintro rfl
        rw [ofText_empty] at h
        cases h
      have hfilter : (some text).filter (· != "") = some text := by simp [htext]
      refine ⟨some s, ?_, rfl⟩
      rw [decoded, hfilter]
      dsimp only
      rw [h]
  · rintro ⟨found, hdecoded, rfl⟩
    cases text with
    | none =>
      cases hdecoded
      exact .absent
    | some text =>
      by_cases htext : text = ""
      · subst htext
        cases hdecoded
        exact .empty
      · have hfilter : (some text).filter (· != "") = some text := by simp [htext]
        rw [decoded, hfilter] at hdecoded
        dsimp only at hdecoded
        cases hread : PlatformStats.ofText now text with
        | value s =>
          rw [hread] at hdecoded
          cases hdecoded
          exact .document hread
        | faults faults =>
          rw [hread] at hdecoded
          cases hdecoded

end Statistics

namespace World

/-- The server after it was asked for the statistics. -/
def asked (w : World App) : Server := (w.state.server.send (.readText w.state.keys.stats)).2

/-- The store is connected and does not fail, and its text for the statistics says `s`. -/
structure Reads (w : World App) (s : PlatformStats) : Prop where
  hasClient : w.state.server.hasClient = true
  failure : w.state.server.failure = none
  stands : Statistics.Stands (.utc w.clock) (w.state.server.store.text? w.state.keys.stats) s

/-- What reading the store for statistics comes to. -/
def found (w : World App) : Except Error (Option PlatformStats) :=
  ((w.state.server.send (.readText w.state.keys.stats)).1.mapError Outage.toError).bind
    (Statistics.decoded (.utc w.clock))

theorem reads_iff {w : World App} {s : PlatformStats} :
    w.Reads s ↔ ∃ found, w.found = .ok found ∧ s = found.getD (.defaults (.utc w.clock)) := by
  have hsend (hclient : w.state.server.hasClient = true) (hfailure : w.state.server.failure = none) :
      w.found = Statistics.decoded (.utc w.clock)
        (w.state.server.store.text? w.state.keys.stats) := by
    rw [found, Server.send, if_pos hclient, Server.answer_of_healthy hfailure rfl]
    rfl
  constructor
  · rintro ⟨hclient, hfailure, hstands⟩
    rw [hsend hclient hfailure]
    exact Statistics.stands_iff.1 hstands
  · rintro ⟨result, hfound, hs⟩
    have hclient : w.state.server.hasClient = true := by
      by_contra hclient
      rw [found, Server.send, if_neg hclient] at hfound
      cases hfound
    have hfailure : w.state.server.failure = none := by
      by_contra hfailure
      obtain ⟨failure, hfailure⟩ := Option.ne_none_iff_exists'.1 hfailure
      rw [found, Server.send, if_pos hclient, Server.answer] at hfound
      simp only [Server.misses, Server.record, hfailure] at hfound
      cases hfound
    rw [hsend hclient hfailure] at hfound
    exact ⟨hclient, hfailure, Statistics.stands_iff.2 ⟨result, hfound, hs⟩⟩

end World

theorem runStore_decode (text : Option String) (w : World App) :
    App.runStore (Statistics.decode text) w =
      (Statistics.decoded (.utc w.clock) text, w) := by
  unfold Statistics.decode Statistics.decoded
  cases text.filter (· != "") with
  | none => rfl
  | some text =>
    change (match PlatformStats.ofText (.utc w.clock) text with
      | .value s => (.done (some s) : StoreProgram (Option PlatformStats))
      | .faults faults => .fail (.invalidDocument faults)).run App.answerCommand w = _
    dsimp only
    cases PlatformStats.ofText (.utc w.clock) text <;> rfl

theorem runStore_send (c : Command) (w : World App) :
    App.runStore (StoreProgram.send c) w =
      ((w.state.server.send c).1.mapError Outage.toError,
        w.withServer (w.state.server.send c).2) := by
  unfold StoreProgram.send App.runStore Program.run App.answerCommand
  dsimp only
  cases (w.state.server.send c).1 <;> rfl

/-- Reading the store for statistics is one command, and then its answer is decoded. -/
theorem runStore_current (w : World App) :
    App.runStore (Statistics.current w.state.keys) w = (w.found, w.withServer w.asked) := by
  have hsend := runStore_send (.readText w.state.keys.stats) w
  unfold World.found World.asked
  cases hanswer : (w.state.server.send (.readText w.state.keys.stats)).1 with
  | error outage =>
    rw [hanswer] at hsend
    exact Program.run_bind_of_error hsend
  | ok text =>
    rw [hanswer] at hsend
    exact (Program.run_bind_of_ok hsend).trans (runStore_decode text _)

/-! ## The service -/

namespace Statistics

variable {α : Type}

/-- A computation over the store alone does not touch the cache. -/
theorem run_overStore (cache : TimedCache PlatformStats) (p : StoreProgram α) (w : World App) :
    (overStore p).run (App.answerQuery cache) w = App.runStore p w := by
  unfold overStore App.runStore
  induction p generalizing w with
  | done a => rfl
  | fail e => rfl
  | log entry rest ih => exact ih _
  | print line rest ih => exact ih _
  | clock next ih => exact ih _ _
  | freshId next ih => exact ih _ _
  | ask c next ih => exact ih _ _

/-- Where a reader's statistics come from, and the server and the cache that are left behind. -/
inductive Sourced (cache : TimedCache PlatformStats) (w : World App) :
    PlatformStats → Server → TimedCache PlatformStats → Prop
  /-- They are fresh in the cache: the store is not asked. -/
  | cached {s : PlatformStats} (hfresh : cache.Fresh w.clock s) :
      Sourced cache w s w.state.server cache
  /-- The store is asked and says them: they are kept, as of now. -/
  | read {s : PlatformStats} (hstale : ¬∃ kept, cache.Fresh w.clock kept) (hreads : w.Reads s) :
      Sourced cache w s w.asked ⟨cache.lifetime, some (s, w.clock), false⟩
  /-- The store is asked in vain: they were kept last, or are the defaults, and the cache stays. -/
  | fallback (hstale : ¬∃ kept, cache.Fresh w.clock kept) (hreads : ¬∃ s, w.Reads s) :
      Sourced cache w ((cache.kept.map Prod.fst).getD (.defaults (.utc w.clock))) w.asked cache

end Statistics

/-- A world with another server, another cache and another log. -/
def World.leaving (w : World App) (server : Server) (cache : TimedCache PlatformStats)
    (log : List Entry) : World App :=
  { (w.withServer server).withCache cache with log }

namespace Statistics

variable {cache kept : TimedCache PlatformStats} {w : World App} {server : Server}
  {log : List Entry}

/-! One lemma for each step that a reading takes. -/

theorem run_now :
    Program.now.run (App.answerQuery kept) (w.leaving server cache log) =
      (.ok w.clock, w.leaving server cache log) := rfl

theorem run_report (entry : Entry) :
    (Program.report entry).run (App.answerQuery kept) (w.leaving server cache log) =
      (.ok (), w.leaving server cache (log ++ [entry])) := rfl

theorem run_fresh (now : Instant) :
    (Program.question (Query.fresh now)).run (App.answerQuery kept) (w.leaving server cache log) =
      (.ok (cache.fresh? now), w.leaving server cache log) := rfl

theorem run_stale :
    (Program.question Query.stale).run (App.answerQuery kept) (w.leaving server cache log) =
      (.ok (cache.kept.map Prod.fst), w.leaving server cache log) := rfl

theorem run_keep (s : PlatformStats) (now : Instant) :
    (Program.question (Query.keep s now)).run (App.answerQuery kept) (w.leaving server cache log) =
      (.ok (), w.leaving server ⟨cache.lifetime, some (s, now), false⟩ log) := rfl

theorem run_current :
    (overStore (current w.state.keys)).attempt.run (App.answerQuery kept)
        (w.leaving w.state.server cache log) =
      (.ok w.found, w.leaving w.asked cache log) := by
  rw [Program.run_attempt, run_overStore]
  have hcurrent := runStore_current (w.leaving w.state.server cache log)
  change App.runStore (current w.state.keys) _ = (w.found, w.leaving w.asked cache log) at hcurrent
  rw [hcurrent]

theorem exists_run_fallback (kept cache : TimedCache PlatformStats) (w : World App)
    (server : Server) (e : Error) (now : Instant) :
    ∃ log', (fallback e now).run (App.answerQuery kept) (w.leaving server cache log) =
      (.ok ((cache.kept.map Prod.fst).getD (.defaults (.utc now))),
        w.leaving server cache log') := by
  unfold fallback
  rw [Program.run_bind_of_ok (run_report _), Program.run_bind_of_ok run_stale]
  cases cache.kept.map Prod.fst with
  | none => exact ⟨_, rfl⟩
  | some s => exact ⟨_, rfl⟩

/-- Where nothing is fresh, the store is asked, and its answer decides. -/
theorem exists_run_refresh (hstale : ¬∃ s, cache.Fresh w.clock s) :
    ∃ s server cache' log', (refresh w.state.keys w.clock).run (App.answerQuery kept)
        (w.leaving w.state.server cache log) = (.ok s, w.leaving server cache' log') ∧
      Sourced cache w s server cache' := by
  unfold refresh
  rw [Program.run_bind_of_ok (run_report _), Program.run_bind_of_ok run_current]
  cases hfound : w.found with
  | error e =>
    obtain ⟨log', hfallback⟩ := exists_run_fallback kept cache w w.asked e w.clock
    have hreads : ¬∃ s, w.Reads s := by
      rintro ⟨s, hs⟩
      obtain ⟨found, hok, -⟩ := World.reads_iff.1 hs
      rw [hfound] at hok
      cases hok
    exact ⟨_, _, _, log', hfallback, .fallback hstale hreads⟩
  | ok found =>
    have hreads := World.reads_iff.2 ⟨found, hfound, rfl⟩
    cases found with
    | some s =>
      exact ⟨_, _, _, _, Program.run_bind_of_ok (run_keep s w.clock), .read hstale hreads⟩
    | none =>
      exact ⟨_, _, _, _, (Program.run_bind_of_ok (run_report _)).trans
        (Program.run_bind_of_ok (run_keep _ w.clock)), .read hstale hreads⟩

/-- A reader is answered, and the classes of `Sourced` say how. -/
theorem exists_stats_eq (hopen : App.openCache w = .ok cache) :
    ∃ s server cache' log, App.stats w = (.ok s, w.leaving server cache' log) ∧
      Sourced cache w s server cache' := by
  have hget : App.stats w = (get w.state.keys).run (App.answerQuery cache)
      (w.leaving w.state.server cache w.log) := by
    unfold App.stats App.runStats
    rw [hopen]
    rfl
  rw [hget, get, Program.run_bind_of_ok run_now, Program.run_bind_of_ok (run_fresh _)]
  cases hfresh : cache.fresh? w.clock with
  | some s =>
    exact ⟨s, _, _, _, rfl, .cached (TimedCache.fresh?_eq_some_iff.1 hfresh)⟩
  | none => exact exists_run_refresh (TimedCache.fresh?_eq_none_iff.1 hfresh)

/-- A cache that was not fresh leaves the store to be asked again at the next call, at any later
    time and whatever the store has become by then. -/
theorem server_stats_of_not_fresh {later : World App} (hcache : later.state.cache = some cache)
    (hle : w.clock ≤ later.clock) (hstale : ¬∃ s, cache.Fresh w.clock s) :
    (App.stats later).2.state.server = later.asked := by
  have hopen : App.openCache later = .ok cache := by rw [App.openCache, hcache]
  obtain ⟨s, server, cache', log, hstats, hsourced⟩ := exists_stats_eq hopen
  rw [hstats]
  cases hsourced with
  | cached hfresh => exact absurd ⟨s, hfresh⟩ (TimedCache.not_fresh_mono hle hstale)
  | read | fallback => rfl

/-! ## The endpoint -/

/-- The reply is one with status 200, and its body is the document of the statistics without their
    id. -/
def Publishes (reply : Http.Reply) (s : PlatformStats) : Prop :=
  reply.status = 200 ∧ ∃ fields, s.toJson = .object (("id", .ofText s.id) :: fields) ∧
    reply.body = (Json.object fields).compact

theorem resolve_stats : Http.resolve "GET" "/api/v1/stats/platform" = .endpoint .stats := by
  decide

theorem serve_stats_eq {s : PlatformStats} {after : World App} (h : App.stats w = (.ok s, after))
    (query : String) :
    App.serve "GET" "/api/v1/stats/platform" query w =
      (Http.statsReply s, none, after.reported (.info "Returned platform stats")) := by
  rw [App.serve, resolve_stats]
  dsimp only [App.serveEndpoint]
  rw [h]

/-- Over every text in the store, every failure, every state of the connection and of the cache: a
    reader is answered, from the source that `Sourced` says. Where the store was asked in vain it is
    asked again at the next call. The endpoint publishes the answer with status 200. -/
theorem stats_answered {lifetime : Int}
    (h : Lifetime.ofInt w.state.settings.statsLifetime = .ok lifetime) :
    ∃ s server cache log, App.stats w = (.ok s, w.leaving server cache log) ∧
      Sourced (w.state.cache.getD (.new lifetime)) w s server cache ∧
      ((¬∃ kept, (w.state.cache.getD (.new lifetime)).Fresh w.clock kept) → (¬∃ kept, w.Reads kept) →
        ∀ later : World App, later.state.cache = some cache → w.clock ≤ later.clock →
          (App.stats later).2.state.server = later.asked) ∧
      ∀ query, ∃ reply after,
        App.serve "GET" "/api/v1/stats/platform" query w = (reply, none, after) ∧
          Publishes reply s := by
  have hopen : App.openCache w = .ok (w.state.cache.getD (.new lifetime)) := by
    unfold App.openCache
    cases w.state.cache with
    | none =>
      rw [h]
      rfl
    | some cache => rfl
  obtain ⟨s, server, cache, log, hstats, hsourced⟩ := exists_stats_eq hopen
  refine ⟨s, server, cache, log, hstats, hsourced, ?_, ?_⟩
  · intro hstale hreads later hcache hle
    cases hsourced with
    | cached hfresh => exact absurd ⟨s, hfresh⟩ hstale
    | read _ hread => exact absurd ⟨s, hread⟩ hreads
    | fallback => exact server_stats_of_not_fresh hcache hle hstale
  · intro query
    exact ⟨_, _, serve_stats_eq hstats query, rfl, _, rfl, rfl⟩

/-- Figures that were kept at the start of the epoch. -/
def sevenAuthors : PlatformStats := { PlatformStats.defaults (.utc 0) with activeAuthors := 7 }

/-- Two hours later the cache still has them, and the text in the store is cut short. -/
def cutShort : World App :=
  let w := App.start Settings.defaults true 7200000000
  { w with state := { w.state with
      server := { w.state.server with store := ⟨[], [("platform_stats:current", "\x7b")]⟩ }
      cache := some ⟨3600000000, some (sevenAuthors, 0), false⟩ } }

theorem not_fresh_cutShort :
    ¬∃ kept, (cutShort.state.cache.getD (.new 3600000000)).Fresh cutShort.clock kept := by
  rintro ⟨kept, -, since, hkept, hage⟩
  cases hkept
  exact absurd hage (by decide)

theorem not_reads_cutShort : ¬∃ kept, cutShort.Reads kept := by
  rintro ⟨kept, -, -, hstands⟩
  obtain ⟨found, hdecoded, -⟩ := stands_iff.1 hstands
  cases hdecoded

/-- There a reader gets the old figures. -/
theorem stats_answered_cutShort :
    Lifetime.ofInt cutShort.state.settings.statsLifetime = .ok 3600000000 ∧
      (App.stats cutShort).1 = .ok sevenAuthors ∧
      ∃ reply after, App.serve "GET" "/api/v1/stats/platform" "" cutShort = (reply, none, after) ∧
        Publishes reply sevenAuthors := by
  have hlifetime : Lifetime.ofInt cutShort.state.settings.statsLifetime = .ok 3600000000 := rfl
  obtain ⟨s, server, cache, log, hstats, hsourced, -, hserve⟩ := stats_answered hlifetime
  have hs : s = sevenAuthors := by
    cases hsourced with
    | cached hfresh => exact absurd ⟨s, hfresh⟩ not_fresh_cutShort
    | read _ hread => exact absurd ⟨s, hread⟩ not_reads_cutShort
    | fallback => rfl
  rw [hs] at hserve hstats
  refine ⟨hlifetime, ?_, hserve ""⟩
  rw [hstats]

end Statistics

end SplitTest
