import Mathlib
import SplitTest.Proofs.Stats.Reading
import SplitTest.Proofs.Store.Environments
import SplitTest.Proofs.Tasks.Basic

/-
  Environments do not see each other.
  Calls send commands about the keys of their own environment only (`Task.asks_program`). So while
  calls of one environment run, one after the other, the keys of another one hold what they held,
  unless the two share a key; and a call that only looks gets the same answer wherever the keys of
  its environment hold the same (`Task.run_withStore`).
-/

namespace SplitTest

open Statistics

namespace Task

/-- A call that changes nothing in the store. -/
def Reads : Task → Prop
  | get _ _ | active _ _ | respond _ _ | stats | storedStats => True
  | create _ | update _ | delete _ _ | updateStats _ | saveStats _ => False

/-- A call that only looks sends only commands that look, about keys of its environment. -/
theorem Reads.asks_program {t : Task} (ht : t.Reads) (settings : Settings) :
    (t.program settings).Asks (Query.Over settings.keys.Views) := by
  cases t with
  | get id page => exact asks_overStore (Experiments.asks_get settings.keys id page)
  | active page deadline => exact asks_overStore (Experiments.asks_active settings.keys page deadline)
  | respond request deadline =>
    exact asks_overStore (Assigner.asks_respond (Experiments.asks_active settings.keys) request
      deadline)
  | stats => exact Statistics.asks_get settings.keys
  | storedStats => exact asks_overStore (Statistics.asks_current settings.keys)
  | create | update | delete | updateStats | saveStats => exact ht.elim

/-- A call sends only commands about keys of its environment. -/
theorem asks_program (settings : Settings) (t : Task) :
    (t.program settings).Asks (Query.Over settings.keys.Covers) := by
  have hviews : ∀ q : Query, q.Over settings.keys.Views → q.Over settings.keys.Covers := by
    intro q hq
    cases q with
    | store c => exact hq.1
    | fresh | age | stale | keep => trivial
  by_cases ht : t.Reads
  · exact (ht.asks_program settings).mono hviews
  cases t with
  | create experiment => exact asks_overStore (Experiments.asks_create settings.keys experiment)
  | update experiment => exact asks_overStore (Experiments.asks_update settings.keys experiment)
  | delete id page => exact asks_overStore (Experiments.asks_delete settings.keys id page)
  | updateStats given => exact Statistics.asks_update settings.keys given
  | saveStats given => exact asks_overStore (Statistics.asks_save settings.keys given)
  | get | active | respond | stats | storedStats => exact absurd trivial ht

end Task

/-! ## What runs in one environment -/

/-- The stores that calls of one environment can lead to, one call after the other. Each call has its
    own cache and settings, and the store may fail at any of its commands. -/
inductive Keys.LeadsTo (keys : Keys) (s : Store) : Store → Prop
  | start : LeadsTo keys s s
  | call {settings : Settings} {x x' : Cells} {t : Task} {r : Except Error t.Answer}
      (hrun : LeadsTo keys s x.store) (hkeys : settings.keys = keys)
      (h : (t.program settings).Ends Cells.Answers x r x') : LeadsTo keys s x'.store

/-- Two stores that hold the same for an environment. -/
def Keys.Agree (keys : Keys) (s s' : Store) : Prop :=
  ∀ key, keys.Uses key → s.SameAt s' key

section

variable {p q : Keys} {s s' : Store}

theorem Keys.Agree.trans {s'' : Store} (h : q.Agree s s') (h' : q.Agree s' s'') :
    q.Agree s s'' :=
  fun key hkey => ⟨(h' key hkey).1.trans (h key hkey).1, (h' key hkey).2.trans (h key hkey).2⟩

/-- One answer to a query of an environment leaves the keys of another one as they were. -/
theorem agree_of_answers (hshared : ¬∃ key, p.Uses key ∧ q.Uses key) {query : Query}
    {a : query.Answer} {x x' : Cells} (hquery : query.Over p.Covers)
    (h : Cells.Answers query a x x') : q.Agree x.store x'.store := by
  intro key hkey
  cases query with
  | store c =>
    rcases h with ⟨-, rfl⟩ | ⟨outage, -, rfl⟩
    · refine Command.sameAt_perform (fun hmem => ?_) x.store
      obtain ⟨other, hother, huses⟩ := hquery
      obtain rfl := Option.mem_unique hmem hother
      exact hshared ⟨key, huses, hkey⟩
    · exact ⟨rfl, rfl⟩
  | fresh | age | stale =>
    obtain ⟨-, rfl⟩ := h
    exact ⟨rfl, rfl⟩
  | keep =>
    cases h
    exact ⟨rfl, rfl⟩

/-- However long calls of one environment go on, the keys of another one hold what they held. -/
theorem Keys.LeadsTo.agree (h : p.LeadsTo s s') (hshared : ¬∃ key, p.Uses key ∧ q.Uses key) :
    q.Agree s s' := by
  induction h with
  | start => exact fun _ _ => ⟨rfl, rfl⟩
  | @call settings x x' t r _ hkeys h ih =>
    subst hkeys
    have hcall : q.Agree x.store x'.store :=
      h.invariant (R := fun x x' => q.Agree x.store x'.store) (fun _ _ _ => ⟨rfl, rfl⟩)
        Keys.Agree.trans (agree_of_answers hshared) (t.asks_program settings)
    exact ih.trans hcall

end

/-! ## What is read in another -/

/-- The same server with other contents. -/
def Server.withStore (server : Server) (store : Store) : Server := { server with store }

/-- The same world with other contents of the store. -/
def World.withStore (w : World App) (store : Store) : World App :=
  w.withServer (w.state.server.withStore store)

section

variable {q : Keys} {s s' : Store}

/-- Whether a command is refused does not depend on the contents. -/
theorem Server.send_withStore (server : Server) (c : Command) :
    (∃ outage after, ∀ s, (server.withStore s).send c = (.error outage, Server.withStore after s)) ∨
      ∃ after, ∀ s, (server.withStore s).send c =
        (.ok (c.perform s).1, Server.withStore after (c.perform s).2) := by
  by_cases hclient : server.hasClient = true
  · have hsend : ∀ s, (server.withStore s).send c = (server.withStore s).answer c :=
      fun s => if_pos hclient
    by_cases hlate : server.misses c = true
    · exact Or.inl ⟨.late, { server with
        calls := server.calls ++ .command c :: Server.cancellation c },
        fun s => (hsend s).trans (if_pos hlate)⟩
    · cases hfailure : server.failure with
      | some failure =>
        refine Or.inl ⟨.failed failure, server.record (.command c), fun s => ?_⟩
        refine (hsend s).trans ((if_neg hlate).trans ?_)
        simp only [Server.record, Server.withStore, hfailure]
      | none =>
        refine Or.inr ⟨server.record (.command c), fun s => ?_⟩
        have hfailure' : (server.withStore s).failure = none := hfailure
        have hlate' : (server.withStore s).misses c = false := Bool.eq_false_iff.2 hlate
        exact (hsend s).trans (Server.answer_of_healthy hfailure' hlate')
  · exact Or.inl ⟨.disconnected, server, fun s => if_neg hclient⟩

/-- A command that only looks is answered alike, and leaves the contents as they are. -/
theorem exists_send_eq {c : Command} (hc : q.Views c) (h : q.Agree s s') (server : Server) :
    ∃ result after, (server.withStore s).send c = (result, Server.withStore after s) ∧
      (server.withStore s').send c = (result, Server.withStore after s') := by
  have hsame : ∀ key ∈ c.key?, s.SameAt s' key := by
    intro key hkey
    obtain ⟨other, hother, huses⟩ := hc.1
    obtain rfl := Option.mem_unique hkey hother
    exact h key huses
  rcases server.send_withStore c with ⟨outage, after, hsend⟩ | ⟨after, hsend⟩
  · exact ⟨.error outage, after, hsend s, hsend s'⟩
  · refine ⟨.ok (c.perform s).1, after, ?_, ?_⟩
    · rw [hsend s, hc.2.perform_eq]
    · rw [hsend s', hc.2.perform_eq, hc.2.perform_congr hsame]

theorem exists_answerQuery_eq {query : Query} (hquery : query.Over q.Views) (h : q.Agree s s')
    (cache : TimedCache PlatformStats) (w : World App) :
    ∃ a after, App.answerQuery cache query (w.withStore s) = (a, World.withStore after s) ∧
      App.answerQuery cache query (w.withStore s') = (a, World.withStore after s') := by
  cases query with
  | store c =>
    obtain ⟨result, after, hs, hs'⟩ := exists_send_eq hquery h w.state.server
    refine ⟨result, w.withServer after, ?_, ?_⟩
    · exact congrArg (fun out => (out.1, w.withServer out.2)) hs
    · exact congrArg (fun out => (out.1, w.withServer out.2)) hs'
  | fresh | age | stale => exact ⟨_, w, rfl, rfl⟩
  | keep value now =>
    exact ⟨(), w.withCache ((w.state.cache.getD cache).keep value now), rfl, rfl⟩

/-- A computation that only looks at the keys of an environment does the same over stores that hold
    the same for it. -/
theorem exists_run_withStore {α : Type} {p : ServiceProgram α} (hp : p.Asks (Query.Over q.Views))
    (h : q.Agree s s') (cache : TimedCache PlatformStats) (w : World App) :
    ∃ r after, p.run (App.answerQuery cache) (w.withStore s) = (r, World.withStore after s) ∧
      p.run (App.answerQuery cache) (w.withStore s') = (r, World.withStore after s') := by
  induction p generalizing w with
  | done a => exact ⟨.ok a, w, rfl, rfl⟩
  | fail e => exact ⟨.error e, w, rfl, rfl⟩
  | log entry rest ih => exact ih hp { w with log := w.log ++ [entry] }
  | print line rest ih => exact ih hp { w with printed := w.printed ++ [line] }
  | clock next ih => exact ih w.clock (hp w.clock) w
  | freshId next ih => exact ih _ (hp _) { w with issued := w.issued + 1 }
  | ask query next ih =>
    obtain ⟨a, after, hs, hs'⟩ := exists_answerQuery_eq hp.1 h cache w
    obtain ⟨r, last, hrest, hrest'⟩ := ih a (hp.2 a) after
    refine ⟨r, last, ?_, ?_⟩
    · rw [Program.run, hs]
      exact hrest
    · rw [Program.run, hs']
      exact hrest'

theorem exists_runStore_withStore {α : Type} {p : StoreProgram α} (hp : p.Asks q.Views)
    (h : q.Agree s s') (w : World App) :
    ∃ r after, App.runStore p (w.withStore s) = (r, World.withStore after s) ∧
      App.runStore p (w.withStore s') = (r, World.withStore after s') := by
  obtain ⟨r, after, hs, hs'⟩ := exists_run_withStore (asks_overStore hp) h (.new 0) w
  rw [run_overStore] at hs hs'
  exact ⟨r, after, hs, hs'⟩

theorem exists_runStats_withStore {α : Type} {p : ServiceProgram α}
    (hp : p.Asks (Query.Over q.Views)) (h : q.Agree s s') (w : World App) :
    ∃ r after, App.runStats p (w.withStore s) = (r, World.withStore after s) ∧
      App.runStats p (w.withStore s') = (r, World.withStore after s') := by
  have hopen : ∀ store, App.openCache (w.withStore store) = App.openCache w := fun _ => rfl
  unfold App.runStats
  rw [hopen, hopen]
  cases App.openCache w with
  | error e => exact ⟨.error e, w, rfl, rfl⟩
  | ok cache => exact exists_run_withStore hp h cache (w.withCache cache)

/-- A call that only looks has the same answer, and leaves the same behind, over stores that hold the
    same for its environment. -/
theorem Task.Reads.run_withStore {t : Task} (ht : t.Reads) {w : World App}
    (h : w.state.keys.Agree s s') :
    t.run (w.withStore s') = ((t.run (w.withStore s)).1, (t.run (w.withStore s)).2.withStore s') := by
  have hexists : ∃ r after, t.run (w.withStore s) = (r, World.withStore after s) ∧
      t.run (w.withStore s') = (r, World.withStore after s') := by
    cases t with
    | get id page => exact exists_runStore_withStore (Experiments.asks_get _ id page) h w
    | active page deadline =>
      exact exists_runStore_withStore (Experiments.asks_active _ page deadline) h w
    | respond request deadline =>
      exact exists_runStore_withStore
        (Assigner.asks_respond (Experiments.asks_active _) request deadline) h w
    | stats => exact exists_runStats_withStore (Statistics.asks_get _) h w
    | storedStats => exact exists_runStore_withStore (Statistics.asks_current _) h w
    | create | update | delete | updateStats | saveStats => exact ht.elim
  obtain ⟨r, after, hs, hs'⟩ := hexists
  rw [hs, hs']
  rfl

end

/-! ## Isolation -/

/-- Under one prefix, different pages have different keys, none of which is that of the statistics.
    Environments with different prefixes share a key exactly when one prefix begins with the other
    one followed by the text for the pages. If they share none, then however calls of the one run, a
    call of the other one that only looks has the same answer and leaves the same behind. -/
theorem environments_isolated (p q : Keys) :
    ((∀ name other, name ≠ other → p.page name ≠ p.page other) ∧ ∀ name, p.page name ≠ p.stats) ∧
    (p ≠ q → ((∃ key, p.Uses key ∧ q.Uses key) ↔ p.Encloses q ∨ q.Encloses p)) ∧
    (p ≠ q → ¬(p.Encloses q ∨ q.Encloses p) → ∀ {s s' : Store}, p.LeadsTo s s' →
      ∀ {w : World App}, w.state.keys = q → ∀ {t : Task}, t.Reads →
        t.run (w.withStore s') =
          ((t.run (w.withStore s)).1, (t.run (w.withStore s)).2.withStore s')) := by
  refine ⟨⟨fun name other hne heq => hne (p.page_injective heq), p.page_ne_stats⟩,
    Keys.shares_iff, fun hne hapart s s' hrun w hw t ht => ?_⟩
  subst hw
  have hshared : ¬∃ key, p.Uses key ∧ w.state.keys.Uses key := by
    rw [Keys.shares_iff hne]
    exact hapart
  exact ht.run_withStore (hrun.agree hshared)

/-- The application in the environment `dev:`. -/
def developing : World App :=
  App.start { Settings.defaults with environment := "dev:" } true 0

/-- A creation in the environment `prod:`, over an empty store. -/
theorem exists_leadsTo_created : ∃ s, Keys.LeadsTo ⟨"prod:"⟩ .empty s ∧
    s.hasField "prod:experiments:landing" "hero" = true := by
  have hcreated : ∃ e x', ((Task.create (some (hero 0))).program
      { Settings.defaults with environment := "prod:" }).Ends Cells.Answers ⟨.empty, .new 0⟩
      (.ok e) x' ∧ x'.store.hasField "prod:experiments:landing" "hero" = true :=
    ⟨_, _, .clock 0 (.ask (Or.inl ⟨rfl, rfl⟩) (.log (.done _ _))), rfl⟩
  obtain ⟨e, x', h, hthere⟩ := hcreated
  exact ⟨x'.store, .call (x := ⟨.empty, .new 0⟩) .start rfl h, hthere⟩

/-- The environment `dev:` does not see that creation. -/
theorem environments_isolated_prod : (Keys.mk "prod:" ≠ ⟨"dev:"⟩) ∧
    ¬((Keys.mk "prod:").Encloses ⟨"dev:"⟩ ∨ (Keys.mk "dev:").Encloses ⟨"prod:"⟩) ∧
    ∃ s, s.hasField "prod:experiments:landing" "hero" = true ∧
      ((Task.active "landing" none).run (developing.withStore s)).1 =
        ((Task.active "landing" none).run (developing.withStore .empty)).1 := by
  have hne : Keys.mk "prod:" ≠ ⟨"dev:"⟩ := by decide
  have hapart : ¬((Keys.mk "prod:").Encloses ⟨"dev:"⟩ ∨ (Keys.mk "dev:").Encloses ⟨"prod:"⟩) := by
    rw [Keys.encloses_iff, Keys.encloses_iff]
    decide
  obtain ⟨s, hrun, hthere⟩ := exists_leadsTo_created
  have hread := (environments_isolated ⟨"prod:"⟩ ⟨"dev:"⟩).2.2 hne hapart hrun
    (w := developing) rfl (t := .active "landing" none) trivial
  exact ⟨hne, hapart, s, hthere, by rw [hread]⟩

end SplitTest
