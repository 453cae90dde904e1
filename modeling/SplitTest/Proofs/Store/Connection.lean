import Mathlib
import SplitTest.Proofs.Experiment.Seeding
import SplitTest.Proofs.Tasks.Isolation

/-
  The life of a connection.
  `linksOf` is what happened to the connection in a run: it was opened, or the store refused it, or it
  was closed. This is told from the incidents and the failures of the store alone. The application
  keeps one bit of it, whether there is a client (`Server.Follows`, one lemma for each incident, and
  the run by induction), and a closing does not clear that bit. So the client is handed out when the
  last link that is no closing is an opening, also after a closing, and a connection that is still
  at hand can be closed again.
-/

namespace SplitTest

open Program

/-! ## Links -/

/-- What can happen to the connection to a store. -/
inductive Link
  | opened
  | refused
  | closed
  deriving DecidableEq, Repr

namespace Link

/-- Whether there is a client after a link, if there was one before it or not. -/
def hand : Bool → Link → Bool
  | _, opened => true
  | _, refused => false
  | atHand, closed => atHand

/-- What the store sees of some links. -/
def calls : Bool → List Link → List Call
  | _, [] => []
  | _, opened :: ls => .command .ping :: calls true ls
  | _, refused :: ls => .command .ping :: calls false ls
  | true, closed :: ls => .closed :: calls true ls
  | false, closed :: ls => calls false ls

/-- The last link that is no closing is an opening. -/
def Held (ls : List Link) : Prop := (ls.filter (· ≠ closed)).getLast? = some opened

instance (ls : List Link) : Decidable (Held ls) :=
  inferInstanceAs (Decidable ((ls.filter (· ≠ closed)).getLast? = some opened))

variable {ls : List Link}

theorem calls_append (atHand : Bool) (ls ls' : List Link) :
    calls atHand (ls ++ ls') = calls atHand ls ++ calls (ls.foldl hand atHand) ls' := by
  induction ls generalizing atHand with
  | nil => rfl
  | cons l ls ih => cases l <;> cases atHand <;> simp [calls, hand, ih]

theorem foldl_hand_eq_true_iff : ls.foldl hand false = true ↔ Held ls := by
  induction ls using List.reverseRecOn with
  | nil => decide
  | append_singleton ls l ih =>
    unfold Held at ih ⊢
    cases l <;> simp [hand, ih]

/-- What is held was closed last, or it was opened last. -/
theorem held_iff : Held ls ↔ ls.getLast? = some opened ∨ ls.getLast? = some closed ∧ Held ls := by
  induction ls using List.reverseRecOn with
  | nil => decide
  | append_singleton ls l => cases l <;> simp [Held]

/-- To be held is to be opened last, but for what is held and was closed last. -/
theorem held_iff_opened_iff : (Held ls ↔ ls.getLast? = some opened) ↔
    ¬(ls.getLast? = some closed ∧ Held ls) := by
  constructor
  · rintro h ⟨hclosed, hheld⟩
    rw [h.1 hheld] at hclosed
    cases hclosed
  · exact fun h => held_iff.trans (or_iff_left h)

theorem prefix_calls_iff : [.closed] <+: calls true ls ↔ [closed] <+: ls := by
  cases ls with
  | nil => simp [calls]
  | cons l ls => cases l <;> simp [calls]

/-- The store sees two closings in a row if a connection that was opened is closed twice. -/
theorem closed_twice_iff (atHand : Bool) (ls : List Link) :
    [.closed, .closed] <:+: calls atHand ls ↔
      [opened, closed, closed] <:+: (if atHand then [opened] else []) ++ ls := by
  induction ls generalizing atHand with
  | nil => cases atHand <;> decide
  | cons l ls ih =>
    have htrue := ih true
    have hfalse := ih false
    simp only [if_true, List.singleton_append, Bool.false_eq_true, if_false, List.nil_append]
      at htrue hfalse
    cases l with
    | opened => cases atHand <;> simp [calls, List.infix_cons_iff, htrue]
    | refused => cases atHand <;> simp [calls, List.infix_cons_iff, hfalse]
    | closed =>
      cases atHand with
      | false => simp [calls, List.infix_cons_iff, hfalse]
      | true =>
        rw [List.infix_cons_iff] at htrue
        have hcalls : [.closed, .closed] <:+: calls true (closed :: ls) ↔
            [closed] <+: ls ∨ [closed, closed] <+: ls ∨ [opened, closed, closed] <:+: ls := by
          simp [calls, List.infix_cons_iff, htrue, prefix_calls_iff]
        have hlinks : [opened, closed, closed] <:+: opened :: closed :: ls ↔
            [closed] <+: ls ∨ [opened, closed, closed] <:+: ls := by
          simp [List.infix_cons_iff]
        have hlonger : [closed, closed] <+: ls → [closed] <+: ls :=
          (List.prefix_append [closed] [closed]).trans
        rw [hcalls, ← or_assoc, or_iff_left_of_imp hlonger]
        exact hlinks.symm

end Link

/-! ## What a server does about its connection -/

/-- Whether a call is about the connection and not about what is stored. -/
def Call.isLink : Call → Bool
  | .command .ping | .closed => true
  | _ => false

namespace Server

/-- The calls about the connection that a server recorded. -/
def linkCalls (s : Server) : List Call := s.calls.filter Call.isLink

/-- From one server to another some links happened to the connection, and the store fails with
    `failure` in the end, if it does. -/
structure Follows (ls : List Link) (failure : Option Failure) (s s' : Server) : Prop where
  hasClient : s'.hasClient = ls.foldl Link.hand s.hasClient
  failure : s'.failure = failure
  linkCalls : s'.linkCalls = s.linkCalls ++ Link.calls s.hasClient ls

variable {ls ls' : List Link} {failure failure' : Option Failure} {s s' s'' : Server}

theorem Follows.refl (s : Server) : Follows [] s.failure s s :=
  ⟨rfl, rfl, (List.append_nil _).symm⟩

theorem Follows.trans (h : Follows ls failure s s') (h' : Follows ls' failure' s' s'') :
    Follows (ls ++ ls') failure' s s'' where
  hasClient := by rw [h'.hasClient, h.hasClient, List.foldl_append]
  failure := h'.failure
  linkCalls := by
    rw [h'.linkCalls, h.linkCalls, h.hasClient, List.append_assoc, Link.calls_append]

/-- Nothing happened to the connection. -/
abbrev Quiet (s s' : Server) : Prop := Follows [] s.failure s s'

theorem Quiet.trans (h : Quiet s s') (h' : Quiet s' s'') : Quiet s s'' := by
  have hboth := Follows.trans h h'
  rwa [h.failure] at hboth

/-- Calls that are not about the connection do not change what is recorded about it. -/
theorem linkCalls_append {more : List Call} (h : more.filter Call.isLink = []) (s : Server) :
    (s.calls ++ more).filter Call.isLink = s.linkCalls := by
  rw [List.filter_append, h, List.append_nil, linkCalls]

/-- A command about stored things leaves the connection alone. -/
theorem quiet_send {c : Command} (hc : c ≠ .ping) (s : Server) : s.Quiet (s.send c).2 := by
  have hcommand : ∀ more : List Call, (Call.command c :: more).filter Call.isLink =
      more.filter Call.isLink := by
    intro more
    cases c with
    | ping => exact absurd rfl hc
    | _ => rfl
  have hgivenUp : (cancellation c).filter Call.isLink = [] := by cases c <;> rfl
  unfold send
  by_cases hclient : s.hasClient = true
  · rw [if_pos hclient, answer]
    split_ifs with hlate
    · refine ⟨rfl, rfl, ?_⟩
      rw [Link.calls, List.append_nil]
      exact linkCalls_append (by rw [hcommand, hgivenUp]) s
    · have hrecord : (s.record (.command c)).linkCalls = s.linkCalls ++ [] := by
        rw [List.append_nil]
        exact linkCalls_append (by rw [hcommand]; rfl) s
      cases hfailure : s.failure with
      | none =>
        simp only [record, hfailure]
        exact ⟨rfl, hfailure.symm, hrecord⟩
      | some failure =>
        simp only [record, hfailure]
        exact ⟨rfl, hfailure.symm, hrecord⟩
  · rw [if_neg hclient]
    exact .refl s

end Server

/-! ## What the application does about its connection -/

namespace App

variable {α : Type}

/-- What connecting comes to. -/
def linkOf : Option Failure → Link
  | none => .opened
  | some _ => .refused

/-- What is reported about connecting. -/
def connectEntry (w : World App) : Entry :=
  match w.state.server.failure with
  | none => .info s!"Redis connected: {w.state.settings.connection.target}"
  | some failure => .error s!"Redis connection failed: {(Error.store failure).message}"

/-- Connecting opens the connection unless the store fails, and this is reported in either case. -/
theorem connect_eq (w : World App) : connect w =
    (w.withServer { w.state.server.record (.command .ping) with
      hasClient := w.state.server.failure.isNone }).reported (connectEntry w) := by
  obtain ⟨clock, issued, log, printed, ⟨settings, ⟨store, hasClient, failure, delay, calls⟩, cache⟩⟩ := w
  cases failure <;> rfl

theorem client_eq_ok_iff {w : World App} : client w = .ok () ↔ w.state.server.hasClient = true := by
  unfold client
  split_ifs with h
  · exact iff_of_true rfl h
  · exact iff_of_false (fun h => by cases h) h

theorem follows_connect (w : World App) :
    Server.Follows [linkOf w.state.server.failure] w.state.server.failure w.state.server
      (connect w).state.server := by
  have hping : (w.state.server.record (.command .ping)).linkCalls =
      w.state.server.linkCalls ++ [.command .ping] := List.filter_append ..
  rw [connect_eq]
  cases hfailure : w.state.server.failure with
  | none => exact ⟨rfl, hfailure, hping⟩
  | some failure => exact ⟨rfl, hfailure, hping⟩

theorem follows_close (w : World App) :
    Server.Follows [.closed] w.state.server.failure w.state.server (close w).state.server := by
  unfold close
  cases hclient : w.state.server.hasClient with
  | false =>
    rw [if_neg Bool.false_ne_true]
    refine ⟨rfl, rfl, ?_⟩
    rw [hclient, Link.calls, Link.calls, List.append_nil]
  | true =>
    rw [if_pos rfl]
    refine ⟨rfl, rfl, ?_⟩
    rw [hclient]
    exact List.filter_append ..

theorem quiet_answerCommand {c : Command} (hc : c ≠ .ping) (w : World App) :
    w.state.server.Quiet (answerCommand c w).2.state.server :=
  Server.quiet_send hc w.state.server

theorem quiet_runStore {p : StoreProgram α} (hp : p.Asks (· ≠ .ping)) (w : World App) :
    w.state.server.Quiet (runStore p w).2.state.server :=
  Asks.run_invariant (R := fun a a' => a.server.Quiet a'.server) (fun a => .refl a.server)
    Server.Quiet.trans (fun _ w hc => quiet_answerCommand hc w) hp w

theorem quiet_answerQuery (kept : TimedCache PlatformStats) {q : Statistics.Query}
    (hq : q.Over (· ≠ .ping)) (w : World App) :
    w.state.server.Quiet (answerQuery kept q w).2.state.server := by
  cases q with
  | store c => exact quiet_answerCommand hq w
  | fresh | age | stale | keep => exact .refl _

theorem quiet_runStats {p : Statistics.ServiceProgram α}
    (hp : p.Asks (Statistics.Query.Over (· ≠ .ping))) (w : World App) :
    w.state.server.Quiet (runStats p w).2.state.server := by
  unfold runStats
  cases openCache w with
  | error e => exact .refl _
  | ok cache =>
    exact Asks.run_invariant (R := fun a a' => a.server.Quiet a'.server) (fun a => .refl a.server)
      Server.Quiet.trans (fun _ w hq => quiet_answerQuery cache hq w) hp (w.withCache cache)

theorem follows_seedStore (w : World App) :
    Server.Follows [linkOf w.state.server.failure, .closed] w.state.server.failure w.state.server
      (seedStore w).2.state.server := by
  have hasks (keys : Keys) (es : List Experiment) : (Seed.seed keys es).Asks (· ≠ .ping) :=
    Seed.asks_seed (fun _ _ _ => Command.noConfusion) es
  have hall (keys : Keys) : (Seed.seedAll keys).Asks (· ≠ .ping) :=
    Asks.bind trivial fun _ => (hasks keys _).bind fun _ =>
      Asks.bind trivial fun _ => (hasks keys _).bind fun _ => trivial
  have hconnect := follows_connect w
  have hrun := quiet_runStore (hall w.state.keys) (connect w)
  have hclose := follows_close (runStore (Seed.seedAll w.state.keys) (connect w)).2
  rw [hrun.failure.trans hconnect.failure] at hclose
  exact (hconnect.trans hrun).trans hclose

end App

/-- A call does nothing about the connection. -/
theorem Task.quiet_run (t : Task) (w : World App) :
    w.state.server.Quiet (t.run w).2.state.server := by
  have hasks : (t.program w.state.settings).Asks (Statistics.Query.Over (· ≠ .ping)) := by
    refine (t.asks_program w.state.settings).mono fun q hq => ?_
    cases q with
    | store c =>
      rintro rfl
      obtain ⟨key, hkey, -⟩ := hq
      cases hkey
    | fresh | age | stale | keep => trivial
  cases t with
  | stats | updateStats => exact App.quiet_runStats hasks w
  | create | update | delete | get | active | respond | storedStats | saveStats =>
    exact App.quiet_runStore (Statistics.asks_of_overStore hasks) w

/-! ## Runs -/

/-- What can happen to an application with a connection. -/
inductive Incident
  | connects
  | closes
  | startsUp
  | shutsDown
  | seeds
  /-- The store begins to fail, or works again. -/
  | outage (failure : Option Failure)
  | calls (t : Task)

namespace Incident

/-- The world after an incident. -/
def after (w : World App) : Incident → World App
  | connects => App.connect w
  | closes => App.close w
  | startsUp => App.startup w
  | shutsDown => App.shutdown w
  | seeds => (App.seedStore w).2
  | outage failure => w.withServer { w.state.server with failure }
  | calls t => (t.run w).2

/-- The failure of the store after an incident. -/
def failure (before : Option Failure) : Incident → Option Failure
  | outage failure => failure
  | _ => before

/-- What an incident does to the connection, when the store fails with `failure`. -/
def links (failure : Option Failure) : Incident → List Link
  | connects | startsUp => [App.linkOf failure]
  | closes | shutsDown => [.closed]
  | seeds => [App.linkOf failure, .closed]
  | outage _ | calls _ => []

theorem follows_after (i : Incident) (w : World App) :
    Server.Follows (i.links w.state.server.failure) (i.failure w.state.server.failure) w.state.server
      (i.after w).state.server := by
  cases i with
  | connects => exact App.follows_connect w
  | startsUp =>
    obtain ⟨w', hstartup, hstate⟩ : ∃ w', App.startup w = App.connect w' ∧ w'.state = w.state :=
      ⟨_, rfl, rfl⟩
    rw [after, hstartup, ← hstate]
    exact App.follows_connect w'
  | closes => exact App.follows_close w
  | shutsDown => exact App.follows_close (w.reported _)
  | seeds => exact App.follows_seedStore w
  | calls t => exact t.quiet_run w
  | outage failure => exact ⟨rfl, rfl, (List.append_nil _).symm⟩

end Incident

/-- The world after some incidents. -/
def World.afterAll (w : World App) (incidents : List Incident) : World App :=
  incidents.foldl Incident.after w

/-- What happens to the connection, when the store fails with `failure` at first. -/
def linksOf : Option Failure → List Incident → List Link
  | _, [] => []
  | failure, i :: incidents => i.links failure ++ linksOf (i.failure failure) incidents

theorem exists_follows_afterAll (incidents : List Incident) (w : World App) :
    ∃ failure, Server.Follows (linksOf w.state.server.failure incidents) failure w.state.server
      (w.afterAll incidents).state.server := by
  induction incidents generalizing w with
  | nil => exact ⟨_, .refl _⟩
  | cons i incidents ih =>
    have hfirst := i.follows_after w
    obtain ⟨failure, hrest⟩ := ih (i.after w)
    rw [hfirst.failure] at hrest
    exact ⟨failure, hfirst.trans hrest⟩

/-! ## Without a client -/

/-- Without a client every command is refused. -/
theorem App.runStore_ask_of_disconnected {α : Type} {w : World App}
    (h : w.state.server.hasClient = false) {c : Command} {next : c.Result → StoreProgram α} :
    runStore (.ask c next) w = runStore (next (.error .disconnected)) w := by
  have hclient : ¬w.state.server.hasClient = true := by
    rw [h]
    exact Bool.false_ne_true
  rw [runStore, Program.run, answerCommand, Server.send, if_neg hclient]
  rfl

/-- What would follow the first command does not follow. -/
theorem App.runStore_send_bind_of_disconnected {α : Type} {w : World App}
    (h : w.state.server.hasClient = false) {c : Command} {f : c.Answer → StoreProgram α} :
    (runStore (StoreProgram.send c >>= f) w).1 = .error .notConnected ∧
      (runStore (StoreProgram.send c >>= f) w).2.state = w.state := by
  change (runStore (.ask c _) w).1 = _ ∧ (runStore (.ask c _) w).2.state = _
  rw [runStore_ask_of_disconnected h]
  exact ⟨rfl, rfl⟩

namespace Task

/-- A call of a repository whose arguments are not refused. -/
def Sends : Task → Prop
  | create experiment => ∃ e, experiment = some e ∧ Text.isBlank e.page = false
  | update experiment =>
    ∃ e, experiment = some e ∧ Text.isBlank e.id = false ∧ Text.isBlank e.page = false
  | delete id page | get id page => Text.isBlank id = false ∧ Text.isBlank page = false
  | active page _ => Text.isBlank page = false
  | storedStats | saveStats _ => True
  | respond _ _ | stats | updateStats _ => False

/-- Without a client a call of a repository fails and changes nothing. -/
theorem Sends.run_of_disconnected {t : Task} (ht : t.Sends) {w : World App}
    (h : w.state.server.hasClient = false) :
    (t.run w).1 = .error .notConnected ∧ (t.run w).2.state = w.state := by
  cases t with
  | create experiment =>
    obtain ⟨e, rfl, hpage⟩ := ht
    have hcreate : Experiments.create w.state.keys (some e) =
        require .page (Text.isBlank e.page) >>= fun _ => Program.now >>= fun now =>
          Experiments.idFor e >>= fun id => _ := rfl
    have hidFor : Experiments.idFor e = newId ∨ Experiments.idFor e = pure e.id := by
      unfold Experiments.idFor
      split_ifs
      · exact Or.inl rfl
      · exact Or.inr rfl
    rw [run, hcreate, hpage]
    rcases hidFor with hidFor | hidFor
    · rw [hidFor]
      exact App.runStore_send_bind_of_disconnected (w := { w with issued := w.issued + 1 }) h
    · rw [hidFor]
      exact App.runStore_send_bind_of_disconnected h
  | update experiment =>
    obtain ⟨e, rfl, hid, hpage⟩ := ht
    have hupdate : Experiments.update w.state.keys (some e) =
        require .experimentId (Text.isBlank e.id) >>= fun _ =>
          require .page (Text.isBlank e.page) >>= fun _ => _ := rfl
    rw [run, hupdate, hid, hpage]
    exact App.runStore_send_bind_of_disconnected h
  | delete id page =>
    obtain ⟨hid, hpage⟩ := ht
    rw [run, Experiments.delete, hid, hpage]
    exact App.runStore_send_bind_of_disconnected h
  | get id page =>
    obtain ⟨hid, hpage⟩ := ht
    rw [run, Experiments.get, hid, hpage]
    exact App.runStore_send_bind_of_disconnected h
  | active page deadline =>
    rw [Sends] at ht
    rw [run, Experiments.active, ht]
    change (App.runStore (.ask _ _) w).1 = _ ∧ (App.runStore (.ask _ _) w).2.state = _
    rw [App.runStore_ask_of_disconnected h]
    exact ⟨rfl, rfl⟩
  | storedStats => exact App.runStore_send_bind_of_disconnected h
  | saveStats given => exact App.runStore_send_bind_of_disconnected h
  | respond | stats | updateStats => exact ht.elim

end Task

/-! ## The client -/

theorem Server.send_eq_disconnected_iff {s : Server} {c : Command} :
    (s.send c).1 = .error .disconnected ↔ s.hasClient = false := by
  cases hclient : s.hasClient with
  | false =>
    rw [send, hclient, if_neg Bool.false_ne_true]
    exact iff_of_true rfl rfl
  | true =>
    rw [send, hclient, if_pos rfl, answer]
    refine iff_of_false ?_ Bool.noConfusion
    split_ifs with hlate
    · exact fun h => Outage.noConfusion (Except.error.inj h)
    · cases hfailure : s.failure with
      | none =>
        simp only [record, hfailure]
        exact fun h => by cases h
      | some failure =>
        simp only [record, hfailure]
        exact fun h => Outage.noConfusion (Except.error.inj h)

/-- No connection was tried. -/
structure World.Unopened (w : World App) : Prop where
  hasClient : w.state.server.hasClient = false
  linkCalls : w.state.server.linkCalls = []

/-- After any run the client is handed out exactly if it is held: the connection was opened, no later
    opening was refused, and closings do not count. That is to say that the connection was opened
    last, unless it is held and was closed last. Without a client every command is refused, and
    every call of a repository fails and changes nothing. Connecting does not fail, whatever the
    store does, but reports it. A connection is closed twice exactly if it is opened and then closed
    twice before the next opening. -/
theorem client_iff_held {w : World App} (hw : w.Unopened) (incidents : List Incident) :
    let ls := linksOf w.state.server.failure incidents
    let w' := w.afterAll incidents
    App.client w' = (if Link.Held ls then .ok () else .error .notConnected) ∧
      ((App.client w' = .ok () ↔ ls.getLast? = some .opened) ↔
        ¬(ls.getLast? = some .closed ∧ Link.Held ls)) ∧
      (∀ c, (w'.state.server.send c).1 = .error .disconnected ↔ ¬Link.Held ls) ∧
      (¬Link.Held ls → ∀ t : Task, t.Sends →
        (t.run w').1 = .error .notConnected ∧ (t.run w').2.state = w'.state) ∧
      (App.connect w').log = w'.log ++ [App.connectEntry w'] ∧
      ([.closed, .closed] <:+: w'.state.server.linkCalls ↔
        [.opened, .closed, .closed] <:+: ls) := by
  intro ls w'
  obtain ⟨failure, hfollows⟩ := exists_follows_afterAll incidents w
  have hheld : w'.state.server.hasClient = true ↔ Link.Held ls := by
    rw [← Link.foldl_hand_eq_true_iff, hfollows.hasClient, hw.hasClient]
  have hcalls : w'.state.server.linkCalls = Link.calls false ls := by
    rw [hfollows.linkCalls, hw.linkCalls, hw.hasClient, List.nil_append]
  have hclient : App.client w' = (if Link.Held ls then .ok () else .error .notConnected) := by
    simp only [App.client, hheld]
  have hmissing (h : ¬Link.Held ls) : w'.state.server.hasClient = false := by
    rw [← hheld] at h
    exact Bool.eq_false_iff.2 h
  refine ⟨hclient, ?_, fun c => ?_, fun h t ht => ht.run_of_disconnected (hmissing h), ?_, ?_⟩
  · have hok : App.client w' = .ok () ↔ Link.Held ls := by
      rw [App.client_eq_ok_iff, hheld]
    rw [hok]
    exact Link.held_iff_opened_iff
  · rw [Server.send_eq_disconnected_iff, ← hheld, Bool.not_eq_true]
  · rw [App.connect_eq]
    rfl
  · rw [hcalls]
    exact Link.closed_twice_iff false ls

/-- An application that was not connected yet. -/
def unconnected : World App := App.start Settings.defaults false 0

/-- A connection that is refused when it is opened again, and then closed: there is no client. -/
theorem client_iff_held_refused : unconnected.Unopened ∧
    let w := unconnected.afterAll
      [.startsUp, .outage (some ⟨.connection, "connection reset"⟩), .connects, .outage none, .shutsDown]
    App.client w = .error .notConnected ∧ (Task.get "hero" "landing").Sends ∧
      ((Task.get "hero" "landing").run w).1 = .error .notConnected := by
  have hnew : unconnected.Unopened := ⟨rfl, rfl⟩
  have hsends : (Task.get "hero" "landing").Sends := ⟨rfl, rfl⟩
  obtain ⟨hclient, -, -, hcalls, -⟩ := client_iff_held hnew
    [.startsUp, .outage (some ⟨.connection, "connection reset"⟩), .connects, .outage none, .shutsDown]
  exact ⟨hnew, hclient, hsends, (hcalls (by decide) _ hsends).1⟩

/-- Starting and shutting down: the client is still handed out, an experiment is still looked up in the
    store, and the connection is closed once more. -/
theorem not_forall_released :
    (¬∀ incidents : List Incident, App.client (unconnected.afterAll incidents) = .ok () ↔
      (linksOf none incidents).getLast? = some .opened) ∧
    (¬∀ (incidents : List Incident) (t : Task), t.Sends →
      (t.run (unconnected.afterAll (incidents ++ [.shutsDown]))).1 = .error .notConnected) ∧
    ¬∀ incidents : List Incident,
      ¬[.closed, .closed] <:+: (unconnected.afterAll incidents).state.server.linkCalls := by
  refine ⟨fun h => ?_, fun h => ?_, fun h => ?_⟩
  · have hlast : (linksOf none [.startsUp, .shutsDown]).getLast? = some .opened :=
      (h [.startsUp, .shutsDown]).1 rfl
    cases hlast
  · have hrefused := h [.startsUp] (.get "hero" "landing") ⟨rfl, rfl⟩
    cases hrefused
  · exact h [.startsUp, .shutsDown, .closes] (by decide)

end SplitTest
