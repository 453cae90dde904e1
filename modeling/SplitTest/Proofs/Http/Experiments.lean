import Mathlib
import SplitTest.Proofs.Assignment.Codec
import SplitTest.Proofs.Assignment.Deadlines
import SplitTest.Proofs.Assignment.Executions
import SplitTest.Proofs.Experiment.Listing

/-
  Every request for assignments is answered, and how.
  `experiments_classified` puts each situation into one of three classes, over every content of the
  store, every state of its connection, every failure, and whatever the clock shows whenever it is
  read: a request is `Refused` with status 400, `Served` with status 200 and the assignments, or
  answered with one and the same status 500. The body of a served request is spelled out in
  `ShowsAssignments`.
-/

namespace SplitTest

open App Experiment

/-! ## Reading in time -/

/-- Reading a hash ends before the deadline, if there is one; time has to pass until then. -/
def Server.InTime (s : Server) (deadline : Option Binary64) : Prop :=
  ∀ d ∈ deadline, Binary64.zero.lt d = true ∧ s.delay.lt d = true

/-- A client is at hand, and the read of a page ends before the deadline of the settings. -/
def World.ReachesStore (w : World App) : Prop :=
  w.state.server.hasClient = true ∧ w.state.server.InTime w.state.settings.readTimeout

/-- What reading a page can come to. -/
inductive PageRead (w : World App) (page : String) : Except Error (List Experiment) → Prop
  | timedOut (h : ¬w.ReachesStore) : PageRead w page (.error .timedOut)
  | notConnected (h : ¬w.ReachesStore) : PageRead w page (.error .notConnected)
  | failed (h : w.ReachesStore) {f : Failure} (hf : w.state.server.failure = some f) :
      PageRead w page (.error (.store f))
  | listed (h : w.ReachesStore) (hf : w.state.server.failure = none)
      {listed : Except Error (List Experiment)}
      (hlisted : Listed page (.ok (w.state.server.store.hash (w.state.keys.page page))) listed) :
      PageRead w page listed

section

variable {w : World App} {page : String}

/-- A deadline that is not met has passed before the store is asked, or passes before it answers. -/
theorem late_of_not_inTime
    (hdeadline : ∀ d ∈ w.state.settings.readTimeout,
      d.lt w.state.server.delay = true ∨ w.state.server.delay.lt d = true)
    (h : ¬w.state.server.InTime w.state.settings.readTimeout) :
    Assigner.hasPassed w.state.settings.readTimeout = true ∨
      isLate w.state.server.delay w.state.settings.readTimeout = true := by
  unfold Server.InTime at h
  push Not at h
  obtain ⟨d, hd, hnot⟩ := h
  rw [hd]
  rcases hdeadline d hd with hlate | hlt
  · exact Or.inr (isLate_of_lt hlate)
  · obtain ⟨_, _, -, hplace, -⟩ := Binary64.lt_iff.1 hlt
    exact Or.inl (Binary64.le_of_not_lt (x := .zero) rfl hplace fun hzero => hnot hzero hlt)

/-- Asking for a hash comes to nothing, or to the failure of the store or the contents of the
    hash. -/
theorem pageRead_of_listed
    (hdeadline : ∀ d ∈ w.state.settings.readTimeout,
      d.lt w.state.server.delay = true ∨ w.state.server.delay.lt d = true)
    (hpassed : Assigner.hasPassed w.state.settings.readTimeout = false)
    {listed : Except Error (List Experiment)}
    (h : Listed page (w.state.server.send
      (.readHash (w.state.keys.page page) w.state.settings.readTimeout)).1 listed) :
    PageRead w page listed := by
  by_cases hclient : w.state.server.hasClient = true
  case neg =>
    rw [Server.send, if_neg hclient] at h
    cases h
    exact .notConnected fun hreached => hclient hreached.1
  rw [Server.send, if_pos hclient, Server.answer, Server.misses] at h
  by_cases hintime : w.state.server.InTime w.state.settings.readTimeout
  case neg =>
    have hlate := (late_of_not_inTime hdeadline hintime).resolve_left (by simp [hpassed])
    rw [if_pos hlate] at h
    cases h
    exact .timedOut fun hreached => hintime hreached.2
  have hlate := (notLate_of_lt hintime).2
  rw [hlate, if_neg Bool.false_ne_true] at h
  cases hfailure : w.state.server.failure with
  | some f =>
    simp only [Server.record, hfailure] at h
    cases h
    exact .failed ⟨hclient, hintime⟩ hfailure
  | none =>
    simp only [Server.record, hfailure] at h
    exact .listed ⟨hclient, hintime⟩ hfailure h

/-- Reading a page within the deadline of the settings. -/
theorem pageRead_of_ends
    (hdeadline : ∀ d ∈ w.state.settings.readTimeout,
      d.lt w.state.server.delay = true ∨ w.state.server.delay.lt d = true)
    (hpage : Text.isBlank page = false) {x x' : Server × Nat} (hx : x.1 = w.state.server)
    {listed : Except Error (List Experiment)}
    (h : (Assigner.read w.state.assigner.source page w.state.settings.readTimeout).EndsIssuing
      Issues Replies x listed x') : PageRead w page listed := by
  unfold Assigner.read at h
  cases hpassed : Assigner.hasPassed w.state.settings.readTimeout with
  | true =>
    rw [hpassed, if_pos rfl] at h
    cases h
    refine .timedOut fun hreached => ?_
    rw [(notLate_of_lt hreached.2).1] at hpassed
    cases hpassed
  | false =>
    rw [hpassed, if_neg Bool.false_ne_true] at h
    obtain ⟨answer, ⟨rfl, -⟩, hlisted⟩ := Experiments.active_cases hpage h
    rw [hx] at hlisted
    exact pageRead_of_listed hdeadline hpassed hlisted

end

/-! ## Replies -/

/-- The reply to an error of the assigner. -/
def replyTo (e : Error) : Http.Reply :=
  if e.refusesArgument then .detail 400 e.message else .failed

section

variable {Q : Type} {A : Q → Type} {σ : Type} {issue : String → σ → σ → Prop}
  {step : (q : Q) → A q → σ → σ → Prop} {x x' : σ} {r : Except Error Http.Reply}

theorem explain_cases {page : String} {e : Error}
    (h : (Http.explain page e : Program Q A Http.Reply).EndsIssuing issue step x r x') :
    r = .ok (replyTo e) := by
  unfold replyTo
  unfold Http.explain at h
  split at h
  · cases h with
    | log h =>
      cases h
      rfl
  · split_ifs at h ⊢
    · cases h with
      | log h =>
        cases h
        rfl
    · cases h with
      | log h =>
        cases h
        rfl

/-- The endpoint turns every outcome of the assigner into a reply. -/
theorem experiments_cases {a : Assigner Q A} {page : String} (hpage : Text.isBlank page = false)
    {userId : Option String}
    (h : (Http.experiments a (some page) userId).EndsIssuing issue step x r x') :
    ∃ result mid, (a.respond (some ⟨some page, userId⟩) none).EndsIssuing issue step x result mid ∧
      r = .ok (match result with
        | .ok response => .json 200 response.render
        | .error e => replyTo e) := by
  unfold Http.experiments at h
  have hfilter : (some page).filter (fun p => !Text.isBlank p) = some page := by simp [hpage]
  rw [hfilter] at h
  obtain ⟨result, mid, hrespond, hreply⟩ := Program.EndsIssuing.of_attempt_bind h
  refine ⟨result, mid, hrespond, ?_⟩
  cases result with
  | ok response =>
    cases hreply with
    | log h =>
      cases h
      rfl
  | error e => exact explain_cases hreply

/-- A request without a page is refused before anything happens. -/
theorem experiments_of_missing {a : Assigner Q A} {page : Option String}
    (hmissing : Text.isMissing page = true) {userId : Option String}
    (h : (Http.experiments a page userId).EndsIssuing issue step x r x') :
    r = .ok (.detail 400 "Missing required parameter: 'page'") := by
  have hfilter : page.filter (fun p => !Text.isBlank p) = none := by
    cases page with
    | none => rfl
    | some p =>
      have hblank : Text.isBlank p = true := hmissing
      simp [hblank]
  unfold Http.experiments at h
  rw [hfilter] at h
  cases h with
  | log h =>
    cases h
    rfl

end

/-- What the endpoint answers with is the reply to what was read of the page. -/
theorem exists_pageRead_of_canEnd {w : World App} {page : String}
    (hdeadline : ∀ d ∈ w.state.settings.readTimeout,
      d.lt w.state.server.delay = true ∨ w.state.server.delay.lt d = true)
    (hpage : Text.isBlank page = false) {userId : Option String} {r : Except Error Http.Reply}
    (h : CanEnd (Http.experiments w.state.assigner (some page) userId) w r) :
    ∃ listed, PageRead w page listed ∧
      r = .ok (match answered (sessionOf w userId) listed with
        | .ok response => .json 200 response.render
        | .error e => replyTo e) := by
  obtain ⟨x', h⟩ := h
  obtain ⟨result, mid, hrespond, hreply⟩ := experiments_cases hpage h
  rcases Assigner.respond_cases hpage hrespond with
    ⟨e, hkey⟩ | ⟨key, start, listed, hkey, hread, rfl⟩
  · obtain ⟨hnot, -⟩ := Assigner.keyOf_cases hkey
    cases hnot
  · obtain ⟨heq, hstart⟩ := Assigner.keyOf_cases hkey
    cases heq
    exact ⟨listed, pageRead_of_ends hdeadline hpage hstart hread, hreply⟩

/-! ## The three classes -/

/-- The page is missing or blank, or the store refused the read in time. -/
def Refused (w : World App) (page : Option String) : Prop :=
  Text.isMissing page = true ∨
    w.ReachesStore ∧ ∃ f, w.state.server.failure = some f ∧ f.kind.refusesValue = true

/-- The page is named and can be read in time, all documents of the page are sound, and every
    running experiment on it has a variant. -/
structure Served (w : World App) (page : String) : Prop where
  named : Text.isBlank page = false
  reached : w.ReachesStore
  failure : w.state.server.failure = none
  decoded : ∀ text ∈ documentsOf w page, ∃ e, ReadsAs text e
  variants : ∀ text ∈ documentsOf w page, ∀ e, ReadsAs text e →
    e.isActive = true → e.page = page → e.variants ≠ []

/-- The assignments of a visitor: the running experiments of the page, in their order, each with
    the variant that the visitor is allocated to. The body says that and nothing else. -/
def ShowsAssignments (w : World App) (page : String) (userId : Option String)
    (reply : Http.Reply) : Prop :=
  ∃ decoded listed entries,
    List.Forall₂ ReadsAs (documentsOf w page) decoded ∧ IsListing page decoded listed ∧
    List.Forall₂ (Assigns (sessionOf w userId)) listed entries ∧
    reply.status = 200 ∧ reply.headers = [("content-type", "application/json")] ∧
    reply.body = (bodyJson ConfigValue.toScalar (sessionOf w userId) entries).compact ∧
    Json.parse reply.body.toList =
      some (bodyJson (fun v => v.toScalar.written) (sessionOf w userId) entries)

/-- An entry shows one of the variants of its experiment. -/
theorem Assigns.exists_variant {key : String} (hkey : Text.isBlank key = false) {e : Experiment}
    {a : AssignedExperiment} (h : Assigns key e a) :
    ∃ v ∈ e.variants, a.variant.id = v.id ∧ a.variant.name = v.name ∧
      a.variant.config.entries = v.config.entries := by
  obtain ⟨allocation, hallocate, hshown⟩ := h.variant
  have hne : e.variants ≠ [] := by
    intro hnone
    simp [allocate, Text.isMissing, hkey, hnone] at hallocate
  obtain ⟨allocation', hallocate', hby⟩ := exists_allocate hne hkey
  rw [hallocate] at hallocate'
  cases hallocate'
  exact ⟨allocation.variant, List.mem_of_getElem? hby.variant, hshown⟩

/-- So the numbers in its configuration are not too long. -/
theorem Assigns.sized {key : String} (hkey : Text.isBlank key = false) {e : Experiment}
    {a : AssignedExperiment} (h : Assigns key e a) (he : e.Sized) : a.variant.config.Sized := by
  obtain ⟨v, hv, -, -, hentries⟩ := h.exists_variant hkey
  unfold Config.Sized
  rw [hentries]
  exact he v hv

section

variable {w : World App} {page : String} {userId : Option String}

/-- A named page is refused only by a store that can be reached and refuses a value. -/
theorem not_refused (hpage : Text.isBlank page = false)
    (h : w.ReachesStore → ∀ f, w.state.server.failure = some f → f.kind.refusesValue = false) :
    ¬Refused w (some page) := by
  rintro (hmissing | ⟨hreached, f, hf, hrefuses⟩)
  · exact absurd (hmissing.symm.trans hpage) Bool.noConfusion
  · rw [h hreached f hf] at hrefuses
    cases hrefuses

/-- A page whose listed experiments all have variants is served. -/
theorem served_of_listing (hpage : Text.isBlank page = false) (h : w.ReachesStore)
    (hf : w.state.server.failure = none) {all : List Experiment}
    (hall : List.Forall₂ ReadsAs (documentsOf w page) all)
    (hvariants : ∀ e ∈ Experiments.listing page all, e.variants ≠ []) : Served w page := by
  refine ⟨hpage, h, hf, fun text htext => ?_, fun text htext e he hactive honpage => ?_⟩
  · obtain ⟨e, -, he⟩ := exists_of_mem_forall₂ hall.flip htext
    exact ⟨e, he⟩
  · obtain ⟨d, hd, hread⟩ := exists_of_mem_forall₂ hall.flip htext
    have htwice := he.twice hread
    rw [htwice.variants]
    exact hvariants d (mem_listing.2 ⟨hd, htwice.isActive ▸ hactive, htwice.page ▸ honpage⟩)

/-- A page with a listed experiment without variants is not: the experiment has a document. -/
theorem not_served_of_bare {all : List Experiment}
    (hall : List.Forall₂ ReadsAs (documentsOf w page) all) {e : Experiment}
    (he : e ∈ Experiments.listing page all) (hvariants : e.variants = []) : ¬Served w page := by
  intro hserved
  obtain ⟨hread, hactive, honpage⟩ := mem_listing.1 he
  obtain ⟨text, htext, hreads⟩ := exists_of_mem_forall₂ hall hread
  exact hserved.variants text htext e hreads hactive honpage hvariants

/-- The response with an entry for every listed experiment shows the assignments. -/
theorem showsAssignments_json {all : List Experiment}
    (hall : List.Forall₂ ReadsAs (documentsOf w page) all) {entries : List AssignedExperiment}
    (hentries : List.Forall₂ (Assigns (sessionOf w userId)) (Experiments.listing page all)
      entries) :
    ShowsAssignments w page userId (.json 200 (Response.render ⟨sessionOf w userId, entries⟩)) := by
  have hsized : ∀ a ∈ entries, a.variant.config.Sized := by
    intro a ha
    obtain ⟨e, he, hassigns⟩ := exists_of_mem_forall₂ hentries ha
    obtain ⟨text, -, hread⟩ := exists_of_mem_forall₂ hall (mem_listing.1 he).1
    exact hassigns.sized (isBlank_sessionOf w userId) hread.sized
  exact ⟨all, _, entries, hall, isListing_listing page all, hentries, rfl, rfl,
    Response.render_eq _, Response.parse_render hsized⟩

/-- The request for a named page is refused, served or failed, by what was read. -/
theorem classified_of_pageRead (hpage : Text.isBlank page = false)
    {listed : Except Error (List Experiment)} (h : PageRead w page listed)
    {reply : Http.Reply} (hreply : reply = match answered (sessionOf w userId) listed with
      | .ok response => .json 200 response.render
      | .error e => replyTo e) :
    (Refused w (some page) ∧ ¬Served w page ∧ reply.status = 400) ∨
      (¬Refused w (some page) ∧ Served w page ∧ ShowsAssignments w page userId reply) ∨
      (¬Refused w (some page) ∧ ¬Served w page ∧ reply = .failed) := by
  have hkey := isBlank_sessionOf w userId
  cases h with
  | timedOut h =>
    exact Or.inr (Or.inr ⟨not_refused hpage fun hw => absurd hw h, fun hs => h hs.reached, hreply⟩)
  | notConnected h =>
    exact Or.inr (Or.inr ⟨not_refused hpage fun hw => absurd hw h, fun hs => h hs.reached, hreply⟩)
  | @failed h f hf =>
    have hnot : ¬Served w page := by
      intro hserved
      rw [hserved.failure] at hf
      cases hf
    cases hrefuses : f.kind.refusesValue with
    | true =>
      refine Or.inl ⟨Or.inr ⟨h, f, hf, hrefuses⟩, hnot, ?_⟩
      have hargument : (Error.store f).refusesArgument = true := hrefuses
      rw [hreply]
      change (replyTo (.store f)).status = 400
      rw [replyTo, if_pos hargument]
      rfl
    | false =>
      refine Or.inr (Or.inr ⟨not_refused hpage ?_, hnot, ?_⟩)
      · intro _ f' hf'
        rw [hf] at hf'
        cases hf'
        exact hrefuses
      · have hargument : (Error.store f).refusesArgument = false := hrefuses
        rw [hreply]
        change replyTo (.store f) = .failed
        rw [replyTo, hargument, if_neg Bool.false_ne_true]
  | listed h hf hlisted =>
    have hnotRefused : ¬Refused w (some page) := by
      refine not_refused hpage fun _ f hf' => ?_
      rw [hf] at hf'
      cases hf'
    cases hlisted with
    | unreadable faults htext hnone =>
      refine Or.inr (Or.inr ⟨hnotRefused, fun hserved => ?_, hreply⟩)
      obtain ⟨e, he⟩ := hserved.decoded _ htext
      exact hnone e he
    | @listing _ all hall =>
      have hresults := results_answered hkey (.ok (Experiments.listing page all))
      generalize hanswered : answered (sessionOf w userId) _ = result at hresults hreply
      cases hresults with
      | failed h => cases h
      | @bare before e later hsplit _ hvariants =>
        refine Or.inr (Or.inr ⟨hnotRefused, not_served_of_bare hall ?_ hvariants, hreply⟩)
        rw [Except.ok.inj hsplit]
        exact List.mem_append_right _ List.mem_cons_self
      | @assigned es entries hes hvariants hentries =>
        cases hes
        rw [hreply]
        exact Or.inr (Or.inl ⟨hnotRefused, served_of_listing hpage h hf hall hvariants,
          showsAssignments_json hall hentries⟩)

end

/-- Over every content of the store, every state of its connection, every failure and every
    deadline other than the time that the read takes, and whatever the clock shows whenever it is
    read: a request for assignments is answered. The answer has status 400 exactly if it is refused,
    and status 200, with the assignments, exactly if it is served; all other requests have one and
    the same answer with status 500. A run of the application is one of the executions. -/
theorem experiments_classified {w : World App}
    (hdeadline : ∀ d ∈ w.state.settings.readTimeout,
      d.lt w.state.server.delay = true ∨ w.state.server.delay.lt d = true)
    (page userId : Option String) :
    CanEnd (Http.experiments w.state.assigner page userId) w
        (App.runStore (Http.experiments w.state.assigner page userId) w).1 ∧
      ∀ r, CanEnd (Http.experiments w.state.assigner page userId) w r →
        ∃ reply, r = .ok reply ∧
          (reply.status = 400 ↔ Refused w page) ∧
          (reply.status = 200 ↔ ∃ p, page = some p ∧ Served w p) ∧
          (¬Refused w page → (¬∃ p, page = some p ∧ Served w p) →
            reply.status = 500 ∧ reply = .failed ∧ reply.body =
              "\x7b\"detail\":\"An error occurred while processing your request\"\x7d") ∧
          ∀ p, page = some p → Served w p → ShowsAssignments w p userId reply := by
  refine ⟨canEnd_runStore _ w, fun r h => ?_⟩
  cases hmissing : Text.isMissing page with
  | true =>
    have hnot : ∀ p, page = some p → ¬Served w p := by
      rintro p rfl hserved
      exact absurd (hmissing.symm.trans hserved.named) Bool.noConfusion
    obtain ⟨x', h⟩ := h
    refine ⟨_, experiments_of_missing hmissing h, iff_of_true rfl (Or.inl hmissing),
      iff_of_false (by decide) ?_, fun hnone => absurd (Or.inl hmissing) hnone,
      fun p hp hserved => absurd hserved (hnot p hp)⟩
    rintro ⟨p, hp, hserved⟩
    exact hnot p hp hserved
  | false =>
    obtain ⟨p, rfl⟩ : ∃ p, page = some p := by
      cases page with
      | none => cases hmissing
      | some p => exact ⟨p, rfl⟩
    have hsome : (∃ q, some p = some q ∧ Served w q) ↔ Served w p := by simp
    rw [hsome]
    obtain ⟨listed, hread, rfl⟩ := exists_pageRead_of_canEnd hdeadline hmissing h
    refine ⟨_, rfl, ?_⟩
    generalize hreply : (match answered (sessionOf w userId) listed with
      | .ok response => Http.Reply.json 200 response.render
      | .error e => replyTo e) = reply
    rcases classified_of_pageRead hmissing hread hreply.symm with
      ⟨hrefused, hserved, hstatus⟩ | ⟨hrefused, hserved, hshows⟩ | ⟨hrefused, hserved, rfl⟩
    · refine ⟨iff_of_true hstatus hrefused, iff_of_false (by rw [hstatus]; decide) hserved,
        fun hnot => absurd hrefused hnot, ?_⟩
      rintro _ ⟨⟩ h
      exact absurd h hserved
    · obtain ⟨-, -, -, -, -, -, hstatus, -⟩ := id hshows
      refine ⟨iff_of_false (by rw [hstatus]; decide) hrefused, iff_of_true hstatus hserved,
        fun _ hnot => absurd hserved hnot, ?_⟩
      rintro _ ⟨⟩ -
      exact hshows
    · refine ⟨iff_of_false (by decide) hrefused, iff_of_false (by decide) hserved,
        fun _ _ => ⟨rfl, rfl, by decide +kernel⟩, ?_⟩
      rintro _ ⟨⟩ h
      exact absurd h hserved

/-- The document of an experiment with one variant, which names no moment. -/
def welcomeText : String :=
  "\x7b\"id\":\"hero\",\"name\":\"Hero\",\"page\":\"landing\",\"variants\":[\x7b\"id\":\"bold\"," ++
  "\"name\":\"Bold\",\"trafficPercentage\":100," ++
  "\"config\":\x7b\"color\":\"red\",\"size\":2\x7d\x7d]\x7d"

/-- What it is read as, at some time. -/
def welcome (now : Timestamp) : Experiment where
  id := "hero"
  name := "Hero"
  page := "landing"
  isActive := true
  variants := [⟨"bold", "Bold", 100, .ofList [("color", .text "red"), ("size", .whole 2)]⟩]
  createdAt := now
  updatedAt := now

/-- An application with five seconds for every read and the document on its page, over a store that
    may be failing. -/
def welcoming (failure : Option Failure) : World App :=
  (App.start { Settings.defaults with readTimeout := some (.finite false 4617315517961601024) }
    true 0).withServer
    { Server.fresh true with
      store := ⟨[("experiments:landing", [("hero", welcomeText)])], []⟩
      failure }

theorem readsAs_welcomeText : ReadsAs welcomeText (welcome (.utc 0)) := by
  refine ⟨0, 0, Reading.eq_value_of_value? ?_⟩
  decide +kernel

theorem reachesStore_welcoming (failure : Option Failure) : (welcoming failure).ReachesStore := by
  have hzero : Binary64.zero.lt (.finite false 4617315517961601024) = true := by decide
  refine ⟨rfl, ?_⟩
  rintro _ ⟨⟩
  exact ⟨hzero, hzero⟩

theorem served_welcoming : Served (welcoming none) "landing" := by
  have htexts : documentsOf (welcoming none) "landing" = [welcomeText] := rfl
  refine ⟨rfl, reachesStore_welcoming none, rfl, ?_, ?_⟩
  · rw [htexts]
    exact List.forall_mem_singleton.2 ⟨_, readsAs_welcomeText⟩
  · rw [htexts]
    refine List.forall_mem_singleton.2 fun e he _ _ => ?_
    rw [(he.twice readsAs_welcomeText).variants]
    exact List.cons_ne_nil _ _

/-- The body for a visitor of that page. -/
theorem body_of_shows {reply : Http.Reply}
    (h : ShowsAssignments (welcoming none) "landing" (some "ada") reply) :
    reply.body =
      "\x7b\"sessionId\":\"ada\",\"experiments\":[\x7b\"id\":\"hero\",\"name\":\"Hero\"," ++
      "\"variant\":\x7b\"id\":\"bold\",\"name\":\"Bold\"," ++
      "\"config\":\x7b\"color\":\"red\",\"size\":2\x7d\x7d\x7d]\x7d" := by
  obtain ⟨decoded, listed, entries, hdecoded, hlisting, hentries, -, -, hbody, -⟩ := h
  have htexts : documentsOf (welcoming none) "landing" = [welcomeText] := rfl
  have hkey : sessionOf (welcoming none) (some "ada") = "ada" := rfl
  rw [htexts] at hdecoded
  rw [hkey] at hentries hbody
  cases hdecoded with
  | @cons _ e _ _ he hnil =>
    cases hnil
    have htwice := he.twice readsAs_welcomeText
    have hperm := hlisting.perm
    simp only [htwice.isActive, htwice.page, welcome, and_self, decide_true,
      List.filter_cons_of_pos, List.filter_nil, List.perm_singleton] at hperm
    subst hperm
    cases hentries with
    | @cons _ a _ _ ha hnil =>
      cases hnil
      obtain ⟨v, hv, hid, hname, hconfig⟩ := ha.exists_variant rfl
      rw [htwice.variants] at hv
      cases List.mem_singleton.1 hv
      rw [hbody]
      simp only [bodyJson, entryJson, List.map_cons, List.map_nil, ha.id, ha.name, hid, hname,
        hconfig, htwice.id, htwice.name]
      decide +kernel

/-- There the page is served, a store that refuses a value is the fault of the caller, whatever the
    class of the refusal, and one that cannot be reached is not. -/
theorem experiments_classified_welcoming :
    (∀ failure, ∀ d ∈ (welcoming failure).state.settings.readTimeout,
        d.lt (welcoming failure).state.server.delay = true ∨
          (welcoming failure).state.server.delay.lt d = true) ∧
      (∀ r, CanEnd (Http.experiments (welcoming none).state.assigner (some "landing") (some "ada"))
          (welcoming none) r →
        ∃ reply, r = .ok reply ∧ reply.status = 200 ∧ reply.body =
          "\x7b\"sessionId\":\"ada\",\"experiments\":[\x7b\"id\":\"hero\",\"name\":\"Hero\"," ++
          "\"variant\":\x7b\"id\":\"bold\",\"name\":\"Bold\"," ++
          "\"config\":\x7b\"color\":\"red\",\"size\":2\x7d\x7d\x7d]\x7d") ∧
      (∀ kind message, kind ∈ [FailureKind.value, .other (.ofName "UnicodeDecodeError")] →
        ∀ r, CanEnd (Http.experiments (welcoming (some ⟨kind, message⟩)).state.assigner
            (some "landing") none) (welcoming (some ⟨kind, message⟩)) r →
          ∃ reply, r = .ok reply ∧ reply.status = 400) ∧
      ∀ message r, CanEnd (Http.experiments (welcoming (some ⟨.connection, message⟩)).state.assigner
          (some "landing") none) (welcoming (some ⟨.connection, message⟩)) r →
        r = .ok .failed := by
  have hdeadline : ∀ failure, ∀ d ∈ (welcoming failure).state.settings.readTimeout,
      d.lt (welcoming failure).state.server.delay = true ∨
        (welcoming failure).state.server.delay.lt d = true :=
    fun failure d hd => Or.inr ((reachesStore_welcoming failure).2 d hd).2
  refine ⟨hdeadline, fun r h => ?_, fun kind message hkind r h => ?_, fun message r h => ?_⟩
  · obtain ⟨-, hclassified⟩ :=
      experiments_classified (hdeadline none) (some "landing") (some "ada")
    obtain ⟨reply, hr, -, hok, -, hshows⟩ := hclassified r h
    exact ⟨reply, hr, hok.2 ⟨_, rfl, served_welcoming⟩,
      body_of_shows (hshows _ rfl served_welcoming)⟩
  · obtain ⟨-, hclassified⟩ :=
      experiments_classified (hdeadline (some ⟨kind, message⟩)) (some "landing") none
    obtain ⟨reply, hr, hrefused, -⟩ := hclassified r h
    have hall : ∀ kind ∈ [FailureKind.value, .other (.ofName "UnicodeDecodeError")],
        kind.refusesValue = true := by decide
    have hrefuses := hall kind hkind
    exact ⟨reply, hr, hrefused.2 (Or.inr ⟨reachesStore_welcoming _, _, rfl, hrefuses⟩)⟩
  · obtain ⟨-, hclassified⟩ :=
      experiments_classified (hdeadline (some ⟨.connection, message⟩)) (some "landing") none
    obtain ⟨reply, rfl, -, -, hfailed, -⟩ := hclassified r h
    have hrefused : ¬Refused (welcoming (some ⟨.connection, message⟩)) (some "landing") := by
      refine not_refused rfl fun _ f hf => ?_
      cases hf
      rfl
    have hserved : ¬∃ p, some "landing" = some p ∧
        Served (welcoming (some ⟨.connection, message⟩)) p := by
      rintro ⟨p, -, hserved⟩
      cases hserved.failure
    rw [(hfailed hrefused hserved).2.1]

end SplitTest
