import Mathlib
import SplitTest.Proofs.Experiment.Codec
import SplitTest.Proofs.Store.Fields
import SplitTest.Proofs.Store.Healthy
import SplitTest.Proofs.Store.Schedules
import SplitTest.Seed

/-
  Seeding a store.
  `Seed.lacking` are the experiments of a list for which the store has no field yet, and `Seed.Fills`
  says that a store is another one with their documents at the ends of the hashes of their pages. A
  seeding issues one command for each experiment of the list. So over a store that works it fills
  the gaps, and over one that begins to fail it fills those of the experiments before the failure
  (`seed_cases`, by induction on the list with the store as what changes); what has been filled has
  no gaps left, and seeding it again changes nothing.
-/

namespace SplitTest

open Experiments

/-- Where an experiment is kept: its page and its id. -/
def Experiment.address (e : Experiment) : String × String := (e.page, e.id)

/-- An experiment created and updated at one time. -/
def Experiment.stamped (e : Experiment) (now : Instant) : Experiment :=
  { e with createdAt := .utc now, updatedAt := .utc now }

namespace Seed

/-- The experiments of a list that a store lacks: it has no field for them, and of several for one
    field the first counts. -/
def lacking (keys : Keys) (s : Store) (es : List Experiment) : List Experiment :=
  (es.filter fun e => !s.hasField (keys.page e.page) e.id).eraseDupsBy fun d e =>
    d.address == e.address

/-- The pages and ids of a list for which a store has no field. -/
def gaps (keys : Keys) (s : Store) (es : List Experiment) : Finset (String × String) :=
  (es.map Experiment.address).toFinset.filter fun a => s.hasField (keys.page a.1) a.2 = false

/-- The documents of some experiments were put to the ends of the hashes of their pages; all other
    hashes and all texts stayed. -/
structure Appended (keys : Keys) (s : Store) (stored : List Experiment) (s' : Store) : Prop where
  hash : ∀ page, s'.hash (keys.page page) =
    s.hash (keys.page page) ++ (stored.filter (·.page == page)).map fun d => (d.id, d.render)
  others : ∀ key, (∀ d ∈ stored, key ≠ keys.page d.page) →
    s'.hashes.get? key = s.hashes.get? key
  texts : s'.texts = s.texts
  unchanged : stored = [] → s' = s

/-- The experiments of a list that the store lacked were put to the ends of their hashes, each of them
    created at some time. -/
def Fills (keys : Keys) (s : Store) (es : List Experiment) (s' : Store) : Prop :=
  ∃ stored, List.Forall₂ (fun e d => ∃ now, d = e.stamped now) (lacking keys s es) stored ∧
    Appended keys s stored s'

section

variable {keys : Keys} {e : Experiment} {es stored : List Experiment} {s s' : Store}

/-! ## What a store lacks -/

/-- A new field fills the gap of its page and id only. -/
theorem hasField_setField_address (keys : Keys) (s : Store) (e : Experiment) (text : String)
    (address : String × String) :
    (s.setField (keys.page e.page) e.id text).hasField (keys.page address.1) address.2 =
      (decide (address = e.address) || s.hasField (keys.page address.1) address.2) := by
  have hsame : keys.page address.1 = keys.page e.page ∧ address.2 = e.id ↔ address = e.address := by
    rw [Prod.ext_iff]
    exact and_congr_left fun _ => ⟨fun h => keys.page_injective h, congrArg keys.page⟩
  rw [Store.hasField_setField]
  simp only [hsame]

theorem lacking_cons_of_hasField (h : s.hasField (keys.page e.page) e.id = true) :
    lacking keys s (e :: es) = lacking keys s es := by
  rw [lacking, List.filter_cons_of_neg (by rw [h]; decide), lacking]

/-- Once the first experiment has its field, the store lacks the others as before, but for those of
    the same page and id. -/
theorem lacking_cons_of_not_hasField (h : s.hasField (keys.page e.page) e.id = false)
    (text : String) :
    lacking keys s (e :: es) = e :: lacking keys (s.setField (keys.page e.page) e.id text) es := by
  rw [lacking, List.filter_cons_of_pos (by rw [h]; decide), List.eraseDupsBy_cons,
    List.filter_filter, lacking]
  congr 3
  funext d
  have hfield := hasField_setField_address keys s e text d.address
  rw [Experiment.address] at hfield
  rw [hfield, Experiment.address]
  by_cases hsame : (d.page, d.id) = e.address <;> simp [hsame]

theorem mem_gaps {address : String × String} : address ∈ gaps keys s es ↔
    (∃ e ∈ es, e.address = address) ∧ s.hasField (keys.page address.1) address.2 = false := by
  rw [gaps, Finset.mem_filter, List.mem_toFinset, List.mem_map]

theorem gaps_cons_of_hasField (h : s.hasField (keys.page e.page) e.id = true) :
    gaps keys s (e :: es) = gaps keys s es := by
  ext address
  rw [mem_gaps, mem_gaps, List.exists_mem_cons_iff]
  refine and_congr_left fun hgap => or_iff_right ?_
  rintro rfl
  rw [Experiment.address, h] at hgap
  cases hgap

theorem gaps_cons_of_not_hasField (h : s.hasField (keys.page e.page) e.id = false)
    (text : String) : gaps keys s (e :: es) =
      insert e.address (gaps keys (s.setField (keys.page e.page) e.id text) es) := by
  ext address
  rw [Finset.mem_insert, mem_gaps, mem_gaps, List.exists_mem_cons_iff, hasField_setField_address]
  by_cases hsame : address = e.address
  · subst hsame
    exact iff_of_true ⟨Or.inl rfl, h⟩ (Or.inl rfl)
  · rw [decide_eq_false hsame, Bool.false_or, or_iff_right hsame, or_iff_right (Ne.symm hsame)]

/-- Every gap is filled once. -/
theorem length_lacking (keys : Keys) (s : Store) (es : List Experiment) :
    (lacking keys s es).length = (gaps keys s es).card := by
  induction es generalizing s with
  | nil => rfl
  | cons e es ih =>
    cases hthere : s.hasField (keys.page e.page) e.id with
    | true => rw [lacking_cons_of_hasField hthere, gaps_cons_of_hasField hthere, ih]
    | false =>
      have hfilled : e.address ∉ gaps keys (s.setField (keys.page e.page) e.id "") es := by
        rw [mem_gaps, hasField_setField_address, decide_eq_true rfl, Bool.true_or]
        exact fun h => Bool.noConfusion h.2
      rw [lacking_cons_of_not_hasField hthere "", gaps_cons_of_not_hasField hthere "",
        List.length_cons, ih, Finset.card_insert_of_notMem hfilled]

/-- Every gap is filled by an experiment of its page and id. -/
theorem exists_mem_lacking (he : e ∈ es) (h : s.hasField (keys.page e.page) e.id = false) :
    ∃ d ∈ lacking keys s es, d.address = e.address := by
  induction es generalizing s with
  | nil => cases he
  | cons first es ih =>
    cases hthere : s.hasField (keys.page first.page) first.id with
    | true =>
      rw [lacking_cons_of_hasField hthere]
      rcases List.mem_cons.1 he with rfl | he
      · rw [h] at hthere
        cases hthere
      · exact ih he h
    | false =>
      rw [lacking_cons_of_not_hasField hthere ""]
      by_cases hsame : e.address = first.address
      · exact ⟨first, List.mem_cons_self, hsame.symm⟩
      · have hrest : e ∈ es := (List.mem_cons.1 he).resolve_left fun h => hsame (by rw [h])
        obtain ⟨d, hd, haddress⟩ := ih hrest
          ((hasField_setField_address keys s first "" e.address).trans (by
            rw [decide_eq_false hsame, Bool.false_or]
            exact h))
        exact ⟨d, List.mem_cons_of_mem _ hd, haddress⟩

theorem lacking_eq_nil (h : ∀ e ∈ es, s.hasField (keys.page e.page) e.id = true) :
    lacking keys s es = [] := by
  have hnone : es.filter (fun e => !s.hasField (keys.page e.page) e.id) = [] := by
    rw [List.filter_eq_nil_iff]
    intro e he
    rw [h e he]
    decide
  rw [lacking, hnone]
  rfl

/-! ## What is filled -/

theorem Appended.refl (keys : Keys) (s : Store) : Appended keys s [] s where
  hash _ := (List.append_nil _).symm
  others _ _ := rfl
  texts := rfl
  unchanged _ := rfl

/-- A document that had no field goes to the end of its hash, before those that come later. -/
theorem Appended.cons (h : s.hasField (keys.page e.page) e.id = false)
    (hrest : Appended keys (s.setField (keys.page e.page) e.id e.render) stored s') :
    Appended keys s (e :: stored) s' where
  hash page := by
    rw [hrest.hash]
    by_cases hpage : e.page = page
    · subst hpage
      have hmem : e.id ∉ (s.hash (keys.page e.page)).names := by
        rw [← Store.hasField_eq_true_iff, h]
        decide
      rw [Store.setField, Store.hash_setHash_self, Table.put_of_not_mem _ hmem,
        List.filter_cons_of_pos (by simp), List.map_cons, List.append_assoc, List.singleton_append]
    · rw [Store.setField, Store.hash_setHash_of_ne s fun heq => hpage (keys.page_injective heq).symm,
        List.filter_cons_of_neg (by simpa using hpage)]
  others key hkey := by
    rw [hrest.others key fun d hd => hkey d (List.mem_cons_of_mem _ hd)]
    exact Table.get?_put_of_ne (hkey e List.mem_cons_self) _ _
  texts := hrest.texts
  unchanged h := by cases h

theorem Fills.nil (keys : Keys) (s : Store) : Fills keys s [] s :=
  ⟨[], .nil, .refl keys s⟩

theorem Fills.skip (h : s.hasField (keys.page e.page) e.id = true) (hrest : Fills keys s es s') :
    Fills keys s (e :: es) s' := by
  unfold Fills
  rw [lacking_cons_of_hasField h]
  exact hrest

theorem Fills.cons {now : Instant} (h : s.hasField (keys.page e.page) e.id = false)
    (hrest : Fills keys (s.setField (keys.page e.page) e.id (e.stamped now).render) es s') :
    Fills keys s (e :: es) s' := by
  obtain ⟨stored, hstored, happended⟩ := hrest
  refine ⟨e.stamped now :: stored, ?_, .cons h happended⟩
  rw [lacking_cons_of_not_hasField h]
  exact .cons ⟨now, rfl⟩ hstored

/-- What has been filled has no gaps left. -/
theorem Fills.hasField (h : Fills keys s es s') (he : e ∈ es) :
    s'.hasField (keys.page e.page) e.id = true := by
  obtain ⟨stored, hstored, happended⟩ := h
  rw [Store.hasField_eq_true_iff, happended.hash, Table.names, List.map_append, List.mem_append]
  cases hthere : s.hasField (keys.page e.page) e.id with
  | true => exact Or.inl (Store.hasField_eq_true_iff.1 hthere)
  | false =>
    obtain ⟨d, hd, haddress⟩ := exists_mem_lacking he hthere
    obtain ⟨_, hmem, now, rfl⟩ := exists_of_mem_forall₂ hstored.flip hd
    obtain ⟨hpage, hid⟩ := Prod.mk.inj haddress
    rw [← hid]
    have hlisted : d.stamped now ∈ stored.filter (·.page == e.page) :=
      List.mem_filter.2 ⟨hmem, beq_iff_eq.2 hpage⟩
    exact Or.inr (List.mem_map_of_mem (List.mem_map_of_mem hlisted))

end

end Seed

/-! ## One creation -/

section

variable {keys : Keys} {e : Experiment} {es : List Experiment} {s s' : Store}
  {outages : Nat → Option Outage} {x x' : Nat × Store}

/-- An experiment that has an id and a page is created by one command. -/
theorem create_eq (hid : e.id ≠ "") (hpage : Text.isBlank e.page = false) :
    create keys (some e) = Program.now >>= fun now =>
      StoreProgram.send (.addField (keys.page e.page) e.id (e.stamped now).render) >>= fun added =>
        if added then
          Program.report (.info s!"Created experiment '{e.id}' on page '{e.page}'") >>= fun _ =>
            pure (e.stamped now)
        else
          Program.report (.error s!"Experiment '{e.id}' already exists on page '{e.page}'") >>= fun _ =>
            .fail (.conflict e.id e.page) := by
  have hgiven : create keys (some e) = Program.require .page (Text.isBlank e.page) >>= fun _ =>
      Program.now >>= fun now => idFor e >>= fun id => _ := rfl
  have hidFor : idFor e = pure e.id := if_neg hid
  rw [hgiven, hpage, hidFor]
  rfl

/-- A creation is refused by the store, or it meets a field that is there, or it sets the field. -/
theorem create_meets (hid : e.id ≠ "") (hpage : Text.isBlank e.page = false)
    {r : Except Error Experiment}
    (h : (create keys (some e)).Ends (Command.Meets outages) x r x') :
    (∃ outage, outages x.1 = some outage ∧ r = .error outage.toError ∧ x' = (x.1 + 1, x.2)) ∨
      (outages x.1 = none ∧ x.2.hasField (keys.page e.page) e.id = true ∧
        r = .error (.conflict e.id e.page) ∧ x' = (x.1 + 1, x.2)) ∨
      (outages x.1 = none ∧ x.2.hasField (keys.page e.page) e.id = false ∧ ∃ now,
        r = .ok (e.stamped now) ∧
        x' = (x.1 + 1, x.2.setField (keys.page e.page) e.id (e.stamped now).render)) := by
  rw [create_eq hid hpage] at h
  obtain ⟨now, h⟩ := h.of_now_bind
  rcases h.of_send_bind with hrefused | ⟨hnone, h⟩
  · exact Or.inl hrefused
  cases hthere : x.2.hasField (keys.page e.page) e.id with
  | true =>
    simp only [Command.perform, hthere, Store.addField, if_true, Bool.not_true] at h
    cases h.of_report_bind
    exact Or.inr (Or.inl ⟨hnone, rfl, rfl, rfl⟩)
  | false =>
    simp only [Command.perform, hthere, Store.addField, Bool.not_false] at h
    cases h.of_report_bind
    exact Or.inr (Or.inr ⟨hnone, rfl, now, rfl, rfl⟩)

/-! ## The whole list -/

namespace Seed

/-- Every experiment has an id and a page. -/
def Placed (es : List Experiment) : Prop :=
  ∀ e ∈ es, e.id ≠ "" ∧ Text.isBlank e.page = false

instance (es : List Experiment) : Decidable (Placed es) :=
  inferInstanceAs (Decidable (∀ e ∈ es, e.id ≠ "" ∧ Text.isBlank e.page = false))

theorem forall_none_succ {i n : Nat} (hfirst : outages i = none)
    (h : ∀ k < n, outages (i + 1 + k) = none) : ∀ k < n + 1, outages (i + k) = none := by
  intro k hk
  cases k with
  | zero => exact hfirst
  | succ k =>
    rw [Nat.add_comm k, ← Nat.add_assoc]
    exact h k (Nat.lt_of_succ_lt_succ hk)

/-- What a seeding comes to: the store answers all its commands and all gaps are filled, or it refuses
    the command for one experiment, and then the gaps up to that one are. -/
theorem seed_cases (hes : Placed es) {r : Except Error Nat}
    (h : (seed keys es).Ends (Command.Meets outages) x r x') :
    ((∀ k < es.length, outages (x.1 + k) = none) ∧ r = .ok (lacking keys x.2 es).length ∧
        Fills keys x.2 es x'.2) ∨
      ∃ k outage, k < es.length ∧ (∀ j < k, outages (x.1 + j) = none) ∧
        outages (x.1 + k) = some outage ∧ r = .error outage.toError ∧
        Fills keys x.2 (es.take k) x'.2 := by
  induction es generalizing x r with
  | nil =>
    cases h
    exact Or.inl ⟨fun k hk => absurd hk (Nat.not_lt_zero k), rfl, .nil keys _⟩
  | cons e es ih =>
    obtain ⟨hid, hpage⟩ := hes e List.mem_cons_self
    have hrest : Placed es := fun d hd => hes d (List.mem_cons_of_mem e hd)
    obtain ⟨result, mid, hcreate, h⟩ := h.of_attempt_bind
    rcases create_meets hid hpage hcreate with ⟨outage, houtage, rfl, rfl⟩ |
      ⟨hnone, hthere, rfl, rfl⟩ | ⟨hnone, hthere, now, rfl, rfl⟩
    · -- no outage is taken for a conflict
      have hfail : r = .error outage.toError ∧ x' = (x.1 + 1, x.2) := by
        cases outage <;> (cases h; exact ⟨rfl, rfl⟩)
      obtain ⟨rfl, rfl⟩ := hfail
      exact Or.inr ⟨0, outage, Nat.succ_pos _, fun j hj => absurd hj (Nat.not_lt_zero j), houtage, rfl,
        .nil keys _⟩
    · rcases ih hrest h.of_say_bind with ⟨hall, rfl, hfills⟩ |
        ⟨k, outage, hk, hbefore, houtage, rfl, hfills⟩
      · rw [lacking_cons_of_hasField hthere]
        exact Or.inl ⟨forall_none_succ hnone hall, rfl, hfills.skip hthere⟩
      · rw [Nat.add_assoc, Nat.add_comm 1] at houtage
        exact Or.inr ⟨k + 1, outage, Nat.succ_lt_succ hk, forall_none_succ hnone hbefore, houtage, rfl,
          hfills.skip hthere⟩
    · rw [lacking_cons_of_not_hasField hthere]
      rcases h.of_say_bind.bind_cases with ⟨error, hseed, rfl⟩ | ⟨created, last, hseed, hdone⟩
      · rcases ih hrest hseed with ⟨-, hok, -⟩ | ⟨k, outage, hk, hbefore, houtage, herror, hfills⟩
        · cases hok
        · rw [Nat.add_assoc, Nat.add_comm 1] at houtage
          exact Or.inr ⟨k + 1, outage, Nat.succ_lt_succ hk, forall_none_succ hnone hbefore, houtage,
            herror, hfills.cons hthere⟩
      · cases hdone
        rcases ih hrest hseed with ⟨hall, hok, hfills⟩ | ⟨_, _, -, -, -, herror, -⟩
        · cases hok
          exact Or.inl ⟨forall_none_succ hnone hall, rfl, hfills.cons hthere⟩
        · cases herror

/-- Over a store that answers, all gaps are filled. -/
theorem seed_of_answered (hes : Placed es) (hall : ∀ k < es.length, outages (x.1 + k) = none)
    {r : Except Error Nat} (h : (seed keys es).Ends (Command.Meets outages) x r x') :
    r = .ok (gaps keys x.2 es).card ∧ Fills keys x.2 es x'.2 := by
  rcases seed_cases hes h with ⟨-, hok, hfills⟩ | ⟨k, outage, hk, -, houtage, -, -⟩
  · rw [length_lacking] at hok
    exact ⟨hok, hfills⟩
  · rw [hall k hk] at houtage
    cases houtage

/-- Over a store that refuses a command, the gaps before it are filled. -/
theorem seed_of_refused (hes : Placed es) {k : Nat} {outage : Outage} (hk : k < es.length)
    (hbefore : ∀ j < k, outages (x.1 + j) = none) (houtage : outages (x.1 + k) = some outage)
    {r : Except Error Nat} (h : (seed keys es).Ends (Command.Meets outages) x r x') :
    r = .error outage.toError ∧ Fills keys x.2 (es.take k) x'.2 := by
  rcases seed_cases hes h with ⟨hall, -, -⟩ | ⟨k', outage', -, hbefore', houtage', hr, hfills⟩
  · rw [hall k hk] at houtage
    cases houtage
  · -- the first refused command is the same one
    rcases Nat.lt_trichotomy k k' with hlt | rfl | hlt
    · rw [hbefore' k hlt] at houtage
      cases houtage
    · rw [houtage] at houtage'
      cases houtage'
      exact ⟨hr, hfills⟩
    · rw [hbefore k' hlt] at houtage'
      cases houtage'

/-- Where nothing is lacking, seeding creates nothing. -/
theorem seed_again (hes : Placed es) (hfields : ∀ e ∈ es, x.2.hasField (keys.page e.page) e.id = true)
    (hall : ∀ k < es.length, outages (x.1 + k) = none) {r : Except Error Nat}
    (h : (seed keys es).Ends (Command.Meets outages) x r x') : r = .ok 0 ∧ x'.2 = x.2 := by
  obtain ⟨hok, stored, hstored, happended⟩ := seed_of_answered hes hall h
  rw [← length_lacking, lacking_eq_nil hfields] at hok
  rw [lacking_eq_nil hfields] at hstored
  exact ⟨hok, happended.unchanged (List.forall₂_nil_left_iff.1 hstored)⟩

/-- A seeding asks nothing but to add fields to the hashes of pages. -/
theorem asks_seed {P : Command → Prop} (hP : ∀ page id text, P (.addField (keys.page page) id text))
    (es : List Experiment) : (seed keys es).Asks P := by
  induction es with
  | nil => trivial
  | cons e es ih =>
    refine (asks_create_of keys hP _).attempt.bind fun result => ?_
    cases result with
    | ok stored => exact Program.Asks.bind trivial fun _ => ih.bind fun created => trivial
    | error error =>
      cases error with
      | conflict id page => exact Program.Asks.bind trivial fun _ => ih
      | _ => trivial

end Seed

end

theorem World.Healthy.outage?_eq_none {w : World App} (hw : w.Healthy) :
    w.state.server.outage? = none := by
  rw [Server.outage?, if_pos hw.hasClient, hw.failure]
  rfl

/-- In the application a store that works answers all commands of a seeding. -/
theorem World.Healthy.exists_ends_seed {w : World App} (hw : w.Healthy) (keys : Keys)
    (es : List Experiment) :
    ∃ n, (Seed.seed keys es).Ends (Command.Meets fun _ => none) (0, w.state.server.store)
      (App.runStore (Seed.seed keys es) w).1
      (n, (App.runStore (Seed.seed keys es) w).2.state.server.store) := by
  have hprompt : (Seed.seed keys es).Asks Command.Prompt := Seed.asks_seed (fun _ _ _ _ => rfl) es
  have h := exists_ends_runStore hprompt w 0
  rwa [hw.outage?_eq_none] at h

open Seed

/-- Seeding fills gaps only. Under every schedule of outages it ends. If its commands are answered,
    it returns the number of gaps; the experiments that were lacking are at the ends of their hashes,
    in the order of the list and of several for one gap the first, and everything else is as it was;
    seeding the list again, at any time, changes nothing. If the store fails at some command, the
    error is that failure, and the gaps of the experiments before it are filled. In the application
    a store that works answers all the commands. -/
theorem seeding_fills_gaps {keys : Keys} {es : List Experiment} (hes : Placed es) (s : Store) :
    (∀ outages : Nat → Option Outage,
      (∃ r x', (seed keys es).Ends (Command.Meets outages) (0, s) r x') ∧
      ∀ (r : Except Error Nat) (x' : Nat × Store),
        (seed keys es).Ends (Command.Meets outages) (0, s) r x' →
        ((∀ k < es.length, outages k = none) →
          r = .ok (gaps keys s es).card ∧ Fills keys s es x'.2 ∧
            ∀ (outages' : Nat → Option Outage) (r' : Except Error Nat) (x'' : Nat × Store),
              (∀ k < es.length, outages' k = none) →
              (seed keys es).Ends (Command.Meets outages') (0, x'.2) r' x'' →
              r' = .ok 0 ∧ x''.2 = x'.2) ∧
        ∀ (k : Nat) (outage : Outage), k < es.length → (∀ j < k, outages j = none) →
          outages k = some outage → r = .error outage.toError ∧ Fills keys s (es.take k) x'.2) ∧
    ∀ w : World App, w.Healthy → w.state.server.store = s →
      (App.runStore (seed keys es) w).1 = .ok (gaps keys s es).card ∧
        Fills keys s es (App.runStore (seed keys es) w).2.state.server.store ∧
        ∀ later : World App, later.Healthy →
          later.state.server.store = (App.runStore (seed keys es) w).2.state.server.store →
          (App.runStore (seed keys es) later).1 = .ok 0 ∧
            (App.runStore (seed keys es) later).2.state.server.store = later.state.server.store := by
  refine ⟨fun outages => ⟨Program.exists_ends_meets outages _ _, fun r x' h =>
    ⟨fun hall => ?_, fun k outage hk hbefore houtage => ?_⟩⟩, fun w hw hstore => ?_⟩
  · obtain ⟨hok, hfills⟩ := seed_of_answered hes (by simpa using hall) h
    refine ⟨hok, hfills, fun outages' r' x'' hall' h' => ?_⟩
    exact seed_again (x := (0, x'.2)) hes (fun e he => hfills.hasField he) (by simpa using hall') h'
  · exact seed_of_refused hes hk (by simpa using hbefore) (by simpa using houtage) h
  · subst hstore
    obtain ⟨n, h⟩ := hw.exists_ends_seed keys es
    obtain ⟨hok, hfills⟩ := seed_of_answered hes (fun _ _ => rfl) h
    refine ⟨hok, hfills, fun later hlater hsame => ?_⟩
    obtain ⟨n', h'⟩ := hlater.exists_ends_seed keys es
    refine seed_again hes (fun e he => ?_) (fun _ _ => rfl) h'
    rw [hsame]
    exact hfills.hasField he

/-- A store with a text that is no document in the place of the second experiment. -/
def brokenHeadline : Store :=
  Store.empty.setField (Keys.page ⟨""⟩ "landing") "hero-headline-test" "\x7b"

/-- The application over that store. -/
def brokenHeadlineApp : World App :=
  (App.start Settings.defaults true 0).withServer { Server.fresh true with store := brokenHeadline }

/-- The experiments of the landing page, written down twice, over that store: one gap is filled. With a
    connection that is reset at the second command it is filled as well, and then the seeding fails. -/
theorem seeding_fills_gaps_of_landing : Placed (landing ++ landing) ∧
    (App.runStore (seed ⟨""⟩ (landing ++ landing)) brokenHeadlineApp).1 = .ok 1 ∧
    Fills ⟨""⟩ brokenHeadline (landing ++ landing)
      (App.runStore (seed ⟨""⟩ (landing ++ landing)) brokenHeadlineApp).2.state.server.store ∧
    ∃ r x', (seed ⟨""⟩ (landing ++ landing)).Ends
        (Command.Meets fun k => if k = 1 then some (.failed ⟨.connection, "connection reset"⟩) else none)
        (0, brokenHeadline) r x' ∧
      r = .error (.store ⟨.connection, "connection reset"⟩) ∧
      Fills ⟨""⟩ brokenHeadline (landing.take 1) x'.2 := by
  have hplaced : Placed (landing ++ landing) := by decide
  have hgaps : (gaps ⟨""⟩ brokenHeadline (landing ++ landing)).card = 1 := by decide
  obtain ⟨hscheduled, happ⟩ := @seeding_fills_gaps ⟨""⟩ _ hplaced brokenHeadline
  obtain ⟨hok, hfills, -⟩ := happ brokenHeadlineApp ⟨rfl, rfl⟩ rfl
  obtain ⟨⟨r, x', h⟩, hends⟩ := hscheduled fun k =>
    if k = 1 then some (.failed ⟨.connection, "connection reset"⟩) else none
  obtain ⟨hr, hbefore⟩ := (hends r x' h).2 1 (.failed ⟨.connection, "connection reset"⟩)
    (by decide) (by decide) rfl
  rw [hgaps] at hok
  exact ⟨hplaced, hok, hfills, r, x', h, hr, hbefore⟩

end SplitTest
