import Mathlib
import SplitTest.Proofs.Experiment.Refinement

/-
  Who sets the timestamps of an experiment.
  The calls that were made are kept as a history, the latest of them first, and the store holds what
  they stored (`Ran.holds`). Creating sets both timestamps to what the clock shows. Updating sets
  the second one only: the first one is what the caller handed over, which need not be the moment of
  creation, and then the experiment changes its place on the page. The timestamps are the
  repository's own exactly when every update was handed the moment of creation
  (`timestamps_owned_iff`).
-/

namespace SplitTest

open Entries

/-- An instant that is later is no earlier as a timestamp. -/
theorem Timestamp.instant_utc_mono {t s : Instant} (h : t ≤ s) :
    (Timestamp.utc t).instant ≤ (Timestamp.utc s).instant := by
  have htick : Timestamp.tickOf t ≤ Timestamp.tickOf s :=
    min_le_min_right _ (Int.toNat_le_toNat (Int.add_le_add_right h _))
  exact Int.sub_le_sub_right (Int.sub_le_sub_right (Int.ofNat_le.2 htick) _) _

/-! ## Histories -/

/-- A call, when it was made and what it ended with. -/
structure Record where
  time : Instant
  call : Operation
  outcome : Outcome

/-- Calls that were made, the latest first. -/
abbrev History := List Record

/-- What a call did to the experiment under an id of a page. -/
inductive Deed
  | created (stored : Experiment)
  | updated (given stored : Experiment)
  | removed
  | nothing

/-- What a call did to the experiment under an id of a page. -/
def Record.deed (page id : String) : Record → Deed
  | ⟨_, .create _, .stored (.ok e)⟩ =>
    if e.page = page ∧ e.id = id then .created e else .nothing
  | ⟨_, .update (some given), .stored (.ok e)⟩ =>
    if e.page = page ∧ e.id = id then .updated given e else .nothing
  | ⟨_, .delete i p, .removed (.ok _)⟩ => if p = page ∧ i = id then .removed else .nothing
  | _ => .nothing

namespace History

/-- The experiment that is under an id of a page after some calls. -/
def stored? (page id : String) : History → Option Experiment
  | [] => none
  | record :: past =>
    match record.deed page id with
    | .created e => some e
    | .updated _ e => some e
    | .removed => none
    | .nothing => stored? page id past

/-- What the clock showed at the call that created an experiment, unless it was deleted since. -/
def created? (page id : String) : History → Option Instant
  | [] => none
  | record :: past =>
    match record.deed page id with
    | .created _ => some record.time
    | .removed => none
    | _ => created? page id past

/-- What the clock showed at the last call that created or updated an experiment, unless it was
    deleted since. -/
def written? (page id : String) : History → Option Instant
  | [] => none
  | record :: past =>
    match record.deed page id with
    | .created _ => some record.time
    | .updated _ _ => some record.time
    | .removed => none
    | .nothing => written? page id past

/-- All experiments after some calls. -/
def entries (past : History) : Entries := fun page id => stored? page id past

end History

/-! ## What calls leave in a history -/

/-- What a call stored, if it did, after those that were made before it. -/
structure Record.Sound (past : History) (record : Record) : Prop where
  later : ∀ earlier ∈ past, earlier.time ≤ record.time
  created : ∀ {page id e}, record.deed page id = .created e →
    e.createdAt = .utc record.time ∧ e.updatedAt = .utc record.time
  updated : ∀ {page id given e}, record.deed page id = .updated given e →
    e = { given with updatedAt := .utc record.time }

/-- Every call of a history is sound. -/
def History.Sound : History → Prop
  | [] => True
  | record :: past => record.Sound past ∧ Sound past

section

variable {past : History} {now : Instant} {m : Entries}

theorem sound_of_nothing (hm : m = past.entries) {record : Record}
    (hlater : ∀ earlier ∈ past, earlier.time ≤ record.time)
    (h : ∀ page id, record.deed page id = .nothing) :
    record.Sound past ∧ m = History.entries (record :: past) := by
  refine ⟨⟨hlater, fun hcreated => ?_, fun hupdated => ?_⟩, ?_⟩
  · rw [h] at hcreated
    cases hcreated
  · rw [h] at hupdated
    cases hupdated
  · rw [hm]
    funext page id
    simp only [History.entries, History.stored?, h]

/-- A call that did something under one id of one page only. -/
theorem sound_of_deed (hm : m = past.entries) {record : Record}
    (hlater : ∀ earlier ∈ past, earlier.time ≤ record.time) {page id : String} {deed : Deed}
    (hdeed : ∀ p i, record.deed p i = if page = p ∧ id = i then deed else .nothing)
    (hcreated : ∀ e, deed = .created e →
      e.createdAt = .utc record.time ∧ e.updatedAt = .utc record.time)
    (hupdated : ∀ given e, deed = .updated given e →
      e = { given with updatedAt := .utc record.time })
    {after : Option Experiment} (hafter : History.stored? page id (record :: past) = after) :
    record.Sound past ∧ m.set page id after = History.entries (record :: past) := by
  refine ⟨⟨hlater, fun {p i e} h => ?_, fun {p i given e} h => ?_⟩, ?_⟩
  · rw [hdeed] at h
    split_ifs at h
    exact hcreated e h
  · rw [hdeed] at h
    split_ifs at h
    exact hupdated given e h
  · rw [hm]
    funext p i
    rw [Entries.set]
    split_ifs with hhere
    · rw [hhere.1, hhere.2, ← hafter]
      rfl
    · have hother : record.deed p i = .nothing :=
        (hdeed p i).trans (if_neg fun h => hhere ⟨h.1.symm, h.2.symm⟩)
      simp only [History.entries, History.stored?, hother]

/-- A call that ends as the map says is sound, and the map changes as the history does. -/
theorem sound_of_gives {c c' : Catalogue} {op : Operation} {outcome : Outcome}
    (h : Gives now c op outcome c') (hlater : ∀ earlier ∈ past, earlier.time ≤ now)
    (hentries : c.entries = past.entries) :
    Record.Sound past ⟨now, op, outcome⟩ ∧
      c'.entries = History.entries (⟨now, op, outcome⟩ :: past) := by
  cases h with
  | create experiment =>
    cases experiment with
    | none => exact sound_of_nothing hentries hlater fun _ _ => rfl
    | some e =>
      simp only [Catalogue.create]
      split_ifs with hpage
      · exact sound_of_nothing hentries hlater fun _ _ => rfl
      · have htaking : (c.taking e).entries = past.entries := (entries_taking c e).trans hentries
        split
        · exact sound_of_nothing htaking hlater fun _ _ => rfl
        · have hdeed : ∀ p i, Record.deed p i
              ⟨now, .create (some e), .stored (.ok (c.stored now e))⟩ =
                if e.page = p ∧ c.idFor e = i then .created (c.stored now e) else .nothing :=
            fun _ _ => rfl
          refine sound_of_deed htaking hlater hdeed ?_ (fun _ _ h => by cases h) ?_
          · rintro _ ⟨⟩
            exact ⟨rfl, rfl⟩
          · simp [History.stored?, hdeed]
  | update experiment =>
    cases experiment with
    | none => exact sound_of_nothing hentries hlater fun _ _ => rfl
    | some e =>
      simp only [Catalogue.update]
      split_ifs with hid hpage
      · exact sound_of_nothing hentries hlater fun _ _ => rfl
      · exact sound_of_nothing hentries hlater fun _ _ => rfl
      · split
        · exact sound_of_nothing hentries hlater fun _ _ => rfl
        · have hdeed : ∀ p i, Record.deed p i
              ⟨now, .update (some e), .stored (.ok { e with updatedAt := .utc now })⟩ =
                if e.page = p ∧ e.id = i then .updated e { e with updatedAt := .utc now }
                else .nothing :=
            fun _ _ => rfl
          refine sound_of_deed hentries hlater hdeed (fun _ h => by cases h) ?_ ?_
          · rintro _ _ ⟨⟩
            rfl
          · simp [History.stored?, hdeed]
  | delete id page =>
    simp only [Catalogue.delete]
    split_ifs with hid hpage
    · exact sound_of_nothing hentries hlater fun _ _ => rfl
    · exact sound_of_nothing hentries hlater fun _ _ => rfl
    · have hdeed : ∀ p i, Record.deed p i
          ⟨now, .delete id page, .removed (.ok (c.entries page id).isSome)⟩ =
            if page = p ∧ id = i then .removed else .nothing :=
        fun _ _ => rfl
      exact sound_of_deed hentries hlater hdeed (fun _ h => by cases h) (fun _ _ h => by cases h)
        (by simp [History.stored?, hdeed])
  | get | activeBlank | active => exact sound_of_nothing hentries hlater fun _ _ => rfl

end

/-! ## Runs -/

/-- The history of calls that may change the store, one after the other, and the world after them.
    The clock shows any time at each of them, but never goes back. -/
inductive Ran (keys : Keys) (start : World App) : History → World App → Prop
  | start : Ran keys start [] start
  | call {past : History} {w : World App} (h : Ran keys start past w) {now : Instant}
      (hclock : ∀ record ∈ past, record.time ≤ now) {op : Operation} (hop : op.Writes) :
      Ran keys start (⟨now, op, (op.run keys { w with clock := now }).1⟩ :: past)
        (op.run keys { w with clock := now }).2

/-- A history is sound, and the store models what it leaves. -/
theorem Ran.sound {keys : Keys} {start w : World App} {past : History}
    (h : Ran keys start past w) (hstart : start.Healthy)
    (hempty : start.state.server.store = .empty) :
    past.Sound ∧ ∃ v c, w.Shows v ∧ Models keys v c ∧ c.entries = past.entries := by
  induction h with
  | start =>
    exact ⟨trivial, ⟨start.clock, start.issued, .empty⟩, ⟨start.issued, Entries.empty⟩,
      ⟨hstart, rfl, rfl, hempty⟩, ⟨holds_empty keys, rfl⟩, rfl⟩
  | @call past w h now hclock op hop ih =>
    obtain ⟨hsound, v, c, hshows, hmodels, hentries⟩ := ih
    have hmodels' : Models keys { v with clock := now } c := ⟨hmodels.holds, hmodels.issued⟩
    have hshows' : World.Shows { w with clock := now } { v with clock := now } :=
      ⟨⟨hshows.hasClient, hshows.failure⟩, rfl, hshows.issued, hshows.store⟩
    obtain ⟨v', c', hgives, hmodels', hshows'⟩ := write_refines hmodels' hop hshows'
    obtain ⟨hrecord, hentries'⟩ := sound_of_gives hgives hclock hentries
    exact ⟨⟨hrecord, hsound⟩, v', c', hshows', hmodels', hentries'⟩

/-- The store holds what the calls stored. -/
theorem Ran.holds {keys : Keys} {start w : World App} {past : History}
    (h : Ran keys start past w) (hstart : start.Healthy)
    (hempty : start.state.server.store = .empty) :
    Holds keys w.state.server.store past.entries := by
  obtain ⟨-, v, c, hshows, hmodels, hentries⟩ := h.sound hstart hempty
  rw [hshows.store, ← hentries]
  exact hmodels.holds

/-! ## Timestamps -/

section

variable {page id : String} {past : History} {e : Experiment}

theorem here_of_created {record : Record} (h : record.deed page id = .created e) :
    e.page = page ∧ e.id = id := by
  unfold Record.deed at h
  split at h
  · split_ifs at h with hhere
    cases h
    exact hhere
  · split_ifs at h
  · split_ifs at h
  · cases h

theorem here_of_updated {record : Record} {given : Experiment}
    (h : record.deed page id = .updated given e) : e.page = page ∧ e.id = id := by
  unfold Record.deed at h
  split at h
  · split_ifs at h
  · split_ifs at h with hhere
    cases h
    exact hhere
  · split_ifs at h
  · cases h

/-- A call updates one experiment only. -/
theorem deed_of_ne {record : Record} {given : Experiment}
    (h : record.deed page id = .updated given e) {other : String} (hother : other ≠ id) :
    record.deed page other = .nothing := by
  obtain ⟨rfl, rfl⟩ := here_of_updated h
  unfold Record.deed at h ⊢
  split at h
  · split_ifs at h
  · split_ifs at h with hhere
    cases h
    exact if_neg fun hthere => hother hthere.2.symm
  · split_ifs at h
  · cases h

/-- An experiment is under its id on its page. -/
theorem here_of_stored? (h : past.stored? page id = some e) : e.page = page ∧ e.id = id := by
  induction past with
  | nil => cases h
  | cons record past ih =>
    rw [History.stored?] at h
    split at h
    · next hdeed =>
      cases h
      exact here_of_created hdeed
    · next hdeed =>
      cases h
      exact here_of_updated hdeed
    · cases h
    · exact ih h

/-- The moment of creation is that of a call. -/
theorem exists_of_created? {t : Instant} (h : past.created? page id = some t) :
    ∃ record ∈ past, record.time = t := by
  induction past with
  | nil => cases h
  | cons record past ih =>
    rw [History.created?] at h
    split at h
    · cases h
      exact ⟨record, List.mem_cons_self, rfl⟩
    · cases h
    · obtain ⟨earlier, hearlier, ht⟩ := ih h
      exact ⟨earlier, List.mem_cons_of_mem record hearlier, ht⟩

/-- An experiment was last updated at the last call that stored it. -/
theorem exists_written (hsound : past.Sound) (h : past.stored? page id = some e) :
    ∃ t, past.written? page id = some t ∧ e.updatedAt = .utc t := by
  induction past with
  | nil => cases h
  | cons record past ih =>
    rw [History.stored?] at h
    simp only [History.written?]
    cases hdeed : record.deed page id with
    | created d =>
      rw [hdeed] at h
      cases h
      exact ⟨record.time, rfl, (hsound.1.created hdeed).2⟩
    | updated given d =>
      rw [hdeed] at h
      cases h
      refine ⟨record.time, rfl, ?_⟩
      rw [hsound.1.updated hdeed]
    | removed =>
      rw [hdeed] at h
      cases h
    | nothing =>
      rw [hdeed] at h
      exact ih hsound.2 h

/-- Nothing is stored before it was created. -/
theorem created?_le_written? (hsound : past.Sound) {t s : Instant}
    (ht : past.created? page id = some t) (hs : past.written? page id = some s) : t ≤ s := by
  induction past with
  | nil => cases ht
  | cons record past ih =>
    simp only [History.created?, History.written?] at ht hs
    cases hdeed : record.deed page id with
    | created d =>
      rw [hdeed] at ht hs
      cases ht
      cases hs
      exact le_rfl
    | updated given d =>
      rw [hdeed] at ht hs
      cases hs
      obtain ⟨earlier, hearlier, rfl⟩ := exists_of_created? ht
      exact hsound.1.later earlier hearlier
    | removed =>
      rw [hdeed] at ht
      cases ht
    | nothing =>
      rw [hdeed] at ht hs
      exact ih hsound.2 ht hs

end

/-! ## Whose timestamps they are -/

/-- Every update of an experiment that succeeded was handed the moment of its creation. -/
def KeepsCreation (page id : String) : History → Prop
  | [] => True
  | record :: past =>
    (∀ given e, record.deed page id = .updated given e →
      ∃ t, History.created? page id past = some t ∧ given.createdAt = .utc t) ∧
      KeepsCreation page id past

/-- The timestamps of an experiment are what the clock showed when it was created and when it was
    last stored, and its last update left it in its place among the others of its page. -/
structure Owned (page id : String) (past : History) : Prop where
  created : ∀ e ∈ past.stored? page id, ∃ t, past.created? page id = some t ∧ e.createdAt = .utc t
  updated : ∀ e ∈ past.stored? page id, ∃ t, past.written? page id = some t ∧ e.updatedAt = .utc t
  ordered : ∀ e ∈ past.stored? page id, e.createdAt.instant ≤ e.updatedAt.instant
  placed : ∀ {record earlier given e}, past = record :: earlier →
    record.deed page id = .updated given e → ∀ old ∈ History.stored? page id earlier,
      ∀ other ≠ id, ∀ d ∈ past.stored? page other, d ∈ History.stored? page other earlier ∧
        (CreatedBefore old d ↔ CreatedBefore e d) ∧ (CreatedBefore d old ↔ CreatedBefore d e)

section

variable {page id : String} {past : History} {e : Experiment}

/-- Updates that keep the moment of creation keep it over all of a history. -/
theorem exists_created (hsound : past.Sound) (hkeeps : KeepsCreation page id past)
    (h : past.stored? page id = some e) :
    ∃ t, past.created? page id = some t ∧ e.createdAt = .utc t := by
  induction past with
  | nil => cases h
  | cons record past ih =>
    rw [History.stored?] at h
    simp only [History.created?]
    cases hdeed : record.deed page id with
    | created d =>
      rw [hdeed] at h
      cases h
      exact ⟨record.time, rfl, (hsound.1.created hdeed).1⟩
    | updated given d =>
      rw [hdeed] at h
      cases h
      obtain ⟨t, ht, hgiven⟩ := hkeeps.1 given e hdeed
      refine ⟨t, ht, ?_⟩
      rw [hsound.1.updated hdeed]
      exact hgiven
    | removed =>
      rw [hdeed] at h
      cases h
    | nothing =>
      rw [hdeed] at h
      exact ih hsound.2 hkeeps.2 h

theorem createdBefore_congr {a b : Experiment} (hcreated : a.createdAt = b.createdAt)
    (hid : a.id = b.id) (d : Experiment) :
    (CreatedBefore a d ↔ CreatedBefore b d) ∧ (CreatedBefore d a ↔ CreatedBefore d b) := by
  unfold CreatedBefore
  rw [hcreated, hid]
  exact ⟨Iff.rfl, Iff.rfl⟩

theorem owned_of_keeps (hsound : past.Sound) (hkeeps : KeepsCreation page id past) :
    Owned page id past := by
  refine ⟨fun e he => exists_created hsound hkeeps he, fun e he => exists_written hsound he,
    fun e he => ?_, ?_⟩
  · obtain ⟨t, ht, hcreated⟩ := exists_created hsound hkeeps he
    obtain ⟨s, hs, hupdated⟩ := exists_written hsound he
    rw [hcreated, hupdated]
    exact Timestamp.instant_utc_mono (created?_le_written? hsound ht hs)
  · rintro record earlier given e rfl hdeed old hold other hother d hd
    obtain ⟨t, ht, hcreated⟩ := exists_created hsound.2 hkeeps.2 hold
    obtain ⟨s, hs, hgiven⟩ := hkeeps.1 given e hdeed
    rw [ht] at hs
    cases hs
    have hsame : old.createdAt = e.createdAt := by
      rw [hcreated, hsound.1.updated hdeed]
      exact hgiven.symm
    have hid : old.id = e.id := (here_of_stored? hold).2.trans (here_of_updated hdeed).2.symm
    refine ⟨?_, createdBefore_congr hsame hid d⟩
    rw [History.stored?, deed_of_ne hdeed hother] at hd
    exact hd

/-- What a history passes on to what came before held at every moment of it. -/
theorem of_suffix {P : History → Prop} (hP : ∀ record past, P (record :: past) → P past)
    {moment : History} (h : P past) (hmoment : moment <:+ past) : P moment := by
  induction past with
  | nil => rwa [List.suffix_nil.1 hmoment]
  | cons record past ih =>
    rcases List.suffix_cons_iff.1 hmoment with rfl | hmoment
    · exact h
    · exact ih (hP record past h) hmoment

theorem keeps_of_owned (hsound : past.Sound)
    (howned : ∀ moment, moment <:+ past → Owned page id moment) : KeepsCreation page id past := by
  induction past with
  | nil => trivial
  | cons record past ih =>
    refine ⟨fun given e hdeed => ?_, ih hsound.2 fun moment hmoment =>
      howned moment (hmoment.trans (List.suffix_cons record past))⟩
    have hentry : History.stored? page id (record :: past) = some e := by
      simp only [History.stored?, hdeed]
    obtain ⟨t, ht, hcreated⟩ := (howned _ List.suffix_rfl).created e hentry
    simp only [History.created?, hdeed] at ht
    refine ⟨t, ht, ?_⟩
    rw [← hcreated, hsound.1.updated hdeed]

end

/-- Whatever calls were made on an empty store that works: it holds what they stored, and every
    experiment was last updated when it was last stored. It was created when its timestamp says so,
    and no update moved it on its page, at every moment of the run, exactly when every update of it
    was handed the moment of its creation. -/
theorem timestamps_owned_iff {keys : Keys} {start w : World App} {past : History}
    (hstart : start.Healthy) (hempty : start.state.server.store = .empty)
    (hran : Ran keys start past w) :
    Holds keys w.state.server.store past.entries ∧ ∀ page id,
      (∀ e ∈ past.stored? page id, ∃ t, past.written? page id = some t ∧ e.updatedAt = .utc t) ∧
      ((∀ moment, moment <:+ past → Owned page id moment) ↔ KeepsCreation page id past) := by
  have hsound := (hran.sound hstart hempty).1
  refine ⟨hran.holds hstart hempty, fun page id => ⟨fun e he => exists_written hsound he, ?_⟩⟩
  refine ⟨keeps_of_owned hsound, fun hkeeps moment hmoment => ?_⟩
  exact owned_of_keeps (of_suffix (fun _ _ h => h.2) hsound hmoment)
    (of_suffix (fun _ _ h => h.2) hkeeps hmoment)

/-! ## Two runs -/

/-- An experiment that has little more than an id, read at some time. -/
def rival (now : Instant) : Experiment :=
  ⟨"rival", "", "landing", true, [], .utc now, .utc now⟩

theorem writes_hero (now : Instant) :
    Operation.Writes (.create (some (hero now))) ∧ Operation.Writes (.update (some (hero now))) := by
  have haccepted : ∀ e ∈ some (hero now), e.Accepted := by
    rintro _ ⟨⟩
    exact ⟨.utc now, heroText, ofText_heroText now⟩
  exact ⟨haccepted, haccepted⟩

theorem writes_rival (now : Instant) : Operation.Writes (.create (some (rival now))) := by
  rintro _ ⟨⟩
  exact ⟨.utc now, "\x7b\"id\":\"rival\",\"page\":\"landing\"\x7d", rfl⟩

/-- An experiment is created, and updated with the moment of its creation. -/
def faithful : History :=
  [⟨5, .update (some (hero 0)), .stored (.ok { hero 0 with updatedAt := .utc 5 })⟩,
   ⟨0, .create (some (hero 7)), .stored (.ok (hero 0))⟩]

/-- Two experiments are created, and the first is updated without the moment of its creation. -/
def careless : History :=
  [⟨9, .update (some (hero 9)), .stored (.ok (hero 9))⟩,
   ⟨5, .create (some (rival 5)), .stored (.ok (rival 5))⟩,
   ⟨0, .create (some (hero 0)), .stored (.ok (hero 0))⟩]

theorem exists_ran_faithful : ∃ w, Ran ⟨""⟩ (App.start Settings.defaults true 0) faithful w := by
  have hcreate : Ran ⟨""⟩ (App.start Settings.defaults true 0)
      [⟨0, .create (some (hero 7)), .stored (.ok (hero 0))⟩] _ :=
    .call .start (by simp) (writes_hero 7).1
  exact ⟨_, .call hcreate (by simp) (writes_hero 0).2⟩

theorem exists_ran_careless : ∃ w, Ran ⟨""⟩ (App.start Settings.defaults true 0) careless w := by
  have hhero : Ran ⟨""⟩ (App.start Settings.defaults true 0)
      [⟨0, .create (some (hero 0)), .stored (.ok (hero 0))⟩] _ :=
    .call .start (by simp) (writes_hero 0).1
  have hrival : Ran ⟨""⟩ (App.start Settings.defaults true 0)
      [⟨5, .create (some (rival 5)), .stored (.ok (rival 5))⟩,
       ⟨0, .create (some (hero 0)), .stored (.ok (hero 0))⟩] _ :=
    .call hhero (by simp) (writes_rival 5)
  exact ⟨_, .call hrival (by simp) (writes_hero 9).2⟩

/-- The timestamps of the first are the repository's own. -/
theorem timestamps_owned_iff_hero :
    ∃ w, (App.start Settings.defaults true 0).Healthy ∧
      (App.start Settings.defaults true 0).state.server.store = .empty ∧
      Ran ⟨""⟩ (App.start Settings.defaults true 0) faithful w ∧
      ∀ moment, moment <:+ faithful → Owned "landing" "hero" moment := by
  obtain ⟨w, hran⟩ := exists_ran_faithful
  have hkeeps : KeepsCreation "landing" "hero" faithful := by
    refine ⟨fun given e hdeed => ?_, fun given e hdeed => ?_, trivial⟩
    · cases hdeed
      exact ⟨0, rfl, rfl⟩
    · cases hdeed
  have howned := ((timestamps_owned_iff ⟨rfl, rfl⟩ rfl hran).2 "landing" "hero").2.2 hkeeps
  exact ⟨w, ⟨rfl, rfl⟩, rfl, hran, howned⟩

/-- An update can change the moment of creation, and the order of a page. -/
theorem not_forall_timestamps_owned :
    ¬∀ (keys : Keys) (start w : World App) (past : History), start.Healthy →
      start.state.server.store = .empty → Ran keys start past w →
        ∀ page id, Owned page id past := by
  intro h
  obtain ⟨w, hran⟩ := exists_ran_careless
  have howned := h _ _ w careless ⟨rfl, rfl⟩ rfl hran "landing" "hero"
  obtain ⟨-, horder, -⟩ := howned.placed rfl rfl (hero 0) rfl "rival" (by decide) (rival 5) rfl
  have hbefore : CreatedBefore (hero 0) (rival 5) := Or.inl (by decide)
  rcases horder.1 hbefore with hlt | ⟨heq, -⟩
  · exact absurd hlt (by decide)
  · exact absurd heq (by decide)

end SplitTest
