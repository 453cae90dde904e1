import Mathlib
import SplitTest.Proofs.Experiment.Readings
import SplitTest.Proofs.Store.Clocks
import SplitTest.Proofs.Store.Healthy
import SplitTest.Proofs.Time.Zones

/-
  The listing of a page, whatever its hash contains.
  Every text of the hash that is not empty must be the document of an experiment, or the page is
  refused. If all are, the listing consists of the running experiments of the page, each as often as
  it is there, by the instant of creation and then by id, and it leaves experiments that agree in
  both as they are in the hash (`IsListing`). A document that names no moment of its creation has
  that of its reading, and each is read at a moment of its own. So the order of the hash plays a
  part where two listed experiments agree in both, and where one of them names no moment
  (`not_forall_listed_alike`), but nowhere else (`active_lists_hash`).
-/

namespace SplitTest

open App Entries Experiment Experiments

/-! ## Documents -/

/-- The moment of creation of an experiment that was read: the one that its document names, or that
    of the reading if it names none. -/
def CreatedAs (now : Timestamp) (text : String) (e : Experiment) : Prop :=
  ∃ fields, Json.parse text.toList = some (.object fields) ∧
    match createdName.find? fields with
    | some j => Timestamp.Names j e.createdAt
    | none => now = e.createdAt

theorem createdAs_of_ofTextAt {created updated : Timestamp} {text : String} {e : Experiment}
    (h : ofTextAt created updated text = .value e) : CreatedAs created text e := by
  obtain ⟨fields, hparse, hread⟩ := ofTextAt_eq_value_iff.1 h
  obtain ⟨-, -, -, -, -, hcreated, -⟩ := readFields_eq_value.1 hread
  have hfound := Reading.optional_eq_value_iff.1 hcreated
  refine ⟨fields, hparse, ?_⟩
  cases hfind : createdName.find? fields with
  | none =>
    rw [hfind] at hfound
    exact hfound
  | some j =>
    rw [hfind] at hfound
    exact Timestamp.names_of_timestamp hfound

/-- What a text of a hash stands for, whatever the clock shows at its reading. -/
def FoundAs (text : String) (e : Experiment) : Prop :=
  ∃ created updated : Instant, ofTextAt (.utc created) (.utc updated) text = .value e ∧
    CreatedAs (.utc created) text e

theorem foundAs_iff {text : String} {e : Experiment} : FoundAs text e ↔ ReadsAs text e := by
  constructor
  · rintro ⟨created, updated, hread, -⟩
    exact ⟨created, updated, hread⟩
  · rintro ⟨created, updated, hread⟩
    exact ⟨created, updated, hread, createdAs_of_ofTextAt hread⟩

/-- A text that says something, but not an experiment, whatever the clock shows at its reading. -/
def Unreadable (text : String) : Prop :=
  text ≠ "" ∧ ∀ (created updated : Instant) e,
    ofTextAt (.utc created) (.utc updated) text ≠ .value e

theorem unreadable_iff {text : String} : Unreadable text ↔ text ≠ "" ∧ NoDocument text := by
  refine and_congr_right fun _ => ⟨fun h e hparts => ?_, fun h created updated e hread => ?_⟩
  · obtain ⟨created, updated, hread⟩ := hparts
    exact h created updated e hread
  · exact h e ⟨created, updated, hread⟩

theorem mem_documents {fields : Table String} {text : String} :
    text ∈ documents fields ↔ ∃ f ∈ fields, f.2 = text ∧ text ≠ "" := by
  simp only [documents, List.mem_filter, List.mem_map, bne_iff_ne]
  constructor
  · rintro ⟨⟨f, hf, htext⟩, hne⟩
    exact ⟨f, hf, htext, hne⟩
  · rintro ⟨f, hf, htext, hne⟩
    exact ⟨⟨f, hf, htext⟩, hne⟩

theorem documents_perm {fields fields' : Table String} (h : fields'.Perm fields) :
    (documents fields').Perm (documents fields) :=
  (h.map Prod.snd).filter _

/-- One of the documents of a hash cannot be read. -/
theorem exists_unreadable_iff {fields : Table String} :
    (∃ f ∈ fields, Unreadable f.2) ↔ ∃ text ∈ documents fields, NoDocument text := by
  constructor
  · rintro ⟨f, hf, hunreadable⟩
    obtain ⟨hne, hnone⟩ := unreadable_iff.1 hunreadable
    exact ⟨f.2, mem_documents.2 ⟨f, hf, rfl, hne⟩, hnone⟩
  · rintro ⟨text, htext, hnone⟩
    obtain ⟨f, hf, rfl, hne⟩ := mem_documents.1 htext
    exact ⟨f, hf, unreadable_iff.2 ⟨hne, hnone⟩⟩

/-! ## Sorting -/

/-- What decides the place of an experiment in a listing. -/
def placeOf (e : Experiment) : Instant × String := (e.createdAt.instant, e.id)

/-- The running experiments of a page among all that were read, in their order. -/
structure IsListing (page : String) (all listed : List Experiment) : Prop where
  /-- Each of them, as often as it was read. -/
  perm : listed.Perm (all.filter fun e => decide (e.isActive = true ∧ e.page = page))
  /-- None of them before one that was created before it, or then and with a smaller id. -/
  ordered : listed.Pairwise fun a b => ¬CreatedBefore b a
  /-- Those that agree in both are left as they were. -/
  stable : ∀ place, listed.filter (fun e => decide (placeOf e = place)) =
    all.filter fun e => decide ((e.isActive = true ∧ e.page = page) ∧ placeOf e = place)

theorem runsOn_eq_decide (page : String) :
    runsOn page = fun e => decide (e.isActive = true ∧ e.page = page) := by
  funext e
  rw [Bool.eq_iff_iff, runsOn, Bool.and_eq_true, beq_iff_eq, decide_eq_true_iff]

theorem not_createdBefore_iff (a b : Experiment) :
    ¬CreatedBefore b a ↔ listedBefore a b = true := by
  rw [listedBefore_iff, CreatedBefore, not_or, not_and, not_lt, le_iff_lt_or_eq]
  constructor
  · rintro ⟨hlt | heq, hid⟩
    · exact Or.inl hlt
    · exact Or.inr ⟨heq, not_lt.1 (hid heq.symm)⟩
  · rintro (hlt | ⟨heq, hid⟩)
    · exact ⟨Or.inl hlt, fun heq => absurd heq hlt.ne'⟩
    · exact ⟨Or.inr heq, fun _ => not_lt.2 hid⟩

/-- Sorting leaves items as they are that are in order whichever way round they stand. -/
theorem filter_mergeSort {α : Type} {le : α → α → Bool}
    (trans : ∀ a b c, le a b = true → le b c = true → le a c = true)
    (total : ∀ a b, (le a b || le b a) = true) {p : α → Bool}
    (hp : ∀ a b, p a = true → p b = true → le a b = true) (as : List α) :
    (as.mergeSort le).filter p = as.filter p := by
  have hkept : ∀ a ∈ as.filter p, p a = true := fun a ha => (List.mem_filter.1 ha).2
  have hsorted : (as.filter p).Pairwise fun a b => le a b = true :=
    List.pairwise_of_forall_mem_list fun a ha b hb => hp a b (hkept a ha) (hkept b hb)
  have hsub : (as.filter p).Sublist ((as.mergeSort le).filter p) := by
    rw [← List.filter_eq_self.2 hkept]
    exact (List.sublist_mergeSort trans total hsorted List.filter_sublist).filter p
  exact (hsub.eq_of_length ((List.mergeSort_perm as le).filter p).symm.length_eq).symm

/-- The listing of the repository is one. -/
theorem isListing_listing (page : String) (all : List Experiment) :
    IsListing page all (listing page all) := by
  refine ⟨?_, ?_, fun place => ?_⟩
  · rw [← runsOn_eq_decide]
    exact List.mergeSort_perm _ _
  · refine (List.pairwise_mergeSort listedBefore_trans listedBefore_total _).imp ?_
    exact fun hab => (not_createdBefore_iff _ _).2 hab
  · have hsame : ∀ a b, decide (placeOf a = place) = true → decide (placeOf b = place) = true →
        listedBefore a b = true := by
      intro a b ha hb
      have hab : placeOf a = placeOf b := (of_decide_eq_true ha).trans (of_decide_eq_true hb).symm
      rw [listedBefore_iff]
      exact Or.inr ⟨congrArg Prod.fst hab, (congrArg Prod.snd hab).le⟩
    rw [listing, filter_mergeSort listedBefore_trans listedBefore_total hsame, runsOn_eq_decide,
      List.filter_filter]
    refine List.filter_congr fun e _ => ?_
    rw [Bool.and_comm, Bool.decide_and (_ ∧ _)]

/-- There is one way to put experiments in order that do not agree in their places. -/
theorem eq_of_ordered {as bs : List Experiment} (hperm : as.Perm bs)
    (ha : as.Pairwise fun a b => ¬CreatedBefore b a)
    (hb : bs.Pairwise fun a b => ¬CreatedBefore b a) (hplaces : (as.map placeOf).Nodup) :
    as = bs := by
  refine hperm.eq_of_pairwise (fun a b hmem hmem' hab hba => ?_) ha hb
  refine List.inj_on_of_nodup_map hplaces hmem (hperm.mem_iff.2 hmem') ?_
  rw [not_createdBefore_iff, listedBefore_iff] at hab hba
  rcases hab with hlt | ⟨heq, hid⟩
  · rcases hba with hlt' | ⟨heq', -⟩
    · exact absurd hlt' hlt.asymm
    · exact absurd heq' hlt.ne'
  · rcases hba with hlt' | ⟨-, hid'⟩
    · exact absurd heq hlt'.ne'
    · exact Prod.ext heq (le_antisymm hid hid')

/-! ## Two readings -/

/-- Every document of a hash that is listed on a page satisfies `P`. -/
def EachListed (page : String) (fields : Table String) (P : String → Prop) : Prop :=
  ∀ text ∈ documents fields, ∀ e, ReadsAs text e → e.isActive = true → e.page = page → P text

theorem EachListed.imp {page : String} {fields : Table String} {P Q : String → Prop}
    (hP : EachListed page fields P) (h : ∀ text, P text → Q text) : EachListed page fields Q :=
  fun text htext e he hactive honpage => h text (hP text htext e he hactive honpage)

theorem EachListed.of_perm {page : String} {fields fields' : Table String} {P : String → Prop}
    (hP : EachListed page fields P) (h : fields'.Perm fields) : EachListed page fields' P :=
  fun text htext => hP text ((documents_perm h).mem_iff.1 htext)

/-- Two experiments that differ in the moment of their last update only. -/
def SameButUpdate (e d : Experiment) : Prop := d = { e with updatedAt := d.updatedAt }

theorem sameButUpdate_of_twice {text : String} {e d : Experiment} (h : ReadTwice text e d)
    (hdated : Dated text) : SameButUpdate e d := by
  obtain ⟨id, name, epage, isActive, variants, createdAt, updatedAt⟩ := e
  obtain ⟨id', name', page', isActive', variants', createdAt', updatedAt'⟩ := d
  obtain ⟨⟨⟨⟩, ⟨⟩, ⟨⟩, ⟨⟩, ⟨⟩⟩, hcreated, -⟩ := h
  cases hcreated hdated
  rfl

/-- What was read, twice, of a listed document. -/
structure ListedTwice (page : String) (texts : List String) (text : String)
    (e d : Experiment) : Prop where
  mem : text ∈ texts
  read : ReadsAs text e
  runs : runsOn page e = true
  twice : ReadTwice text e d

theorem ListedTwice.holds {page : String} {fields : Table String} {P : String → Prop}
    (hP : EachListed page fields P) {text : String} {e d : Experiment}
    (h : ListedTwice page (documents fields) text e d) : P text := by
  have hruns := h.runs
  rw [runsOn, Bool.and_eq_true, beq_iff_eq] at hruns
  exact hP text h.mem e h.read hruns.1 hruns.2

/-- Two readings of the same documents, one by one. -/
theorem forall₂_twice {texts : List String} {all all' : List Experiment}
    (h : List.Forall₂ ReadsAs texts all) (h' : List.Forall₂ ReadsAs texts all') :
    List.Forall₂ (fun e d => ∃ text ∈ texts, ReadsAs text e ∧ ReadTwice text e d) all all' := by
  induction h generalizing all' with
  | nil =>
    cases h'
    exact .nil
  | cons he _ ih =>
    cases h' with
    | cons hd hrest =>
      refine .cons ⟨_, List.mem_cons_self, he, he.twice hd⟩ ((ih hrest).imp ?_)
      rintro e d ⟨text, htext, hparts⟩
      exact ⟨text, List.mem_cons_of_mem _ htext, hparts⟩

section

variable {page : String} {fields : Table String} {all all' : List Experiment}

/-- Where every listed document names the moment of its creation, two readings of one hash are
    listed in the same order. -/
theorem forall₂_listing (hdated : EachListed page fields Dated)
    (h : List.Forall₂ ReadsAs (documents fields) all)
    (h' : List.Forall₂ ReadsAs (documents fields) all') :
    List.Forall₂ (fun e d => ∃ text, ListedTwice page (documents fields) text e d)
      (listing page all) (listing page all') := by
  refine @forall₂_mergeSort _ _ _ _ _ listedBefore listedBefore ?_ ?_
  · refine (forall₂_filter (forall₂_twice h h') ?_).imp ?_
    · rintro e d ⟨_, -, -, htwice⟩
      exact runsOn_congr page htwice.toSameButTimes
    · rintro e d ⟨⟨text, htext, hread, htwice⟩, hruns⟩
      exact ⟨text, htext, hread, hruns, htwice⟩
  · rintro a b c d ⟨s, hac⟩ ⟨t, hbd⟩
    rw [listedBefore, listedBefore, hac.twice.created (hac.holds hdated),
      hbd.twice.created (hbd.holds hdated), hac.twice.id, hbd.twice.id]

/-- So is a hash with the same fields in another order, unless two of the listed experiments agree
    in their places. -/
theorem exists_listing_of_perm (hdated : EachListed page fields Dated)
    (h : List.Forall₂ ReadsAs (documents fields) all)
    (hplaces : ((listing page all).map placeOf).Nodup) {fields' : Table String}
    (hperm : fields'.Perm fields) (h' : List.Forall₂ ReadsAs (documents fields') all') :
    List.Forall₂ (fun e d => ∃ text, ListedTwice page (documents fields') text e d)
      (listing page all) (listing page all') := by
  -- what was read first, in the order of the other hash
  obtain ⟨moved, hmoved, hmovedPerm⟩ := List.perm_comp_forall₂ (documents_perm hperm) h
  have horiginal := isListing_listing page all
  have hother := isListing_listing page moved
  have heq : listing page all = listing page moved := by
    refine eq_of_ordered ?_ horiginal.ordered hother.ordered hplaces
    exact horiginal.perm.trans ((hmovedPerm.symm.filter _).trans hother.perm.symm)
  rw [heq]
  exact forall₂_listing (hdated.of_perm hperm) hmoved h'

end

/-! ## The call -/

section

variable {keys : Keys} {w : World App} {page : String}

/-- On a healthy store the call ends with a listing of the hash. -/
theorem listed_of_canEnd (hw : w.Healthy) (hpage : Text.isBlank page = false)
    {r : Except Error (List Experiment)} (h : CanEnd (active keys page none) w r) :
    Listed page (.ok (w.state.server.store.hash (keys.page page))) r := by
  obtain ⟨x', h⟩ := h
  obtain ⟨answer, ⟨rfl, -⟩, hlisted⟩ := active_cases hpage h
  rwa [desk, Server.send, if_pos hw.hasClient, Server.answer_of_healthy hw.failure rfl] at hlisted

theorem canEnd_active (hw : w.Healthy) (hpage : Text.isBlank page = false)
    {all : List Experiment}
    (h : List.Forall₂ ReadsAs (documents (w.state.server.store.hash (keys.page page))) all) :
    CanEnd (active keys page none) w (.ok (listing page all)) := by
  refine ⟨_, ends_active hpage ⟨?_, rfl⟩ h⟩
  rw [desk, Server.send, if_pos hw.hasClient, Server.answer_of_healthy hw.failure rfl]
  rfl

/-- Whatever a hash contains, and whatever the clock shows whenever it is read: the page is refused
    exactly when a text of it that is not empty is no experiment, also one that would not be listed.
    Otherwise the call gives the listing of what was read. If the documents that are listed name the
    moments of their creation, a hash with the same fields in another order gives the same
    experiments in the same order at any other time, unless two of them agree in their places; they
    differ at most in a last update that a document does not name. -/
theorem active_lists_hash (hw : w.Healthy) (hpage : Text.isBlank page = false)
    {fields : Table String} (hfields : w.state.server.store.hash (keys.page page) = fields) :
    CanEnd (active keys page none) w (App.runStore (active keys page none) w).1 ∧
      (∀ r, CanEnd (active keys page none) w r →
        ((∃ faults, r = .error (.invalidDocument faults)) ↔ ∃ f ∈ fields, Unreadable f.2) ∧
        ((∀ f ∈ fields, ¬Unreadable f.2) →
          ∃ all listed, List.Forall₂ FoundAs (documents fields) all ∧ r = .ok listed ∧
            IsListing page all listed)) ∧
      ∀ listed, CanEnd (active keys page none) w (.ok listed) → (listed.map placeOf).Nodup →
        EachListed page fields Dated → ∀ w' : World App, w'.Healthy →
          (w'.state.server.store.hash (keys.page page)).Perm fields →
            ∀ r, CanEnd (active keys page none) w' r →
              ∃ listed', r = .ok listed' ∧ List.Forall₂ SameButUpdate listed listed' ∧
                (EachListed page fields DatesUpdate → listed' = listed) := by
  refine ⟨canEnd_runStore _ w, fun r h => ?_, ?_⟩
  · have hlisted := listed_of_canEnd hw hpage h
    rw [hfields] at hlisted
    cases r with
    | error e =>
      obtain ⟨hfaults, hbad⟩ := hlisted.error_cases
      have hunreadable := exists_unreadable_iff.2 hbad
      refine ⟨iff_of_true ?_ hunreadable, fun hreadable => ?_⟩
      · obtain ⟨faults, rfl⟩ := hfaults
        exact ⟨faults, rfl⟩
      · obtain ⟨f, hf, hnot⟩ := hunreadable
        exact absurd hnot (hreadable f hf)
    | ok listed =>
      obtain ⟨all, hall, rfl⟩ := listed_ok_iff.1 hlisted
      refine ⟨iff_of_false ?_ fun hunreadable => ?_, fun _ => ⟨all, _, ?_, rfl, ?_⟩⟩
      · rintro ⟨_, ⟨⟩⟩
      · obtain ⟨text, htext, hnone⟩ := exists_unreadable_iff.1 hunreadable
        obtain ⟨e, -, he⟩ := exists_of_mem_forall₂ hall.flip htext
        exact hnone e he
      · exact hall.imp fun _ _ => foundAs_iff.2
      · exact isListing_listing page all
  · intro listed h hplaces hdated w' hw' hperm r h'
    have hlisted := listed_of_canEnd hw hpage h
    have hlisted' := listed_of_canEnd hw' hpage h'
    rw [hfields] at hlisted
    obtain ⟨all, hall, rfl⟩ := listed_ok_iff.1 hlisted
    cases r with
    | error e =>
      obtain ⟨-, text, htext, hnone⟩ := hlisted'.error_cases
      obtain ⟨e, -, he⟩ := exists_of_mem_forall₂ hall.flip ((documents_perm hperm).mem_iff.1 htext)
      exact absurd he (hnone e)
    | ok listed' =>
      obtain ⟨all', hall', rfl⟩ := listed_ok_iff.1 hlisted'
      have hpairs := exists_listing_of_perm hdated hall hplaces hperm hall'
      refine ⟨_, rfl, hpairs.imp ?_, fun hupdates => ?_⟩
      · rintro e d ⟨text, htwice⟩
        exact sameButUpdate_of_twice htwice.twice (htwice.holds (hdated.of_perm hperm))
      · rw [eq_comm, ← List.forall₂_eq_eq_eq]
        refine hpairs.imp ?_
        rintro e d ⟨text, htwice⟩
        have hsame := sameButUpdate_of_twice htwice.twice (htwice.holds (hdated.of_perm hperm))
        rw [SameButUpdate, ← htwice.twice.updated (htwice.holds (hupdates.of_perm hperm))] at hsame
        exact hsame.symm

end

/-! ## A hash that other tools wrote -/

/-- An experiment that names no zone, one that is ahead of UTC, one that does not run, and one of
    another page. -/
def zonelessText : String :=
  "\x7b\"id\":\"b\",\"page\":\"landing\",\"createdAt\":\"2024-01-02T00:00:00\"," ++
  "\"updatedAt\":\"2024-01-03T00:00:00\"\x7d"

def aheadText : String :=
  "\x7b\"id\":\"a\",\"page\":\"landing\",\"createdAt\":\"2024-01-02T03:00:00+05:30\"," ++
  "\"updatedAt\":\"2024-01-03T00:00:00\"\x7d"

def pausedText : String := "\x7b\"id\":\"p\",\"page\":\"landing\",\"isActive\":false\x7d"

def foreignText : String := "\x7b\"id\":\"f\",\"page\":\"pricing\"\x7d"

/-- What the first two are read as. -/
def zoneless : Experiment :=
  ⟨"b", "", "landing", true, [], .utc (1704153600 * Calendar.ticksPerSecond),
    .utc (1704240000 * Calendar.ticksPerSecond)⟩

def ahead : Experiment :=
  ⟨"a", "", "landing", true, [],
    (Timestamp.ofTick (63839761200 * Calendar.ticksPerSecond) 330).getD (.utc 0),
    .utc (1704240000 * Calendar.ticksPerSecond)⟩

/-- What the others are read as, at some time. -/
def paused (now : Timestamp) : Experiment := ⟨"p", "", "landing", false, [], now, now⟩

def foreign (now : Timestamp) : Experiment := ⟨"f", "", "pricing", true, [], now, now⟩

/-- Their hash, with an empty text among them. -/
def foundFields : Table String :=
  [("b", zonelessText), ("none", ""), ("a", aheadText), ("p", pausedText), ("f", foreignText)]

/-- An application that finds some hash on a page, when the clock shows some time. -/
def finding (clock : Instant) (fields : Table String) : World App :=
  (App.start Settings.defaults true clock).withServer
    { Server.fresh true with store := ⟨[("experiments:landing", fields)], []⟩ }

theorem healthy_finding (clock : Instant) (fields : Table String) :
    (finding clock fields).Healthy :=
  ⟨rfl, rfl⟩

theorem documents_found :
    documents foundFields = [zonelessText, aheadText, pausedText, foreignText] := by
  rfl

theorem readsAs_paused : ReadsAs pausedText (paused (.utc 0)) := ⟨0, 0, rfl⟩

theorem readsAs_foreign : ReadsAs foreignText (foreign (.utc 0)) := ⟨0, 0, rfl⟩

theorem readsAs_found :
    List.Forall₂ ReadsAs (documents foundFields)
      [zoneless, ahead, paused (.utc 0), foreign (.utc 0)] := by
  have hzoneless : ofTextAt (.utc 0) (.utc 0) zonelessText = .value zoneless :=
    Reading.eq_value_of_value? (by decide +kernel)
  have hahead : ofTextAt (.utc 0) (.utc 0) aheadText = .value ahead :=
    Reading.eq_value_of_value? (by decide +kernel)
  rw [documents_found]
  exact .cons ⟨0, 0, hzoneless⟩
    (.cons ⟨0, 0, hahead⟩ (.cons readsAs_paused (.cons readsAs_foreign .nil)))

/-- Only the first two are listed, and they name both moments. -/
theorem eachListed_found :
    EachListed "landing" foundFields fun text => Dated text ∧ DatesUpdate text := by
  have hzoneless : Dated zonelessText ∧ DatesUpdate zonelessText := ⟨⟨_, rfl, rfl⟩, _, rfl, rfl⟩
  have hahead : Dated aheadText ∧ DatesUpdate aheadText := ⟨⟨_, rfl, rfl⟩, _, rfl, rfl⟩
  rw [EachListed, documents_found]
  simp only [List.forall_mem_cons]
  refine ⟨fun _ _ _ _ => hzoneless, fun _ _ _ _ => hahead, ?_, ?_,
    fun _ h => absurd h List.not_mem_nil⟩
  · intro e he hactive
    rw [(he.twice readsAs_paused).isActive] at hactive
    cases hactive
  · intro e he _ hpage
    rw [(he.twice readsAs_foreign).page] at hpage
    exact absurd hpage (by decide)

/-- The one that is ahead of UTC comes first, whichever way round the hash is and whatever the clock
    shows. -/
theorem active_lists_hash_found :
    (finding 0 foundFields).Healthy ∧ (finding 60000000 foundFields.reverse).Healthy ∧
      Text.isBlank "landing" = false ∧
      CanEnd (active ⟨""⟩ "landing" none) (finding 0 foundFields) (.ok [ahead, zoneless]) ∧
      ([ahead, zoneless].map placeOf).Nodup ∧ EachListed "landing" foundFields Dated ∧
      ∀ r, CanEnd (active ⟨""⟩ "landing" none) (finding 60000000 foundFields.reverse) r →
        r = .ok [ahead, zoneless] := by
  have hhealthy := healthy_finding 0 foundFields
  obtain ⟨-, hlists, hreordered⟩ :=
    @active_lists_hash ⟨""⟩ (finding 0 foundFields) "landing" hhealthy rfl foundFields rfl
  have hbefore : CreatedBefore ahead zoneless := Or.inl (by decide +kernel)
  have hplaces : ([ahead, zoneless].map placeOf).Nodup := by decide +kernel
  have hlisting : listing "landing" [zoneless, ahead, paused (.utc 0), foreign (.utc 0)] =
      [ahead, zoneless] := by
    have hordered : [ahead, zoneless].Pairwise fun a b => ¬CreatedBefore b a := by
      simpa using fun hafter => createdBefore_asymm hbefore hafter
    have his := isListing_listing "landing" [zoneless, ahead, paused (.utc 0), foreign (.utc 0)]
    exact (eq_of_ordered ((List.Perm.swap _ _ _).trans his.perm.symm) hordered his.ordered
      hplaces).symm
  have hlisted := @canEnd_active ⟨""⟩ _ "landing" hhealthy rfl _ readsAs_found
  rw [hlisting] at hlisted
  refine ⟨hhealthy, healthy_finding _ _, rfl, hlisted, hplaces,
    eachListed_found.imp fun _ h => h.1, ?_⟩
  intro r hr
  obtain ⟨listed', rfl, -, hsame⟩ := hreordered _ hlisted hplaces
    (eachListed_found.imp fun _ h => h.1) (finding 60000000 foundFields.reverse)
    (healthy_finding _ _) (List.reverse_perm foundFields) r hr
  rw [hsame (eachListed_found.imp fun _ h => h.2)]

/-! ## Documents without a moment -/

/-- Two experiments that name no moments. -/
def bareA : String := "\x7b\"id\":\"a\",\"page\":\"landing\"\x7d"

def bareB : String := "\x7b\"id\":\"b\",\"page\":\"landing\"\x7d"

/-- What they are read as, at some time. -/
def bare (id : String) (now : Instant) : Experiment :=
  ⟨id, "", "landing", true, [], .utc now, .utc now⟩

/-- The one that is read first comes first. -/
theorem canEnd_active_bare {id id' text text' : String} (hne : text ≠ "") (hne' : text' ≠ "")
    (h : ∀ now, ReadsAs text (bare id now)) (h' : ∀ now, ReadsAs text' (bare id' now)) :
    CanEnd (active ⟨""⟩ "landing" none) (finding 0 [(id, text), (id', text')])
      (.ok [bare id 0, bare id' 1]) := by
  have hdocuments : documents [(id, text), (id', text')] = [text, text'] := by
    simp [documents, hne, hne']
  have hlisting : listing "landing" [bare id 0, bare id' 1] = [bare id 0, bare id' 1] := by
    have hinstants : (Timestamp.utc 0).instant < (Timestamp.utc 1).instant := by decide
    have hbefore : listedBefore (bare id 0) (bare id' 1) = true :=
      (listedBefore_iff _ _).2 (Or.inl hinstants)
    have hrunning : [bare id 0, bare id' 1].filter (runsOn "landing") =
        [bare id 0, bare id' 1] := rfl
    rw [listing, hrunning, mergeSort_pair, if_pos hbefore]
  rw [← hlisting]
  refine canEnd_active (healthy_finding _ _) rfl ?_
  change List.Forall₂ ReadsAs (documents [(id, text), (id', text')]) _
  rw [hdocuments]
  exact .cons (h 0) (.cons (h' 1) .nil)

/-- The order of a hash plays a part where documents name no moment of their creation: they come in
    the order in which they are read. -/
theorem not_forall_listed_alike :
    ¬∀ (keys : Keys) (page : String) (w w' : World App) (listed listed' : List Experiment),
      Text.isBlank page = false → w.Healthy → w'.Healthy →
        (w'.state.server.store.hash (keys.page page)).Perm
          (w.state.server.store.hash (keys.page page)) →
        CanEnd (active keys page none) w (.ok listed) →
        CanEnd (active keys page none) w' (.ok listed') →
        (listed.map placeOf).Nodup → (listed'.map placeOf).Nodup →
          listed'.map Experiment.id = listed.map Experiment.id := by
  intro h
  have hab := @canEnd_active_bare "a" "b" bareA bareB (by decide) (by decide)
    (fun now => ⟨now, now, rfl⟩) fun now => ⟨now, now, rfl⟩
  have hba := @canEnd_active_bare "b" "a" bareB bareA (by decide) (by decide)
    (fun now => ⟨now, now, rfl⟩) fun now => ⟨now, now, rfl⟩
  have hids := h ⟨""⟩ "landing" _ _ _ _ rfl (healthy_finding _ _) (healthy_finding _ _)
    (List.Perm.swap _ _ _) hab hba (by decide +kernel) (by decide +kernel)
  exact absurd hids (by decide)

end SplitTest
