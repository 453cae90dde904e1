import Mathlib
import SplitTest.Proofs.Stats.Turns

/-
  What the cache holds when calls have overtaken each other.
  When all calls are over, the cache holds what the call that touched it last had seen in the store:
  the statistics of the last write that had reached the store when the command of that call was
  answered. That is the last write of all unless the call was overtaken, that is unless a write
  reached the store between its command and its touch (`cached_at_rest`). A reader that is overtaken
  by an update leaves what was there before the update (`not_forall_cached_last`).
-/

namespace SplitTest.Statistics

/-- What a call keeps that saw so many writes: the last of them, or what stood in the store at the
    start. -/
def Version (keys : Keys) (now : Instant) (x : Cells) (writes : List PlatformStats) :
    Nat → PlatformStats → Prop
  | 0, s => Stands (.utc now) (x.store.text? keys.stats) s
  | k + 1, s => writes[k]? = some s

/-- What holds after any moves. -/
structure Consistent (keys : Keys) (now : Instant) (x : Cells) (σ : Scene) : Prop where
  sized : ∀ s ∈ σ.writes, s.Sized
  /-- The store holds the last write. -/
  text : σ.cells.store.text? keys.stats =
    (σ.writes.getLast?.map PlatformStats.render).or (x.store.text? keys.stats)
  turns : ∀ turn ∈ σ.turns, Stage keys now (Version keys now x σ.writes) σ.writes.length turn
  untouched : σ.touched = none → σ.cells.cache = x.cache
  /-- The cache holds what the call had seen that touched it last. -/
  touched : ∀ t ∈ σ.touched, t.seen ≤ t.reached ∧ t.reached ≤ σ.writes.length ∧
    ∃ s, Version keys now x σ.writes t.seen s ∧ σ.cells.cache = x.cache.keep s now
  /-- Since the last write the cache was touched, or a call is about to touch it. -/
  due : σ.writes.length = (σ.touched.map Touch.reached).getD 0 ∨
    ∃ turn ∈ σ.turns, ∃ s, Keeping now s turn.rest

section

variable {keys : Keys} {now : Instant} {x : Cells} {σ : Scene}

/-! ## Versions -/

theorem version_append {writes more : List PlatformStats} {k : Nat} {s : PlatformStats}
    (hk : k ≤ writes.length) (h : Version keys now x writes k s) :
    Version keys now x (writes ++ more) k s := by
  cases k with
  | zero => exact h
  | succ k => exact (List.getElem?_append_left (Nat.lt_of_succ_le hk)).trans h

theorem version_length {writes : List PlatformStats} {s : PlatformStats}
    (h : writes.getLast? = some s) : Version keys now x writes writes.length s := by
  obtain ⟨before, rfl⟩ := List.getLast?_eq_some_iff.1 h
  rw [List.length_append, List.length_singleton]
  exact List.getElem?_concat_length

theorem version_unique {writes : List PlatformStats} {k : Nat} {s s' : PlatformStats}
    (h : Version keys now x writes k s) (h' : Version keys now x writes k s') : s = s' := by
  cases k with
  | zero =>
    obtain ⟨found, hfound, rfl⟩ := stands_iff.1 h
    obtain ⟨found', hfound', rfl⟩ := stands_iff.1 h'
    rw [hfound] at hfound'
    cases hfound'
    rfl
  | succ k => exact Option.some.inj (h.symm.trans h')

/-- The document of statistics stands for nothing but the statistics. -/
theorem stands_render {time : Timestamp} {s d : PlatformStats} (hs : s.Sized)
    (h : Stands time (some s.render) d) : d = s := by
  generalize htext : some s.render = text at h
  cases h with
  | absent => cases htext
  | empty => exact absurd (Option.some.inj htext) s.render_ne_empty
  | document hread =>
    rw [← Option.some.inj htext] at hread
    exact ((PlatformStats.ofText_render_eq_value hs).1 hread).2

/-- What the text in the store stands for is the latest version. -/
theorem Consistent.version_of_stands (h : Consistent keys now x σ) {s : PlatformStats}
    (hs : Stands (.utc now) (σ.cells.store.text? keys.stats) s) :
    Version keys now x σ.writes σ.writes.length s := by
  rw [h.text] at hs
  cases hlast : σ.writes.getLast? with
  | none =>
    rw [hlast] at hs
    rw [List.getLast?_eq_none_iff.1 hlast]
    exact hs
  | some last =>
    rw [hlast] at hs
    rw [stands_render (h.sized last (List.mem_of_getLast? hlast)) hs]
    exact version_length hlast

/-! ## Moves -/

theorem consistent_start : Consistent keys now x (.start x) where
  sized _ hs := absurd hs List.not_mem_nil
  text := rfl
  turns _ hturn := absurd hturn List.not_mem_nil
  untouched _ := rfl
  touched _ ht := by cases ht
  due := Or.inl rfl

theorem Consistent.call (h : Consistent keys now x σ) {errand : Errand}
    (herrand : ∀ given, errand = .update given → given.Accepted) :
    Consistent keys now x (σ.after keys now (.call errand)) where
  sized := h.sized
  text := h.text
  turns turn hturn := by
    rcases List.mem_append.1 hturn with hold | hnew
    · exact h.turns turn hold
    · rw [List.mem_singleton.1 hnew]
      exact stage_thread herrand
  untouched := h.untouched
  touched := h.touched
  due := h.due.imp_right fun hkeeping => by
    obtain ⟨turn, hturn, s, hs⟩ := hkeeping
    exact ⟨turn, List.mem_append_left _ hturn, s, hs⟩

section

variable {i : Nat} {turn turn' : Turn}

theorem mem_set_of_ne {α : Type} {l : List α} {i : Nat} {a b c : α} (hi : l[i]? = some a)
    (hb : b ∈ l) (hne : b ≠ a) : b ∈ l.set i c := by
  obtain ⟨j, hj⟩ := List.mem_iff_getElem?.1 hb
  have hij : i ≠ j := by
    rintro rfl
    rw [hi] at hj
    exact hne (Option.some.inj hj).symm
  exact List.mem_iff_getElem?.2 ⟨j, by rw [List.getElem?_set_ne hij, hj]⟩

/-- A call that is not about to touch the cache gets an answer that changes neither store nor
    cache. -/
theorem Consistent.quiet (h : Consistent keys now x σ) (hi : σ.turns[i]? = some turn)
    (hturn : ∀ s, ¬Keeping now s turn.rest)
    (hstage : Stage keys now (Version keys now x σ.writes) σ.writes.length turn') :
    Consistent keys now x { σ with turns := σ.turns.set i turn' } where
  sized := h.sized
  text := h.text
  turns other hother := by
    rcases List.mem_or_eq_of_mem_set hother with hold | rfl
    · exact h.turns other hold
    · exact hstage
  untouched := h.untouched
  touched := h.touched
  due := h.due.imp_right fun hkeeping => by
    obtain ⟨other, hother, s, hs⟩ := hkeeping
    refine ⟨other, mem_set_of_ne hi hother ?_, s, hs⟩
    rintro rfl
    exact hturn s hs

/-- An update whose writing reaches the store is about to touch the cache. -/
theorem Consistent.written (h : Consistent keys now x σ) (hi : σ.turns[i]? = some turn)
    {s : PlatformStats} (hs : s.Sized) {errand : Errand} {rest : Rest} (hrest : Keeping now s rest) :
    Consistent keys now x
      { cells := { σ.cells with store := σ.cells.store.setText keys.stats s.render }
        turns := σ.turns.set i ⟨errand, rest, (σ.writes ++ [s]).length⟩
        writes := σ.writes ++ [s]
        touched := σ.touched } where
  sized d hd := by
    rcases List.mem_append.1 hd with hold | hnew
    · exact h.sized d hold
    · rw [List.mem_singleton.1 hnew]
      exact hs
  text := by
    rw [List.getLast?_concat]
    exact Store.text?_setText_self _ _ _
  turns other hother := by
    have hlen : σ.writes.length ≤ (σ.writes ++ [s]).length := by
      rw [List.length_append]
      exact Nat.le_add_right _ _
    rcases List.mem_or_eq_of_mem_set hother with hold | rfl
    · exact (h.turns other hold).mono hlen fun k hk d hd => version_append hk hd
    · exact .keeping (version_length List.getLast?_concat) (Nat.le_refl _) hrest
  untouched := h.untouched
  touched t ht := by
    obtain ⟨hseen, hreached, d, hd, hcache⟩ := h.touched t ht
    refine ⟨hseen, ?_, d, version_append (hseen.trans hreached) hd, hcache⟩
    rw [List.length_append]
    exact hreached.trans (Nat.le_add_right _ _)
  due := by
    have hlt : i < σ.turns.length := (List.getElem?_eq_some_iff.1 hi).1
    exact Or.inr ⟨_, List.mem_set hlt _, s, hrest⟩

/-- The cache keeps what a call had seen. -/
theorem Consistent.kept (h : Consistent keys now x σ) {s : PlatformStats} {seen : Nat}
    (hversion : Version keys now x σ.writes seen s) (hseen : seen ≤ σ.writes.length)
    (errand : Errand) (r : Except Error PlatformStats) :
    Consistent keys now x
      { cells := { σ.cells with cache := σ.cells.cache.keep s now }
        turns := σ.turns.set i ⟨errand, .ended r, seen⟩
        writes := σ.writes
        touched := some ⟨seen, σ.writes.length⟩ } where
  sized := h.sized
  text := h.text
  turns other hother := by
    rcases List.mem_or_eq_of_mem_set hother with hold | rfl
    · exact h.turns other hold
    · exact .done r
  untouched ht := by cases ht
  touched t ht := by
    cases ht
    refine ⟨hseen, Nat.le_refl _, s, hversion, ?_⟩
    cases hlast : σ.touched with
    | none =>
      dsimp only
      rw [h.untouched hlast]
    | some t =>
      obtain ⟨-, -, d, -, hcache⟩ := h.touched t hlast
      dsimp only
      rw [hcache]
      rfl
  due := Or.inl rfl

end

/-! ## One call goes on -/

section

variable {i : Nat} {errand : Errand} {seen : Nat} {q : Query} {next : q.Answer → Rest}

/-- A question that changes nothing. -/
def Query.Quiet : Query → Prop
  | .store c => c.Looks
  | .fresh _ | .age _ | .stale => True
  | .keep _ _ => False

theorem answered_of_quiet (hq : q.Quiet) (hwrites : errand.writes now q = []) :
    σ.answered now i errand seen q next =
      { σ with turns := σ.turns.set i ⟨errand, next (σ.cells.answer q).1,
        q.seenAfter seen σ.writes.length⟩ } := by
  unfold Scene.answered
  rw [hwrites, List.append_nil]
  cases q with
  | store c =>
    simp only [Cells.answer]
    rw [hq.perform_eq]
  | fresh | age | stale => rfl
  | keep => exact hq.elim

theorem Query.Quiet.not_keeping (hq : q.Quiet) (s : PlatformStats) :
    ¬Keeping now s (.asking q next) := by
  rintro ⟨_, heq, -⟩
  cases heq
  exact hq

/-- A call asks something that changes nothing. -/
theorem Consistent.asked (h : Consistent keys now x σ)
    (hi : σ.turns[i]? = some ⟨errand, .asking q next, seen⟩) (hq : q.Quiet)
    (hwrites : errand.writes now q = [])
    (hstage : Stage keys now (Version keys now x σ.writes) σ.writes.length
      ⟨errand, next (σ.cells.answer q).1, q.seenAfter seen σ.writes.length⟩) :
    Consistent keys now x (σ.answered now i errand seen q next) := by
  rw [answered_of_quiet hq hwrites]
  exact h.quiet hi hq.not_keeping hstage

theorem Consistent.looked (h : Consistent keys now x σ) {next : Query.Answer (.fresh now) → Rest}
    (hi : σ.turns[i]? = some ⟨.read, .asking (.fresh now) next, seen⟩)
    (hhit : ∀ s, Closing now (next (some s))) (hmiss : Fetching keys now (next none)) :
    Consistent keys now x (σ.answered now i .read seen (.fresh now) next) := by
  refine h.asked hi trivial rfl ?_
  cases (σ.cells.answer (.fresh now)).1 with
  | none => exact .fetching hmiss
  | some s => exact .closing (hhit s)

/-- The store is read, and what it stands for is the latest version. -/
theorem Consistent.fetched (h : Consistent keys now x σ)
    (hi : σ.turns[i]? = some ⟨.read, .asking q next, seen⟩)
    (hfetching : Fetching keys now (.asking q next)) :
    Consistent keys now x (σ.answered now i .read seen q next) := by
  obtain ⟨_, ⟨⟩, hnext⟩ := hfetching
  refine h.asked hi trivial rfl ?_
  rcases hnext (σ.cells.store.text? keys.stats) with hclosing | ⟨s, hstands, hkeeping⟩
  · exact .closing hclosing
  · exact .keeping (h.version_of_stands hstands) (Nat.le_refl _) hkeeping

/-- A last look into the cache leaves a call at its end. -/
theorem Consistent.closed (h : Consistent keys now x σ)
    (hi : σ.turns[i]? = some ⟨errand, .asking q next, seen⟩)
    (hclosing : Closing now (.asking q next)) :
    Consistent keys now x (σ.answered now i errand seen q next) := by
  rcases hclosing with ⟨_, ⟨⟩, hlast⟩ | ⟨_, ⟨⟩, hlast⟩
  · obtain ⟨r, hr⟩ := hlast (σ.cells.answer (.age now)).1
    refine h.asked hi trivial (by cases errand <;> rfl) ?_
    rw [hr]
    exact .done r
  · obtain ⟨r, hr⟩ := hlast (σ.cells.answer .stale).1
    refine h.asked hi trivial (by cases errand <;> rfl) ?_
    rw [hr]
    exact .done r

/-- A call touches the cache. -/
theorem Consistent.touch (h : Consistent keys now x σ) {s : PlatformStats}
    (hversion : Version keys now x σ.writes seen s) (hseen : seen ≤ σ.writes.length)
    (hkeeping : Keeping now s (.asking q next)) :
    Consistent keys now x (σ.answered now i errand seen q next) := by
  obtain ⟨_, ⟨⟩, hlast⟩ := hkeeping
  obtain ⟨r, hr⟩ := hlast ()
  have hwrites : errand.writes now (.keep s now) = [] := by cases errand <;> rfl
  have hkept := h.kept (i := i) hversion hseen errand r
  rw [← hr] at hkept
  unfold Scene.answered
  rw [hwrites, List.append_nil]
  exact hkept

/-- A call gets its next answer. -/
theorem Consistent.answered (h : Consistent keys now x σ)
    (hi : σ.turns[i]? = some ⟨errand, .asking q next, seen⟩) :
    Consistent keys now x (σ.answered now i errand seen q next) := by
  have hstage := h.turns _ (List.mem_of_getElem? hi)
  cases hstage with
  | looking hhit hmiss => exact h.looked hi hhit hmiss
  | fetching hfetching => exact h.fetched hi hfetching
  | writing hgiven hkeeping => exact h.written hi (hgiven.sized.stamped (.utc now)) hkeeping
  | keeping hversion hseen hkeeping => exact h.touch hversion hseen hkeeping
  | closing hclosing => exact h.closed hi hclosing

end

/-- Every update in some moves is one with statistics that a document can say. -/
def Scene.Move.Accepted : Move → Prop
  | .call (.update given) => given.Accepted
  | _ => True

theorem Consistent.after (h : Consistent keys now x σ) {move : Scene.Move} (hmove : move.Accepted) :
    Consistent keys now x (σ.after keys now move) := by
  cases move with
  | call errand =>
    refine h.call fun given herrand => ?_
    rw [herrand] at hmove
    exact hmove
  | resume i =>
    rw [Scene.after]
    split
    · next errand q next seen hi => exact h.answered hi
    · exact h

/-- After any moves. -/
theorem consistent_run (moves : List Scene.Move) (hmoves : ∀ move ∈ moves, move.Accepted) :
    Consistent keys now x (.run keys now x moves) := by
  induction moves using List.reverseRecOn with
  | nil => exact consistent_start
  | append_singleton moves move ih =>
    rw [Scene.run, List.foldl_append]
    have hbefore := ih fun move hmem => hmoves move (List.mem_append_left _ hmem)
    exact hbefore.after (hmoves move (List.mem_append_right _ (List.mem_singleton_self move)))

end

/-! ## At rest -/

/-- A fresh value in the cache is what the next reader gets. -/
theorem stats_of_fresh {w : World App} {cache : TimedCache PlatformStats} {s : PlatformStats}
    (hcache : w.state.cache = some cache) (hfresh : cache.Fresh w.clock s) :
    (App.stats w).1 = .ok s := by
  have hopen : App.openCache w = .ok cache := by rw [App.openCache, hcache]
  obtain ⟨d, server, cache', log, hstats, hsourced⟩ := exists_stats_eq hopen
  rw [hstats]
  cases hsourced with
  | cached hfresh' =>
    rw [← TimedCache.fresh?_eq_some_iff] at hfresh hfresh'
    rw [hfresh] at hfresh'
    cases hfresh'
    rfl
  | read hstale | fallback hstale => exact absurd ⟨s, hfresh⟩ hstale

/-- After any moves that leave no call in progress and have brought a write to the store: the cache
    holds what the call had seen that touched it last, and readers are answered with that as long as
    it is fresh. It is the last write exactly when that call was not overtaken, that is when no write
    reached the store between its command and its touch, or when what it had seen is the same. -/
theorem cached_at_rest {keys : Keys} {now : Instant} {x : Cells} {moves : List Scene.Move}
    {σ : Scene} (hσ : σ = .run keys now x moves) (hmoves : ∀ move ∈ moves, move.Accepted)
    (hrest : σ.AtRest) {last : PlatformStats} (hlast : σ.writes.getLast? = some last) :
    ∃ s t, σ.touched = some t ∧ t.seen ≤ t.reached ∧ t.reached = σ.writes.length ∧
      Version keys now x σ.writes t.seen s ∧ σ.cells.cache = x.cache.keep s now ∧
      (s = last ↔ t.seen = t.reached ∨ Version keys now x σ.writes t.seen last) ∧
      ∀ w : World App, w.state.cache = some σ.cells.cache → w.clock - now < x.cache.lifetime →
        (App.stats w).1 = .ok s := by
  have h : Consistent keys now x σ := hσ ▸ consistent_run moves hmoves
  have hreached : σ.writes.length = (σ.touched.map Touch.reached).getD 0 := by
    refine h.due.resolve_right ?_
    rintro ⟨turn, hturn, s, _, hkeeping, -⟩
    obtain ⟨r, hr⟩ := hrest turn hturn
    rw [hr] at hkeeping
    cases hkeeping
  cases htouched : σ.touched with
  | none =>
    rw [htouched] at hreached
    rw [List.eq_nil_of_length_eq_zero hreached] at hlast
    cases hlast
  | some t =>
    rw [htouched] at hreached
    obtain ⟨hseen, -, s, hversion, hcache⟩ := h.touched t htouched
    refine ⟨s, t, rfl, hseen, hreached.symm, hversion, hcache, ⟨?_, ?_⟩, fun w hw hage => ?_⟩
    · rintro rfl
      exact Or.inr hversion
    · rintro (heq | hsame)
      · have hlatest : Version keys now x σ.writes t.seen last := by
          rw [heq, show t.reached = σ.writes.length from hreached.symm]
          exact version_length hlast
        exact version_unique hversion hlatest
      · exact version_unique hversion hsame
    · refine stats_of_fresh hw ?_
      rw [hcache]
      exact ⟨rfl, now, rfl, hage⟩

/-- Figures for another update. -/
def nineAuthors : PlatformStats := { PlatformStats.defaults (.utc 0) with activeAuthors := 9 }

theorem accepted_sevenAuthors : sevenAuthors.Accepted :=
  ⟨.utc 0, "\x7b\"activeAuthors\":7\x7d", rfl⟩

theorem accepted_nineAuthors : nineAuthors.Accepted :=
  ⟨.utc 0, "\x7b\"activeAuthors\":9\x7d", rfl⟩

/-- Nothing is stored and nothing is kept. -/
def noCells : Cells := ⟨.empty, .new 3600000000⟩

theorem atRest_of_turns {σ : Scene} {a b : Turn} (h : σ.turns = [a, b])
    (ha : ∃ r, a.rest = .ended r) (hb : ∃ r, b.rest = .ended r) : σ.AtRest := by
  intro turn hturn
  rw [h, List.mem_pair] at hturn
  rcases hturn with rfl | rfl
  · exact ha
  · exact hb

/-- Two updates: both write, then both touch the cache, in the same order. -/
def inOrder : List Scene.Move :=
  [.call (.update sevenAuthors), .call (.update nineAuthors), .resume 0, .resume 1, .resume 0,
    .resume 1]

/-- After that readers get what was written last. -/
theorem cached_at_rest_inOrder :
    (∀ move ∈ inOrder, move.Accepted) ∧ (Scene.run ⟨""⟩ 0 noCells inOrder).AtRest ∧
      (Scene.run ⟨""⟩ 0 noCells inOrder).writes.getLast? = some nineAuthors ∧
      ∀ w : World App, w.state.cache = some (Scene.run ⟨""⟩ 0 noCells inOrder).cells.cache →
        w.clock - 0 < 3600000000 → (App.stats w).1 = .ok nineAuthors := by
  have hmoves : ∀ move ∈ inOrder, move.Accepted := by
    simp only [inOrder, List.forall_mem_cons]
    exact ⟨accepted_sevenAuthors, accepted_nineAuthors, trivial, trivial, trivial, trivial,
      fun move hmem => absurd hmem List.not_mem_nil⟩
  have hrest : (Scene.run ⟨""⟩ 0 noCells inOrder).AtRest :=
    atRest_of_turns rfl ⟨_, rfl⟩ ⟨_, rfl⟩
  have hlast : (Scene.run ⟨""⟩ 0 noCells inOrder).writes.getLast? = some nineAuthors := rfl
  obtain ⟨s, t, ht, -, -, -, -, hs, hstats⟩ := cached_at_rest rfl hmoves hrest hlast
  have htouched : (Scene.run ⟨""⟩ 0 noCells inOrder).touched = some ⟨2, 2⟩ := rfl
  rw [htouched] at ht
  cases ht
  rw [hs.2 (Or.inl rfl)] at hstats
  exact ⟨hmoves, hrest, hlast, hstats⟩

/-- A reader finds nothing in the store. Before it goes on, an update writes and touches the cache;
    then the reader touches it. -/
def overtaken : List Scene.Move :=
  [.call .read, .resume 0, .resume 0, .call (.update sevenAuthors), .resume 1, .resume 1, .resume 0]

/-- After that the cache holds the defaults, fresh, and not what the update wrote. -/
theorem not_forall_cached_last : ¬∀ (keys : Keys) (now : Instant) (x : Cells)
    (moves : List Scene.Move), (∀ move ∈ moves, move.Accepted) → (Scene.run keys now x moves).AtRest →
      ∀ last, (Scene.run keys now x moves).writes.getLast? = some last →
        ∀ s, (Scene.run keys now x moves).cells.cache.Fresh now s → s = last := by
  intro h
  have hmoves : ∀ move ∈ overtaken, move.Accepted := by
    simp only [overtaken, List.forall_mem_cons]
    exact ⟨trivial, trivial, trivial, accepted_sevenAuthors, trivial, trivial, trivial,
      fun move hmem => absurd hmem List.not_mem_nil⟩
  have hrest : (Scene.run ⟨""⟩ 0 noCells overtaken).AtRest :=
    atRest_of_turns rfl ⟨_, rfl⟩ ⟨_, rfl⟩
  have hfresh : (Scene.run ⟨""⟩ 0 noCells overtaken).cells.cache.Fresh 0 (.defaults (.utc 0)) :=
    ⟨rfl, 0, rfl, by decide⟩
  have heq := congrArg PlatformStats.activeAuthors
    (h ⟨""⟩ 0 noCells overtaken hmoves hrest sevenAuthors rfl _ hfresh)
  exact absurd heq (by decide)

end SplitTest.Statistics
