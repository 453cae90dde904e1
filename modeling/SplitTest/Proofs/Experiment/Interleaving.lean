import Mathlib
import SplitTest.Proofs.Experiment.Calls

/-
  Two calls of the repository at once.
  Every command is one step, and between the two commands of an update the other call may come with
  its own. Two calls are `Serial` when they end as in one of the two orders. They are, unless the
  other call deletes the experiment between the two commands of an update (`serial_or_revives`): then
  the update brings back what the deletion removed, and no order gives that
  (`not_serial_of_revives`). `serial_iff_not_revives` says both of the application.
-/

namespace SplitTest

open Thread

/-! ## Two calls -/

/-- A call, and how many ids have been taken when it takes one. -/
structure Client where
  operation : Operation
  issued : Nat

namespace Client

/-- The commands of the call. -/
def thread (keys : Keys) (now : Instant) (c : Client) : Thread Command Command.Result Outcome :=
  c.operation.thread keys now c.issued

/-- Runs the call in the application, from its first command to its last. -/
def run (keys : Keys) (w : World App) (c : Client) : Outcome × World App :=
  c.operation.run keys { w with issued := c.issued }

end Client

/-- One call after the other, with these outcomes and that store in the end. -/
def InOrder (keys : Keys) (w : World App) (c c' : Client) (o o' : Outcome) (s' : Store) : Prop :=
  (c.run keys w).1 = o ∧ (c'.run keys (c.run keys w).2).1 = o' ∧
    (c'.run keys (c.run keys w).2).2.state.server.store = s'

theorem inOrder_iff {keys : Keys} {w : World App} (hw : w.Healthy) {c c' : Client}
    {o o' : Outcome} {s' : Store} :
    InOrder keys w c c' o o' s' ↔ InTurn Command.carryOut (c.thread keys w.clock)
      (c'.thread keys w.clock) w.state.server.store o o' s' := by
  have hfirst : World.Healthy { w with issued := c.issued } := ⟨hw.hasClient, hw.failure⟩
  obtain ⟨_, hresult, hshows⟩ := c.operation.exists_run_eq keys hfirst
  change (c.run keys w).1 = ((c.thread keys w.clock).run _ _).1 at hresult
  change (c.run keys w).2.Shows ⟨w.clock, _, ((c.thread keys w.clock).run _ _).2⟩ at hshows
  have hsecond : World.Healthy { (c.run keys w).2 with issued := c'.issued } :=
    ⟨hshows.hasClient, hshows.failure⟩
  obtain ⟨_, hresult', hshows'⟩ := c'.operation.exists_run_eq keys hsecond
  change (c'.run keys (c.run keys w).2).1 =
    ((c'.thread keys (c.run keys w).2.clock).run _ (c.run keys w).2.state.server.store).1 at hresult'
  change (c'.run keys (c.run keys w).2).2.Shows ⟨_, _,
    ((c'.thread keys (c.run keys w).2.clock).run _ (c.run keys w).2.state.server.store).2⟩
    at hshows'
  rw [hshows.clock, hshows.store] at hresult' hshows'
  unfold InOrder InTurn
  rw [hresult, hresult', hshows'.store]
  constructor
  · rintro ⟨rfl, rfl, rfl⟩
    exact ⟨_, rfl, rfl⟩
  · intro hparts
    obtain ⟨mid, hrun, hrun'⟩ := hparts
    rw [hrun]
    dsimp only
    rw [hrun']
    exact ⟨rfl, rfl, rfl⟩

/-! ## Serial or not -/

/-- One call after the other, in one of the two orders. -/
def Serial (t t' : Thread Command Command.Result Outcome) (s : Store) (o o' : Outcome)
    (s' : Store) : Prop :=
  InTurn Command.carryOut t t' s o o' s' ∨ InTurn Command.carryOut t' t s o' o s'

/-- An update brings back what a deletion removed: the deletion found the experiment, the update was
    carried out, and the experiment is there in the end. -/
def Revives (keys : Keys) (op op' : Operation) (o o' : Outcome) (s' : Store) : Prop :=
  ∃ e stored, op = .update (some e) ∧ op' = .delete e.id e.page ∧ o = .stored (.ok stored) ∧
    o' = .removed (.ok true) ∧ s'.hasField (keys.page e.page) e.id = true

/-- What is left of an update after it found its experiment. As long as the experiment is there, the
    whole update would do the same. -/
structure Passed (keys : Keys) (e : Experiment) (t rest : Thread Command Command.Result Outcome) :
    Prop where
  exists_write : ∃ text last stored, rest = .asking (.writeField (keys.page e.page) e.id text) last ∧
    last (.ok ()) = .ended (.stored (.ok stored))
  run_eq : ∀ s : Store, s.hasField (keys.page e.page) e.id = true →
    t.run Command.carryOut s = rest.run Command.carryOut s

section

variable {keys : Keys} {op op' : Operation}
  {t t' rest rest' : Thread Command Command.Result Outcome} {e e' : Experiment} {s s' : Store}
  {o o' : Outcome}

/-- A call that is no update ends with its first command. -/
theorem Operation.Shape.exists_ended {c : Command}
    {next : c.Result → Thread Command Command.Result Outcome}
    (h : Shape keys op (.asking c next)) (hop : ∀ e, op ≠ .update (some e)) (a : c.Answer) :
    ∃ o, next (.ok a) = .ended o := by
  cases h with
  | reads _ _ _ hnext => exact hnext a
  | creates hadded htaken =>
    revert a
    exact Bool.forall_bool.2 ⟨⟨_, htaken⟩, ⟨_, hadded⟩⟩
  | deletes hnext => exact ⟨_, hnext a⟩
  | updates => exact absurd rfl (hop _)

theorem passed_of_there {stored : Experiment} {text : String}
    {next : Command.Result (.hasField (keys.page e.page) e.id) →
      Thread Command Command.Result Outcome}
    {last : Command.Result (.writeField (keys.page e.page) e.id text) →
      Thread Command Command.Result Outcome}
    (hthere : next (.ok true) = .asking (.writeField (keys.page e.page) e.id text) last)
    (hwritten : last (.ok ()) = .ended (.stored (.ok stored))) :
    Passed keys e (.asking _ next) (next (.ok true)) := by
  refine ⟨⟨text, last, stored, hthere, hwritten⟩, fun s hs => ?_⟩
  change (next (.ok (s.hasField (keys.page e.page) e.id))).run _ s = _
  rw [hs]

theorem Passed.exists_run (hp : Passed keys e t rest) :
    ∃ text stored, ∀ s : Store, rest.run Command.carryOut s =
      (.stored (.ok stored), s.setField (keys.page e.page) e.id text) := by
  obtain ⟨text, last, stored, rfl, hwritten⟩ := hp.exists_write
  refine ⟨text, stored, fun s => ?_⟩
  change (last (.ok ())).run _ _ = _
  rw [hwritten]
  rfl

/-- An update that passed and writes first comes first, if its writing leaves the other call on its
    way. -/
theorem Passed.inTurn (hp : Passed keys e t rest)
    (hs : s.hasField (keys.page e.page) e.id = true)
    (h : InTurn Command.carryOut rest rest' s o o' s')
    (hrest' : ∀ mid : Store,
      (∀ key field, s.hasField key field = true → mid.hasField key field = true) →
      t'.run Command.carryOut mid = rest'.run Command.carryOut mid) :
    InTurn Command.carryOut t t' s o o' s' := by
  obtain ⟨text, stored, hwrites⟩ := hp.exists_run
  obtain ⟨mid, hrun, hrun'⟩ := h
  have hmid : s.setField (keys.page e.page) e.id text = mid :=
    congrArg Prod.snd ((hwrites s).symm.trans hrun)
  refine ⟨mid, (hp.run_eq s hs).trans hrun, (hrest' mid fun key field hhas => ?_).trans hrun'⟩
  rw [← hmid]
  exact Store.hasField_setField_of_hasField hhas _ _ _

/-- Two updates that passed come in the order in which they write. -/
theorem serial_of_both_passed (hp : Passed keys e t rest) (hp' : Passed keys e' t' rest')
    (hs : s.hasField (keys.page e.page) e.id = true)
    (hs' : s.hasField (keys.page e'.page) e'.id = true)
    (h : Interleaved Command.carryOut rest rest' s o o' s') : Serial t t' s o o' s' := by
  obtain ⟨_, last, _, rfl, hwritten⟩ := hp.exists_write
  obtain ⟨_, last', _, rfl, hwritten'⟩ := hp'.exists_write
  cases h with
  | first h =>
    exact Or.inl (hp.inTurn hs ⟨_, h.runs_of_last hwritten⟩ fun mid hkeeps =>
      hp'.run_eq mid (hkeeps _ _ hs'))
  | second h =>
    exact Or.inr (hp'.inTurn hs' ⟨_, h.symm.runs_of_last hwritten'⟩ fun mid hkeeps =>
      hp.run_eq mid (hkeeps _ _ hs))

/-- A call whose only command leaves the experiment there comes before the update. -/
theorem serial_after (hp : Passed keys e t rest) {c : Command}
    {next : c.Result → Thread Command Command.Result Outcome}
    (hends : ∃ o₁, next (.ok (c.perform s).1) = .ended o₁)
    (hkeeps : (c.perform s).2.hasField (keys.page e.page) e.id = true)
    (h : Interleaved Command.carryOut rest (next (c.carryOut s).1) (c.carryOut s).2 o o' s') :
    Serial t (.asking c next) s o o' s' := by
  obtain ⟨_, hlast⟩ := hends
  obtain ⟨hrun', hrun⟩ := h.symm.runs_of_last hlast
  exact Or.inr ⟨_, hrun', (hp.run_eq _ hkeeps).trans hrun⟩

/-- A deletion of the experiment between the two commands of an update is undone. -/
theorem revives_of_removed (hp : Passed keys e t rest)
    (hs : s.hasField (keys.page e.page) e.id = true)
    {next : Command.Result (.removeField (keys.page e.page) e.id) →
      Thread Command Command.Result Outcome}
    (hnext : ∀ there, next (.ok there) = .ended (.removed (.ok there)))
    (h : Interleaved Command.carryOut rest
      (next (Command.carryOut (.removeField (keys.page e.page) e.id) s).1)
      (Command.carryOut (.removeField (keys.page e.page) e.id) s).2 o o' s') :
    Revives keys (.update (some e)) (.delete e.id e.page) o o' s' := by
  change Interleaved _ rest (next (.ok (s.hasField (keys.page e.page) e.id))) _ o o' s' at h
  rw [hs, hnext] at h
  obtain ⟨rfl, hrun⟩ := h.symm.run_of_ended
  obtain ⟨text, stored, hwrites⟩ := hp.exists_run
  obtain ⟨rfl, rfl⟩ := Prod.ext_iff.1 ((hwrites _).symm.trans hrun)
  exact ⟨e, stored, rfl, rfl, rfl, rfl, Store.hasField_setField_self _ _ _ _⟩

/-- When an update has passed, the only call that is not serial with it is the deletion of its
    experiment, before it writes. -/
theorem serial_of_passed (hp : Passed keys e t rest)
    (hs : s.hasField (keys.page e.page) e.id = true) (ht' : Operation.Shape keys op' t')
    (h : Interleaved Command.carryOut rest t' s o o' s') :
    Serial t t' s o o' s' ∨ Revives keys (.update (some e)) op' o o' s' := by
  obtain ⟨text, last, stored, hrest, hwritten⟩ := hp.exists_write
  rw [hrest] at h
  cases h with
  | first h =>
    have hturn := h.runs_of_last hwritten
    rw [← hrest] at hturn
    exact Or.inl (Or.inl (hp.inTurn hs ⟨_, hturn⟩ fun _ _ => rfl))
  | second h =>
    rw [← hrest] at h
    cases ht' with
    | reads _ hc _ hnext =>
      refine Or.inl (serial_after hp (hnext _) ?_ h)
      rw [hc]
      exact hs
    | @creates _ stored _ text next hadded htaken =>
      have hends : ∀ added, ∃ o, next (.ok added) = .ended o :=
        Bool.forall_bool.2 ⟨⟨_, htaken⟩, ⟨_, hadded⟩⟩
      refine Or.inl (serial_after hp (hends _) ?_ h)
      exact Command.hasField_perform hs (c := .addField (keys.page stored.page) stored.id text) nofun
    | @deletes id page _ hnext =>
      by_cases hsame : page = e.page ∧ id = e.id
      · obtain ⟨rfl, rfl⟩ := hsame
        exact Or.inr (revives_of_removed hp hs hnext h)
      · have hother : Command.removeField (keys.page page) id ≠
            .removeField (keys.page e.page) e.id := by
          intro heq
          injection heq with hpage hid
          exact hsame ⟨keys.page_injective hpage, hid⟩
        exact Or.inl (serial_after hp ⟨_, hnext _⟩ (Command.hasField_perform hs hother) h)
    | @updates e' _ _ _ next _ hmissing hthere hwritten' =>
      left
      cases hs' : s.hasField (keys.page e'.page) e'.id with
      | false =>
        rw [← hs'] at hmissing
        exact serial_after hp ⟨_, hmissing⟩ hs h
      | true =>
        change Interleaved _ rest (next (.ok (s.hasField (keys.page e'.page) e'.id))) s o o' s' at h
        rw [hs'] at h
        exact serial_of_both_passed hp (passed_of_there hthere hwritten') hs hs' h

/-- Two calls are serial unless the one that asks first is an update and the other one deletes its
    experiment in between. -/
theorem serial_of_first {c : Command} {next : c.Result → Thread Command Command.Result Outcome}
    (ht : Operation.Shape keys op (.asking c next)) (ht' : Operation.Shape keys op' t')
    (h : Interleaved Command.carryOut (next (c.carryOut s).1) t' (c.carryOut s).2 o o' s') :
    Serial (.asking c next) t' s o o' s' ∨ Revives keys op op' o o' s' := by
  by_cases hupdate : ∃ e, op = .update (some e)
  · obtain ⟨e, rfl⟩ := hupdate
    cases ht with
    | reads hop => exact hop.elim
    | @updates _ _ _ _ next _ hmissing hthere hwritten =>
      change Interleaved _ (next (.ok (s.hasField (keys.page e.page) e.id))) t' s o o' s' at h
      cases hs : s.hasField (keys.page e.page) e.id with
      | false =>
        rw [← hs] at hmissing
        exact Or.inl (Or.inl ⟨_, h.runs_of_last hmissing⟩)
      | true =>
        rw [hs] at h
        exact serial_of_passed (passed_of_there hthere hwritten) hs ht' h
  · obtain ⟨_, hlast⟩ := ht.exists_ended (fun e he => hupdate ⟨e, he⟩) (c.perform s).1
    exact Or.inl (Or.inl ⟨_, h.runs_of_last hlast⟩)

/-- Two calls at once are serial, or one of them brings back what the other deleted. -/
theorem serial_or_revives (ht : Operation.Shape keys op t) (ht' : Operation.Shape keys op' t')
    (h : Interleaved Command.carryOut t t' s o o' s') :
    Serial t t' s o o' s' ∨ Revives keys op op' o o' s' ∨ Revives keys op' op o' o s' := by
  cases h with
  | ended => exact Or.inl (Or.inl ⟨s, rfl, rfl⟩)
  | first h => exact (serial_of_first ht ht' h).imp_right Or.inl
  | second h =>
    rcases serial_of_first ht' ht h.symm with hserial | hrevives
    · exact Or.inl hserial.symm
    · exact Or.inr (Or.inr hrevives)

/-! ## What a deletion leaves -/

theorem distinct_run (t : Thread Command Command.Result Outcome) (hs : s.Distinct) :
    (t.run Command.carryOut s).2.Distinct := by
  induction t generalizing s with
  | ended o => exact hs
  | asking c next ih => exact ih _ (Command.distinct_perform hs c)

/-- What was deleted is removed. -/
theorem Operation.Shape.run_delete {id page : String} {there : Bool}
    (ht : Operation.Shape keys (.delete id page) t)
    (hrun : t.run Command.carryOut s = (.removed (.ok there), s')) :
    s' = s.removeField (keys.page page) id := by
  cases ht with
  | refused _ _ ho =>
    cases hrun
    exact ho.elim
  | reads hop => exact hop.elim
  | @deletes _ _ next hnext =>
    change (next (.ok (s.hasField (keys.page page) id))).run _ (s.removeField (keys.page page) id) =
      _ at hrun
    rw [hnext] at hrun
    cases hrun
    rfl

/-- What was updated was there. -/
theorem Operation.Shape.run_update {stored : Experiment}
    (ht : Operation.Shape keys (.update (some e)) t)
    (hrun : t.run Command.carryOut s = (.stored (.ok stored), s')) :
    s.hasField (keys.page e.page) e.id = true := by
  cases ht with
  | refused _ _ ho =>
    cases hrun
    exact ho.elim
  | reads hop => exact hop.elim
  | @updates _ _ _ _ next _ hmissing =>
    by_contra hnone
    change (next (.ok (s.hasField (keys.page e.page) e.id))).run _ s = _ at hrun
    rw [Bool.eq_false_iff.2 hnone, hmissing] at hrun
    cases hrun

/-- What was not there and is there after a call was created by it. -/
theorem Operation.Shape.exists_created {id page : String} (ht : Operation.Shape keys op t)
    (hnone : s.hasField (keys.page page) id = false) (hrun : t.run Command.carryOut s = (o, s'))
    (hthere : s'.hasField (keys.page page) id = true) :
    ∃ given stored, op = .create (some given) ∧ o = .stored (.ok stored) ∧ stored.id = id ∧
      stored.page = page := by
  cases ht with
  | refused =>
    cases hrun
    exact absurd (hnone.symm.trans hthere) Bool.noConfusion
  | @reads _ c next _ hc _ hnext =>
    obtain ⟨_, hlast⟩ := hnext (c.perform s).1
    change (next (.ok (c.perform s).1)).run _ (c.perform s).2 = _ at hrun
    rw [hlast, hc] at hrun
    cases hrun
    exact absurd (hnone.symm.trans hthere) Bool.noConfusion
  | @creates given stored _ text next hadded htaken =>
    change (next (.ok (!s.hasField (keys.page stored.page) stored.id))).run _
      (Command.perform (.addField (keys.page stored.page) stored.id text) s).2 = _ at hrun
    cases hhas : s.hasField (keys.page stored.page) stored.id with
    | true =>
      rw [hhas, Bool.not_true, htaken] at hrun
      cases hrun
      obtain ⟨_, heq | heq⟩ := Command.exists_write_of_hasField hnone hthere
      · injection heq with hpage hid
        rw [hpage, hid] at hhas
        exact absurd (hnone.symm.trans hhas) Bool.noConfusion
      · cases heq
    | false =>
      rw [hhas, Bool.not_false, hadded] at hrun
      cases hrun
      obtain ⟨_, heq | heq⟩ := Command.exists_write_of_hasField hnone hthere
      · injection heq with hpage hid
        exact ⟨given, stored, rfl, rfl, hid, keys.page_injective hpage⟩
      · cases heq
  | @deletes id' page' next hnext =>
    change (next (.ok (s.hasField (keys.page page') id'))).run _
      (Command.perform (.removeField (keys.page page') id') s).2 = _ at hrun
    rw [hnext] at hrun
    cases hrun
    obtain ⟨_, heq | heq⟩ := Command.exists_write_of_hasField hnone hthere <;> cases heq
  | @updates e _ _ text next last hmissing hpresent hwritten =>
    change (next (.ok (s.hasField (keys.page e.page) e.id))).run _ s = _ at hrun
    cases hhas : s.hasField (keys.page e.page) e.id with
    | false =>
      rw [hhas, hmissing] at hrun
      cases hrun
      exact absurd (hnone.symm.trans hthere) Bool.noConfusion
    | true =>
      rw [hhas, hpresent] at hrun
      change (last (.ok ())).run _
        (Command.perform (.writeField (keys.page e.page) e.id text) s).2 = _ at hrun
      rw [hwritten] at hrun
      cases hrun
      obtain ⟨_, heq | heq⟩ := Command.exists_write_of_hasField hnone hthere
      · cases heq
      · injection heq with hpage hid
        rw [hpage, hid] at hhas
        exact absurd (hnone.symm.trans hhas) Bool.noConfusion

/-- A deletion that is undone is not serial with the update that undid it. -/
theorem not_serial_of_revives (hs : s.Distinct) (ht : Operation.Shape keys op t)
    (ht' : Operation.Shape keys op' t') (h : Revives keys op op' o o' s') :
    ¬Serial t t' s o o' s' := by
  obtain ⟨e, stored, rfl, rfl, rfl, rfl, hthere⟩ := h
  rintro (⟨mid, hrun, hrun'⟩ | ⟨mid, hrun', hrun⟩)
  · have hmid := distinct_run t hs
    rw [hrun] at hmid
    rw [ht'.run_delete hrun', Store.hasField_removeField_self hmid] at hthere
    cases hthere
  · have hpresent := ht.run_update hrun
    rw [ht'.run_delete hrun', Store.hasField_removeField_self hs] at hpresent
    cases hpresent

/-- What was deleted and is there in the end was created by the other call, or brought back by it. -/
theorem created_or_revives {id page : String} (hs : s.Distinct) (ht : Operation.Shape keys op t)
    (ht' : Operation.Shape keys (.delete id page) t')
    (h : Interleaved Command.carryOut t t' s o (.removed (.ok true)) s')
    (hthere : s'.hasField (keys.page page) id = true) :
    (∃ given stored, op = .create (some given) ∧ o = .stored (.ok stored) ∧ stored.id = id ∧
      stored.page = page) ∨ Revives keys op (.delete id page) o (.removed (.ok true)) s' := by
  rcases serial_or_revives ht ht' h with (⟨mid, hrun, hrun'⟩ | ⟨mid, hrun', hrun⟩) | h | h
  · have hmid := distinct_run t hs
    rw [hrun] at hmid
    rw [ht'.run_delete hrun', Store.hasField_removeField_self hmid] at hthere
    cases hthere
  · have hnone : mid.hasField (keys.page page) id = false := by
      rw [ht'.run_delete hrun']
      exact Store.hasField_removeField_self hs _ _
    exact Or.inl (ht.exists_created hnone hrun hthere)
  · exact Or.inr h
  · obtain ⟨_, _, hop, -⟩ := h
    cases hop

end

/-- Two calls of the repository at once, on a store that works and while the clock stands still, end
    as in one of the two orders, unless one of them is an update that brings back what the other
    deleted. What a call deleted is there in the end only if the other one created it, or brought it
    back in this way. -/
theorem serial_iff_not_revives {keys : Keys} {w : World App} (hw : w.Healthy)
    (hdistinct : w.state.server.store.Distinct) {c c' : Client} {o o' : Outcome} {s' : Store}
    (h : Interleaved Command.carryOut (c.thread keys w.clock) (c'.thread keys w.clock)
      w.state.server.store o o' s') :
    (InOrder keys w c c' o o' s' ∨ InOrder keys w c' c o' o s' ↔
      ¬(Revives keys c.operation c'.operation o o' s' ∨
        Revives keys c'.operation c.operation o' o s')) ∧
    ∀ id page, c'.operation = .delete id page → o' = .removed (.ok true) →
      s'.hasField (keys.page page) id = true →
        (∃ given stored, c.operation = .create (some given) ∧ o = .stored (.ok stored) ∧
          stored.id = id ∧ stored.page = page) ∨
        Revives keys c.operation c'.operation o o' s' := by
  have ht := Operation.shape keys w.clock c.issued c.operation
  have ht' := Operation.shape keys w.clock c'.issued c'.operation
  refine ⟨?_, ?_⟩
  · rw [inOrder_iff hw, inOrder_iff hw]
    constructor
    · rintro hserial (hrevives | hrevives)
      · exact not_serial_of_revives hdistinct ht ht' hrevives hserial
      · exact not_serial_of_revives hdistinct ht' ht hrevives hserial.symm
    · exact fun hnot => (serial_or_revives ht ht' h).resolve_right hnot
  · intro id page hop ho' hthere
    subst ho'
    rw [hop] at ht' ⊢
    refine created_or_revives hdistinct ht ht' ?_ hthere
    rw [← hop]
    exact h

/-! ## An update and a deletion -/

/-- An application with one experiment on one page. -/
def heroStored : World App :=
  (App.start Settings.defaults true 0).withServer
    { Server.fresh true with store := Store.empty.setField (Keys.page ⟨""⟩ "landing") "hero" heroText }

theorem healthy_heroStored : heroStored.Healthy := ⟨rfl, rfl⟩

theorem distinct_heroStored : heroStored.state.server.store.Distinct :=
  Store.distinct_empty.setField _ _ _

/-- An update of the experiment. -/
def updating : Client := ⟨.update (some (hero 0)), 0⟩

/-- Its deletion. -/
def deleting (id : String) : Client := ⟨.delete id "landing", 0⟩

/-- The update finds the experiment, then there is a deletion, and then the update writes. -/
theorem exists_interleaved_other : ∃ s', Interleaved Command.carryOut (updating.thread ⟨""⟩ 0)
    ((deleting "other").thread ⟨""⟩ 0) heroStored.state.server.store
    (.stored (.ok (hero 0))) (.removed (.ok false)) s' :=
  ⟨_, .first (.second (.first (.ended _ _ _)))⟩

theorem exists_interleaved_same : ∃ s', Interleaved Command.carryOut (updating.thread ⟨""⟩ 0)
    ((deleting "hero").thread ⟨""⟩ 0) heroStored.state.server.store
    (.stored (.ok (hero 0))) (.removed (.ok true)) s' ∧
    s'.hasField (Keys.page ⟨""⟩ "landing") "hero" = true :=
  ⟨_, .first (.second (.first (.ended _ _ _))), Store.hasField_setField_self _ _ _ _⟩

theorem serial_iff_not_revives_other :
    heroStored.Healthy ∧ heroStored.state.server.store.Distinct ∧
      ∃ s', Interleaved Command.carryOut (updating.thread ⟨""⟩ heroStored.clock)
          ((deleting "other").thread ⟨""⟩ heroStored.clock) heroStored.state.server.store
          (.stored (.ok (hero 0))) (.removed (.ok false)) s' ∧
        (InOrder ⟨""⟩ heroStored updating (deleting "other") (.stored (.ok (hero 0)))
            (.removed (.ok false)) s' ∨
          InOrder ⟨""⟩ heroStored (deleting "other") updating (.removed (.ok false))
            (.stored (.ok (hero 0))) s') := by
  obtain ⟨s', h⟩ := exists_interleaved_other
  refine ⟨healthy_heroStored, distinct_heroStored, s', h, ?_⟩
  refine (serial_iff_not_revives healthy_heroStored distinct_heroStored h).1.2 ?_
  rintro (⟨_, _, -, -, -, hremoved, -⟩ | ⟨_, _, hop, -⟩)
  · cases hremoved
  · cases hop

/-- A deletion between the two commands of an update is in none of the two orders. -/
theorem not_forall_serial : ¬∀ (keys : Keys) (w : World App) (c c' : Client) (o o' : Outcome)
    (s' : Store), w.Healthy → w.state.server.store.Distinct →
      Interleaved Command.carryOut (c.thread keys w.clock) (c'.thread keys w.clock)
        w.state.server.store o o' s' →
      InOrder keys w c c' o o' s' ∨ InOrder keys w c' c o' o s' := by
  intro h
  obtain ⟨s', hinterleaved, hthere⟩ := exists_interleaved_same
  have hserial := h ⟨""⟩ heroStored updating (deleting "hero") _ _ s' healthy_heroStored
    distinct_heroStored hinterleaved
  rw [inOrder_iff healthy_heroStored, inOrder_iff healthy_heroStored] at hserial
  exact not_serial_of_revives distinct_heroStored (Operation.shape _ _ _ _)
    (Operation.shape _ _ _ _) ⟨hero 0, hero 0, rfl, rfl, rfl, rfl, hthere⟩ hserial

end SplitTest
