import Mathlib
import SplitTest.Proofs.Assignment.Service

/-
  Requests under a deadline.
  A `Supply` is any source of experiments: it takes its time, and then it lists some experiments or
  fails. A request asks it at most once, and the response has all experiments of the list, in order,
  or it is an error. A deadline that comes before the answer turns either into a timeout; one that
  comes after it changes nothing (`deadline_only_times_out`).
-/

namespace SplitTest

/-! ## Deadlines -/

namespace Binary64

variable {x y : Binary64}

theorem lt_iff : x.lt y = true ↔ ∃ a b, x.place = some a ∧ y.place = some b ∧ a < b := by
  unfold lt
  cases x.place <;> cases y.place <;> simp

theorem le_eq_false_of_lt (h : x.lt y = true) : y.le x = false := by
  obtain ⟨a, b, hx, hy, hab⟩ := lt_iff.1 h
  simp only [le, hx, hy, decide_eq_false_iff_not]
  omega

theorem lt_eq_false_of_lt (h : x.lt y = true) : y.lt x = false := by
  obtain ⟨a, b, hx, hy, hab⟩ := lt_iff.1 h
  simp only [lt, hx, hy, decide_eq_false_iff_not]
  omega

/-- What is not above a number is at or below it. -/
theorem le_of_not_lt {a b : Int} (hx : x.place = some a) (hy : y.place = some b)
    (h : ¬x.lt y = true) : y.le x = true := by
  simp only [lt, hx, hy, decide_eq_true_eq] at h
  simp only [le, hx, hy, decide_eq_true_eq]
  omega

/-- What can be compared is a number. -/
theorem ne_nan_of_lt (h : x.lt y = true) : x ≠ .nan ∧ y ≠ .nan := by
  obtain ⟨a, b, hx, hy, -⟩ := lt_iff.1 h
  constructor
  · rintro rfl
    cases hx
  · rintro rfl
    cases hy

end Binary64

section

variable {delay d : Binary64} {deadline : Option Binary64}

theorem isLate_some (h : d ≠ .nan) : isLate delay (some d) = d.lt delay := by
  rw [isLate]
  exact fun hnan => h hnan

/-- A deadline that comes before the answer stops the waiting. -/
theorem isLate_of_lt (h : d.lt delay = true) : isLate delay (some d) = true := by
  rw [isLate_some (Binary64.ne_nan_of_lt h).1, h]

/-- A deadline that has not passed and does not come before the answer, which it can be compared
    with, has no effect. -/
theorem notLate_of_not_lt (hdelay : ∀ d ∈ deadline, d.lt delay = true ∨ delay.lt d = true)
    (h : ∀ d ∈ deadline, d.le .zero = false ∧ d.lt delay = false) :
    Assigner.hasPassed deadline = false ∧ isLate delay deadline = false := by
  cases deadline with
  | none => exact ⟨rfl, rfl⟩
  | some d =>
    obtain ⟨hahead, hnotBefore⟩ := h d rfl
    have hafter : delay.lt d = true :=
      (hdelay d rfl).resolve_left (Bool.eq_false_iff.1 hnotBefore)
    refine ⟨hahead, ?_⟩
    rw [isLate_some (Binary64.ne_nan_of_lt hafter).2]
    exact hnotBefore

/-- A deadline that lies ahead and comes after the answer has no effect. -/
theorem notLate_of_lt (h : ∀ d ∈ deadline, Binary64.zero.lt d = true ∧ delay.lt d = true) :
    Assigner.hasPassed deadline = false ∧ isLate delay deadline = false := by
  apply notLate_of_not_lt
  · intro d hd
    exact Or.inr (h d hd).2
  · intro d hd
    obtain ⟨hzero, hafter⟩ := h d hd
    exact ⟨Binary64.le_eq_false_of_lt hzero, Binary64.lt_eq_false_of_lt hafter⟩

end

/-! ## Supplies -/

/-- A source as those who ask it meet it: the seconds until it answers, and the experiments that it
    lists for a page, or how it fails. -/
structure Supply where
  delay : Binary64
  outcome : String → Except Error (List Experiment)

namespace Supply

/-- What a supply notices. -/
inductive Notice
  | asked (page : String)
  /-- Nobody waits for the answer any more. -/
  | cancelled
  deriving DecidableEq

/-- A page, with the deadline within which it is asked for. -/
abbrev Question := String × Option Binary64

abbrev Answer (_ : Question) := Except Error (List Experiment)

/-- Asking the supply for a page. -/
def source : Source Question Answer := fun page deadline => .ask (page, deadline) .ofExcept

/-- The answer to a question, or a timeout where the deadline comes first. -/
def answer (s : Supply) (q : Question) (w : World (List Notice)) :
    Answer q × World (List Notice) :=
  if isLate s.delay q.2 then
    (.error .timedOut, { w with state := w.state ++ [.asked q.1, .cancelled] })
  else (s.outcome q.1, { w with state := w.state ++ [.asked q.1] })

/-- Answers a request from the supply, under a deadline of the assigner and one of the call. -/
def respond (s : Supply) (own call : Option Binary64) (request : Option Request)
    (w : World (List Notice)) : Except Error Response × World (List Notice) :=
  (Assigner.respond ⟨source, own⟩ request call).run s.answer w

variable (s : Supply) {deadline : Option Binary64} (page : String) (w : World (List Notice))

/-- Without time left the supply is not asked. -/
theorem run_read_of_passed (h : Assigner.hasPassed deadline = true) :
    (Assigner.read source page deadline).run s.answer w = (.error .timedOut, w) := by
  unfold Assigner.read
  rw [if_pos h]
  rfl

theorem run_source :
    (source page deadline).run s.answer w = s.answer (page, deadline) w := by
  show (Program.ofExcept (s.answer (page, deadline) w).1).run s.answer _ = _
  cases h : (s.answer (page, deadline) w).1 with
  | error e => exact Prod.ext h.symm rfl
  | ok es => exact Prod.ext h.symm rfl

theorem run_read_of_late (hpassed : Assigner.hasPassed deadline = false)
    (hlate : isLate s.delay deadline = true) :
    (Assigner.read source page deadline).run s.answer w =
      (.error .timedOut, { w with state := w.state ++ [.asked page, .cancelled] }) := by
  unfold Assigner.read
  rw [hpassed, if_neg Bool.false_ne_true, run_source, answer, if_pos hlate]

theorem run_read_of_inTime (hpassed : Assigner.hasPassed deadline = false)
    (hlate : isLate s.delay deadline = false) :
    (Assigner.read source page deadline).run s.answer w =
      (s.outcome page, { w with state := w.state ++ [.asked page] }) := by
  unfold Assigner.read
  rw [hpassed, if_neg Bool.false_ne_true, run_source, answer, hlate, if_neg Bool.false_ne_true]

end Supply

/-! ## Responses -/

/-- The entry of an experiment: its id and its name, with id, name and all settings of the variant
    that the visitor is allocated to. -/
structure Assigns (key : String) (e : Experiment) (a : AssignedExperiment) : Prop where
  id : a.id = e.id
  name : a.name = e.name
  variant : ∃ allocation, allocate (some e) (some key) = .ok allocation ∧
    a.variant.id = allocation.variant.id ∧ a.variant.name = allocation.variant.name ∧
    a.variant.config.entries = allocation.variant.config.entries

theorem assigns_of_assignedTo {key : String} {e : Experiment} {a : AssignedExperiment}
    (h : assignedTo key e = .ok a) : Assigns key e a := by
  obtain ⟨allocation, hallocate, rfl⟩ := exceptMap_eq_ok_iff.1 h
  exact ⟨rfl, rfl, allocation, hallocate, rfl, rfl, rfl⟩

/-- What becomes of what a source lists, for a visitor with a key: its error as it is, or the error
    of the first experiment without variants, or one entry for every experiment, in order. -/
inductive Results (listed : Except Error (List Experiment)) (key : String) :
    Except Error Response → Prop
  | failed {e : Error} (h : listed = .error e) : Results listed key (.error e)
  | bare {before : List Experiment} {e : Experiment} {later : List Experiment}
      (h : listed = .ok (before ++ e :: later)) (hbefore : ∀ d ∈ before, d.variants ≠ [])
      (he : e.variants = []) : Results listed key (.error (.noVariants e.id))
  | assigned {es : List Experiment} {entries : List AssignedExperiment} (h : listed = .ok es)
      (hvariants : ∀ e ∈ es, e.variants ≠ []) (hentries : List.Forall₂ (Assigns key) es entries) :
      Results listed key (.ok ⟨key, entries⟩)

theorem find?_bare {before later : List Experiment} {e : Experiment}
    (hbefore : ∀ d ∈ before, d.variants ≠ []) (he : e.variants = []) :
    (before ++ e :: later).find? (·.variants.isEmpty) = some e := by
  apply List.find?_eq_some_iff_append.2
  refine ⟨by simp [he], before, later, rfl, ?_⟩
  intro d hd
  simp [hbefore d hd]

/-- A list with an experiment without variants has no other outcome than the error of the first. -/
theorem Results.eq_noVariants {before later : List Experiment} {e : Experiment} {key : String}
    {result : Except Error Response} (hbefore : ∀ d ∈ before, d.variants ≠ []) (he : e.variants = [])
    (h : Results (.ok (before ++ e :: later)) key result) : result = .error (.noVariants e.id) := by
  cases h with
  | failed h => cases h
  | bare h hbefore' he' =>
    have hfirst := (find?_bare hbefore' he').symm.trans
      ((congrArg _ (Except.ok.inj h)).symm.trans (find?_bare hbefore he))
    rw [Option.some.inj hfirst]
  | assigned h hvariants =>
    rw [← Except.ok.inj h] at hvariants
    exact absurd he (hvariants e (by simp))

theorem results_answered {key : String} (hkey : Text.isBlank key = false)
    (listed : Except Error (List Experiment)) : Results listed key (answered key listed) := by
  cases listed with
  | error e => exact .failed rfl
  | ok es =>
    rw [answered_ok]
    rcases mapM_assignedTo_cases hkey es with
      ⟨hvariants, entries, hentries⟩ | ⟨before, e, later, rfl, hbefore, he, hnone⟩
    · rw [hentries]
      exact .assigned rfl hvariants
        ((mapM_eq_ok_iff.1 hentries).imp fun _ _ ha => assigns_of_assignedTo ha)
    · rw [hnone]
      exact .bare rfl hbefore he

/-! ## Requests -/

/-- Over every supply, every request and every deadline of the assigner or the call, of which that of
    the call goes first, other than the time that the supply takes. A request without a page is
    refused before anything happens. Where the deadline has passed the supply is not asked, and where
    it comes before the answer the supply is asked and given up; both are timeouts. Otherwise
    everything is as without a deadline: the supply is asked once, for the page, and its list makes
    the response, as a whole or not at all. -/
theorem deadline_only_times_out (s : Supply) {own call : Option Binary64}
    (hdelay : ∀ d ∈ call.or own, d.lt s.delay = true ∨ s.delay.lt d = true)
    (request : Option Request) (w : World (List Supply.Notice)) :
    (request = none → s.respond own call request w = (.error .noRequest, w)) ∧
    (∀ r ∈ request, Text.isMissing r.page = true →
      s.respond own call request w = (.error (.blank .page), w)) ∧
    ∀ page userId, request = some ⟨some page, userId⟩ → Text.isBlank page = false →
      (∀ d ∈ call.or own, d.le .zero = true →
        (s.respond own call request w).1 = .error .timedOut ∧
        (s.respond own call request w).2.state = w.state) ∧
      (∀ d ∈ call.or own, d.le .zero = false → d.lt s.delay = true →
        (s.respond own call request w).1 = .error .timedOut ∧
        (s.respond own call request w).2.state = w.state ++ [.asked page, .cancelled]) ∧
      ((∀ d ∈ call.or own, d.le .zero = false ∧ d.lt s.delay = false) →
        s.respond own call request w = s.respond none none request w) ∧
      (s.respond none none request w).2.state = w.state ++ [.asked page] ∧
      ∃ key, KnownBy w.issued userId key ∧ Text.isBlank key = false ∧
        Results (s.outcome page) key (s.respond none none request w).1 := by
  refine ⟨?_, ?_, ?_⟩
  · rintro rfl
    rfl
  · intro r hr hmissing
    rw [Option.mem_def.1 hr]
    unfold Supply.respond
    rw [respond_of_missing _ hmissing]
    rfl
  · rintro page userId rfl hpage
    obtain ⟨key, start, hknown, -, hstate, hrespond, hcongr⟩ :=
      exists_run_respond (A := Supply.Answer) s.answer hpage userId w
    have hunlimited :
        (Assigner.read Supply.source page none).run s.answer start =
          (s.outcome page, { start with state := start.state ++ [.asked page] }) :=
      s.run_read_of_inTime page start rfl rfl
    unfold Supply.respond
    refine ⟨?_, ?_, ?_, ?_, key, hknown, hknown.isBlank, ?_⟩
    · intro d hd hle
      have hpassed : Assigner.hasPassed (call.or own) = true := by
        rw [Option.mem_def.1 hd]
        exact hle
      have hread := s.run_read_of_passed page start hpassed
      rw [← hstate]
      exact hrespond ⟨Supply.source, own⟩ call _ _ hread
    · intro d hd hahead hlt
      rw [← hstate]
      refine hrespond ⟨Supply.source, own⟩ call _ _ (s.run_read_of_late page start ?_ ?_)
      · rw [Option.mem_def.1 hd]
        exact hahead
      · rw [Option.mem_def.1 hd]
        exact isLate_of_lt hlt
    · intro hinTime
      obtain ⟨hpassed, hlate⟩ := notLate_of_not_lt hdelay hinTime
      apply hcongr ⟨Supply.source, own⟩ ⟨Supply.source, none⟩
      exact (s.run_read_of_inTime page start hpassed hlate).trans hunlimited.symm
    · rw [← hstate]
      exact (hrespond ⟨Supply.source, none⟩ none _ _ hunlimited).2
    · rw [(hrespond ⟨Supply.source, none⟩ none _ _ hunlimited).1]
      exact results_answered hknown.isBlank _

/-- A supply that takes a second and lists an experiment with variants and one without. -/
def halfBare : Supply where
  delay := .finite false 4607182418800017408
  outcome _ := .ok [underAllocated, Seed.experiment "bare" "Bare" "landing" []]

/-- Five seconds are enough to learn that an experiment has no variants; a call that has no time left
    learns nothing. -/
theorem deadline_only_times_out_halfBare :
    let five := some (.finite false 4617315517961601024)
    let request := some ⟨some "landing", some "ada"⟩
    let w : World (List Supply.Notice) := ⟨0, 0, [], [], []⟩
    (∀ d ∈ (none : Option Binary64).or five,
        d.lt halfBare.delay = true ∨ halfBare.delay.lt d = true) ∧
      (∀ d ∈ (some Binary64.zero).or five,
        d.lt halfBare.delay = true ∨ halfBare.delay.lt d = true) ∧
      (halfBare.respond five none request w).1 = .error (.noVariants "bare") ∧
      (halfBare.respond five none request w).2.state = [.asked "landing"] ∧
      (halfBare.respond five (some .zero) request w).1 = .error .timedOut ∧
      (halfBare.respond five (some .zero) request w).2.state = [] := by
  intro five request w
  have henough : ∀ d ∈ (none : Option Binary64).or five,
      d.lt halfBare.delay = true ∨ halfBare.delay.lt d = true := by
    rintro _ ⟨⟩
    decide
  have hnothing : ∀ d ∈ (some Binary64.zero).or five,
      d.lt halfBare.delay = true ∨ halfBare.delay.lt d = true := by
    rintro _ ⟨⟩
    decide
  obtain ⟨-, -, hnamed⟩ := deadline_only_times_out halfBare henough request w
  obtain ⟨-, -, hinTime, hasked, key, -, -, hresults⟩ := hnamed "landing" _ rfl (by decide)
  have hsame : halfBare.respond five none request w = halfBare.respond none none request w := by
    apply hinTime
    rintro _ ⟨⟩
    decide
  obtain ⟨-, -, hnamed'⟩ := deadline_only_times_out halfBare hnothing request w
  obtain ⟨hpassed, -⟩ := hnamed' "landing" _ rfl (by decide)
  obtain ⟨htimeout, hunasked⟩ := hpassed .zero rfl (by decide)
  rw [hsame]
  refine ⟨henough, hnothing, ?_, hasked, htimeout, hunasked⟩
  have hbefore : ∀ d ∈ [underAllocated], d.variants ≠ [] := by
    decide
  exact Results.eq_noVariants hbefore rfl hresults

end SplitTest
