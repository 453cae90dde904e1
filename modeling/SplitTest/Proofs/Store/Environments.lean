import Mathlib
import SplitTest.Proofs.Store.Questions

/-
  Environments that share a store.
  The keys of an environment are its prefix, one of two fixed texts, and for the pages a name. Two
  environments with different prefixes share a key exactly when one lies within the pages of the
  other (`Keys.shares_iff`): no proper ending of the text for the pages begins a fixed text, so that
  keys can only meet where one prefix goes on with the text for the pages. A command that is about
  another key leaves a key alone.
-/

namespace SplitTest

namespace Keys

/-! ## The fixed texts -/

/-- What follows the prefix in the keys of the pages. -/
def pagesMark : List Char := "experiments:".toList

/-- What follows the prefix in the key of the statistics. -/
def statsMark : List Char := "platform_stats:current".toList

theorem toList_pages (k : Keys) : k.pages.toList = k.environment.toList ++ pagesMark :=
  String.toList_append

theorem toList_page (k : Keys) (name : String) :
    (k.page name).toList = k.environment.toList ++ (pagesMark ++ name.toList) := by
  rw [page, String.toList_append, toList_pages, List.append_assoc]

theorem toList_stats (k : Keys) : k.stats.toList = k.environment.toList ++ statsMark :=
  String.toList_append

/-- An ending of the first text that is a beginning of the second one is empty or the whole first
    text. -/
def Apart (m m' : List Char) : Prop :=
  ∀ u ∈ m.tails, u ≠ [] → u ≠ m → ¬u <+: m'

instance (m m' : List Char) : Decidable (Apart m m') := by
  unfold Apart
  infer_instance

theorem apart_pages_pages : Apart pagesMark pagesMark := by decide

theorem apart_pages_stats : Apart pagesMark statsMark := by decide

/-- The mark of the pages is nowhere in the mark of the statistics. -/
theorem not_pagesMark_infix : ¬pagesMark <:+: statsMark := by decide

/-- Where a text goes on with a mark, and with some more and then another mark, the first mark is at
    the beginning of what is more. -/
theorem eq_nil_or_exists_of_append_eq {m m' a b t : List Char} (hapart : Apart m m')
    (hlen : m.length ≤ m'.length) (h : m ++ a = t ++ (m' ++ b)) :
    t = [] ∨ ∃ rest, t = m ++ rest := by
  rcases List.append_eq_append_iff.1 h with ⟨rest, ht, -⟩ | ⟨u, hm, hu⟩
  · exact Or.inr ⟨rest, ht⟩
  · have hsuffix : u <:+ m := ⟨t, hm.symm⟩
    have hprefix : u <+: m' := List.prefix_of_prefix_length_le (Exists.intro a hu.symm)
      (List.prefix_append m' b) (hsuffix.length_le.trans hlen)
    by_cases hnil : u = []
    · refine Or.inr ⟨[], ?_⟩
      simp only [hm, hnil, List.append_nil]
    · by_cases hwhole : u = m
      · refine Or.inl ?_
        rw [hwhole] at hm
        exact List.self_eq_append_left.1 hm
      · exact absurd hprefix (hapart u ((List.mem_tails _ _).2 hsuffix) hnil hwhole)

/-! ## Shared keys -/

/-- The prefix of the second environment begins with the keys of the pages of the first one. -/
def Encloses (p q : Keys) : Prop := ∃ rest, q.environment = p.pages ++ rest

theorem encloses_iff {p q : Keys} :
    p.Encloses q ↔ p.environment.toList ++ pagesMark <+: q.environment.toList := by
  rw [← toList_pages]
  constructor
  · rintro ⟨rest, h⟩
    exact ⟨rest.toList, by rw [h, String.toList_append]⟩
  · rintro ⟨rest, h⟩
    exact ⟨String.ofList rest, by
      rw [← String.toList_inj, String.toList_append, String.toList_ofList, h]⟩

section

variable {p q : Keys}

theorem environment_ne (h : p ≠ q) : p.environment.toList ≠ q.environment.toList := by
  intro heq
  rw [String.toList_inj] at heq
  cases p
  cases q
  exact h (congrArg Keys.mk heq)

/-- One prefix goes on with more, where the key of a page is the key of a page or that of the
    statistics: then it goes on with the mark of the pages. -/
theorem encloses_of_append_eq {m' a b t : List Char} (hapart : Apart pagesMark m')
    (hlen : pagesMark.length ≤ m'.length) (hne : p ≠ q)
    (ht : q.environment.toList = p.environment.toList ++ t)
    (h : pagesMark ++ a = t ++ (m' ++ b)) : p.Encloses q := by
  rcases eq_nil_or_exists_of_append_eq hapart hlen h with rfl | ⟨rest, rfl⟩
  · rw [List.append_nil] at ht
    exact absurd ht.symm (environment_ne hne)
  · exact encloses_iff.2 ⟨rest, by rw [ht, List.append_assoc]⟩

theorem encloses_of_page_eq_page {name other : String} (hne : p ≠ q)
    (h : p.page name = q.page other) : p.Encloses q ∨ q.Encloses p := by
  have heq := congrArg String.toList h
  rw [toList_page, toList_page] at heq
  rcases List.append_eq_append_iff.1 heq with ⟨t, ht, hmarks⟩ | ⟨t, ht, hmarks⟩
  · exact Or.inl (encloses_of_append_eq apart_pages_pages (Nat.le_refl _) hne ht hmarks)
  · exact Or.inr (encloses_of_append_eq apart_pages_pages (Nat.le_refl _) hne.symm ht hmarks)

theorem encloses_of_page_eq_stats {name : String} (hne : p ≠ q) (h : p.page name = q.stats) :
    p.Encloses q := by
  have heq := congrArg String.toList h
  rw [toList_page, toList_stats] at heq
  rcases List.append_eq_append_iff.1 heq with ⟨t, ht, hmarks⟩ | ⟨t, ht, hmarks⟩
  · refine encloses_of_append_eq (a := name.toList) (b := []) apart_pages_stats (by decide) hne ht ?_
    rw [List.append_nil]
    exact hmarks
  · refine absurd ⟨t, name.toList, ?_⟩ not_pagesMark_infix
    rw [hmarks, List.append_assoc]

theorem page_ne_stats (p : Keys) (name : String) : p.page name ≠ p.stats := by
  intro h
  have heq := congrArg String.toList h
  rw [toList_page, toList_stats, List.append_cancel_left_eq] at heq
  exact not_pagesMark_infix ⟨[], name.toList, by rw [List.nil_append, heq]⟩

theorem stats_injective (h : p.stats = q.stats) : p = q := by
  by_contra hne
  have heq := congrArg String.toList h
  rw [toList_stats, toList_stats, List.append_cancel_right_eq] at heq
  exact environment_ne hne heq

/-- The key of the statistics of the inner environment is that of a page of the outer one. -/
theorem Encloses.exists_shared (h : p.Encloses q) : ∃ key, p.Uses key ∧ q.Uses key := by
  obtain ⟨rest, hrest⟩ := h
  refine ⟨q.stats, Or.inr ⟨rest ++ "platform_stats:current", ?_⟩, Or.inl rfl⟩
  rw [stats, hrest, page, String.append_assoc]

/-- Different environments share a key exactly when one of them lies within the pages of the
    other. -/
theorem shares_iff (hne : p ≠ q) :
    (∃ key, p.Uses key ∧ q.Uses key) ↔ p.Encloses q ∨ q.Encloses p := by
  constructor
  · rintro ⟨key, rfl | ⟨name, rfl⟩, hq | ⟨other, hq⟩⟩
    · exact absurd (stats_injective hq) hne
    · exact Or.inr (encloses_of_page_eq_stats hne.symm hq.symm)
    · exact Or.inl (encloses_of_page_eq_stats hne hq)
    · exact encloses_of_page_eq_page hne hq
  · rintro (h | h)
    · exact h.exists_shared
    · obtain ⟨key, hq, hp⟩ := h.exists_shared
      exact ⟨key, hp, hq⟩

end

end Keys

/-! ## Commands and keys -/

/-- Two stores that hold the same under a key. -/
def Store.SameAt (s s' : Store) (key : String) : Prop :=
  s'.hash key = s.hash key ∧ s'.text? key = s.text? key

namespace Command

/-- A command leaves every key alone that it is not about. -/
theorem sameAt_perform {c : Command} {key : String} (h : key ∉ c.key?) (s : Store) :
    s.SameAt (c.perform s).2 key := by
  cases c with
  | ping | readText | readHash | readField | hasField => exact ⟨rfl, rfl⟩
  | writeText other text =>
    have hne : key ≠ other := fun heq => h (congrArg some heq.symm)
    exact ⟨rfl, Table.get?_put_of_ne hne text s.texts⟩
  | writeField other field text =>
    have hne : key ≠ other := fun heq => h (congrArg some heq.symm)
    exact ⟨s.hash_setHash_of_ne hne _, rfl⟩
  | addField other field text =>
    have hne : key ≠ other := fun heq => h (congrArg some heq.symm)
    simp only [perform, Store.addField]
    split_ifs
    · exact ⟨rfl, rfl⟩
    · exact ⟨s.hash_setHash_of_ne hne _, rfl⟩
  | removeField other field =>
    have hne : key ≠ other := fun heq => h (congrArg some heq.symm)
    simp only [perform, Store.removeField]
    split_ifs
    · exact ⟨s.hash_setHash_of_ne hne _, rfl⟩
    · exact ⟨rfl, rfl⟩

/-- A command that only looks has the same answer wherever its key holds the same. -/
theorem Looks.perform_congr {c : Command} (hc : c.Looks) {s s' : Store}
    (h : ∀ key ∈ c.key?, s.SameAt s' key) : (c.perform s').1 = (c.perform s).1 := by
  cases c with
  | ping => rfl
  | readText key => exact (h key rfl).2
  | readHash key deadline => exact (h key rfl).1
  | readField key field => exact congrArg (Table.get? field) (h key rfl).1
  | hasField key field => exact congrArg (fun t => (Table.get? field t).isSome) (h key rfl).1
  | writeText | writeField | addField | removeField => exact hc.elim

end Command

end SplitTest
