/-
  Where documents are kept.
  Several environments can share one store: each puts its own text in front of every key.
  The experiments of a page share one hash; the platform statistics have one key.
-/

namespace SplitTest

/-- The key space of one environment. -/
structure Keys where
  /-- The text in front of every key. -/
  environment : String := ""
  deriving DecidableEq, Repr

namespace Keys

/-- What the keys of all pages start with. -/
def pages (k : Keys) : String :=
  k.environment ++ "experiments:"

/-- The key of the hash that holds a page's experiments. -/
def page (k : Keys) (name : String) : String :=
  k.pages ++ name

/-- The key of the platform statistics. -/
def stats (k : Keys) : String :=
  k.environment ++ "platform_stats:current"

/-- Different pages have different hashes. -/
theorem page_injective (k : Keys) {p q : String} (h : k.page p = k.page q) : p = q := by
  have h' := congrArg String.toList h
  simp only [page, String.toList_append, List.append_cancel_left_eq] at h'
  exact String.toList_inj.1 h'

end Keys

end SplitTest
