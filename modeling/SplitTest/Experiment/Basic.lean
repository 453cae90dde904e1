import SplitTest.Number.Binary64
import SplitTest.Table
import SplitTest.Time.Timestamp

/-
  Experiments.
  An experiment runs on one page and splits its traffic among variants, in their order. What a
  variant changes is a configuration: named values that are flags, numbers or texts.
-/

namespace SplitTest

/-- A value in a configuration. -/
inductive ConfigValue
  | flag (b : Bool)
  | whole (n : Int)
  | real (x : Binary64)
  | text (s : String)
  deriving DecidableEq, Repr

/-- Named values in the order of their first appearance; no name appears twice. -/
@[ext]
structure Config where
  entries : Table ConfigValue
  distinct : entries.names.Nodup
  deriving DecidableEq

namespace Config

def empty : Config := ⟨[], List.nodup_nil⟩

/-- Sets a value, in its place if the name is there. -/
def insert (c : Config) (name : String) (value : ConfigValue) : Config :=
  ⟨c.entries.put name value, Table.nodup_names_put c.distinct⟩

/-- All entries of a list; the last value of a repeated name wins. -/
def ofList (entries : Table ConfigValue) : Config :=
  entries.foldl (fun c e => c.insert e.1 e.2) empty

theorem entries_foldl_insert (entries : Table ConfigValue) (c : Config)
    (h : (Table.names (c.entries ++ entries)).Nodup) :
    (entries.foldl (fun c e => c.insert e.1 e.2) c).entries = c.entries ++ entries := by
  induction entries generalizing c with
  | nil => simp
  | cons e rest ih =>
    have hne : e.1 ∉ c.entries.names := by
      simp only [Table.names, List.map_append, List.map_cons] at h
      intro hm
      exact (List.nodup_append.1 h).2.2 _ hm _ List.mem_cons_self rfl
    have hput : (c.insert e.1 e.2).entries = c.entries ++ [e] := by
      simp [insert, Table.put_of_not_mem _ hne]
    rw [List.foldl_cons, ih, hput]
    · simp
    · rw [hput]; simpa using h

/-- A list without repetitions is taken as it is. -/
theorem entries_ofList {entries : Table ConfigValue}
    (h : entries.names.Nodup) : (ofList entries).entries = entries := by
  have := entries_foldl_insert entries empty (by simpa [empty] using h)
  simpa [empty, ofList] using this

theorem ofList_entries (c : Config) : ofList c.entries = c :=
  Config.ext (entries_ofList c.distinct)

end Config

/-- A share of traffic in percent. -/
abbrev Percentage := Fin 101

instance instNeZeroPercentage : @NeZero Nat Zero.ofOfNat0 101 := ⟨by decide⟩

/-- One of the alternatives of an experiment. -/
structure Variant where
  id : String
  name : String
  traffic : Percentage
  config : Config
  deriving DecidableEq

/-- An experiment, as it is stored. -/
structure Experiment where
  id : String
  name : String
  page : String
  isActive : Bool
  variants : List Variant
  createdAt : Timestamp
  updatedAt : Timestamp
  deriving DecidableEq

end SplitTest
