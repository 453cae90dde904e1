import SplitTest.Settings.Basic
import SplitTest.Settings.Definition

/-
  Where settings come from: the environment and a settings file, or values that are given at once.
  Names are the same in any case, and the environment goes before the file. A value of the file
  may refer to other names: to those defined before it in the file, and else to the environment.
-/

namespace SplitTest

/-- A name that a value refers to, with what is used when nothing goes by that name. -/
structure Reference where
  name : String
  fallback : String
  deriving DecidableEq, Repr

namespace Reference

/-- The reference at the start of a text, `$` and a name in braces, and what follows it. A
fallback follows the name after `:-`. -/
def read? : List Char → Option (Reference × List Char)
  | '$' :: '\x7b' :: inner =>
    let name := String.ofList (inner.takeWhile fun c => c != '\x7d' && c != ':')
    match inner.dropWhile fun c => c != '\x7d' && c != ':' with
    | '\x7d' :: after => some (⟨name, ""⟩, after)
    | ':' :: '-' :: more =>
      match more.dropWhile (· != '\x7d') with
      | [] => none
      | _ :: after => some (⟨name, String.ofList (more.takeWhile (· != '\x7d'))⟩, after)
    | _ => none
  | _ => none

theorem length_of_read? {cs after : List Char} {r : Reference} (h : read? cs = some (r, after)) :
    after.length < cs.length := by
  unfold read? at h
  split at h
  · next inner =>
    have h₁ := Definition.length_dropWhile_le (p := fun c => c != '\x7d' && c != ':') inner
    dsimp only at h
    split at h
    · next e =>
      simp only [Option.some.injEq, Prod.mk.injEq] at h
      rw [e, h.2] at h₁
      simp only [List.length_cons] at h₁ ⊢
      omega
    · next more e =>
      have h₂ := Definition.length_dropWhile_le (p := (· != '\x7d')) more
      split at h
      · exact absurd h (by simp)
      · next e' =>
        simp only [Option.some.injEq, Prod.mk.injEq] at h
        rw [e] at h₁
        rw [e', h.2] at h₂
        simp only [List.length_cons] at h₁ h₂ ⊢
        omega
    · exact absurd h (by simp)
  · exact absurd h (by simp)

/-- Puts the values of references in their places. -/
def expand (value : Reference → String) (cs : List Char) : List Char :=
  match _ : read? cs with
  | some (r, after) => (value r).toList ++ expand value after
  | none =>
    match cs with
    | [] => []
    | c :: rest => c :: expand value rest
termination_by cs.length
decreasing_by
  · exact length_of_read? ‹_›
  · simp

/-- The value of a reference. A name that the file mentions without a value has an empty one. -/
def value (environment : Table String) (known : Table (Option String)) (r : Reference) : String :=
  match Table.get? r.name known with
  | some defined => defined.getD ""
  | none => (Table.get? r.name environment).getD r.fallback

end Reference

namespace Settings

/-- The definitions of a file with their references resolved, by name: the last one counts, and
a name keeps the place of its first. -/
def defined (environment : Table String) (ds : List Definition) : Table (Option String) :=
  ds.foldl (fun known d =>
    known.put d.name (d.value.map fun v =>
      String.ofList (Reference.expand (Reference.value environment known) v.toList))) []

/-- The lower-case form of a character, as far as names of settings are concerned: the sign of
the unit kelvin is a letter K as well. -/
def lowerChar (c : Char) : Char :=
  if c = '\u212a' then 'k' else c.toLower

/-- A name in the form in which names are compared. -/
def folded (name : String) : String :=
  String.ofList (name.toList.map lowerChar)

/-- Values by the folded forms of their names; the last one counts. -/
def byFolded (t : Table α) : Table α :=
  t.foldl (fun folds e => Table.put (folded e.1) e.2 folds) []

/-- The settings that values under their names make. -/
def ofValues (values : Table Json) : Reading Settings :=
  let folds := byFolded values
  readFields (names.filterMap fun name =>
    (Table.get? (folded name) folds).map fun value => (name, value))

/-- The text that a setting is given. -/
def given? (environment : Table String) (file : Table (Option String)) (name : String) :
    Option String :=
  (Table.get? (folded name) (byFolded environment)).or
    (Table.get? (folded name) (byFolded file)).join

/-- The settings that environment and file make, if they can be read. -/
def ofSources (environment : Table String) (file : Option String) : Reading Settings :=
  let known := defined environment (Definition.ofFile (file.getD ""))
  readFields (names.filterMap fun name =>
    (given? environment known name).map fun text => (name, Json.ofText text))

end Settings

end SplitTest
