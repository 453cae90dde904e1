import SplitTest.Table

/-
  The store: texts under keys, and hashes, which are tables of texts under keys.
  A hash comes into being with its first field and stays when its last field is removed.
-/

namespace SplitTest

/-- The contents of a store. -/
structure Store where
  hashes : Table (Table String)
  texts : Table String
  deriving DecidableEq, Repr

namespace Store

def empty : Store := ⟨[], []⟩

/-- The fields of a hash; a hash that is not there has none. -/
def hash (s : Store) (key : String) : Table String :=
  (s.hashes.get? key).getD []

/-- The text of a field. -/
def field? (s : Store) (key field : String) : Option String :=
  (s.hash key).get? field

/-- The text under a key. -/
def text? (s : Store) (key : String) : Option String :=
  s.texts.get? key

def hasField (s : Store) (key field : String) : Bool :=
  (s.field? key field).isSome

/-- Replaces the fields of a hash. -/
def setHash (s : Store) (key : String) (fields : Table String) : Store :=
  { s with hashes := s.hashes.put key fields }

/-- Sets a field. -/
def setField (s : Store) (key field text : String) : Store :=
  s.setHash key ((s.hash key).put field text)

/-- Sets a field that is not there; one that is there stays as it is. -/
def addField (s : Store) (key field text : String) : Store :=
  if s.hasField key field then s else s.setField key field text

/-- Removes a field. -/
def removeField (s : Store) (key field : String) : Store :=
  if s.hasField key field then s.setHash key ((s.hash key).remove field) else s

/-- Sets the text under a key. -/
def setText (s : Store) (key text : String) : Store :=
  { s with texts := s.texts.put key text }

theorem hash_setHash_self (s : Store) (key : String) (fields : Table String) :
    (s.setHash key fields).hash key = fields := by
  simp [hash, setHash, Table.get?_put_self]

theorem hash_setHash_of_ne (s : Store) {key other : String} (h : other ≠ key)
    (fields : Table String) : (s.setHash key fields).hash other = s.hash other := by
  simp [hash, setHash, Table.get?_put_of_ne h]

theorem field?_setField_self (s : Store) (key field text : String) :
    (s.setField key field text).field? key field = some text := by
  simp [field?, setField, hash_setHash_self, Table.get?_put_self]

theorem text?_setText_self (s : Store) (key text : String) :
    (s.setText key text).text? key = some text := by
  simp [text?, setText, Table.get?_put_self]

end Store

end SplitTest
