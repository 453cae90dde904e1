import SplitTest.Experiment.Basic
import SplitTest.Schema.Document

/-
  Experiments as documents.
  Every field goes by a written name; some are also read under a second one. Fields that may be
  missing have defaults; that of a timestamp is the time at which it is found missing, so a document
  without both is read with two moments.
-/

namespace SplitTest

namespace ConfigValue

def toScalar : ConfigValue → Scalar
  | .flag b => .bool b
  | .whole n => .int n
  | .real x => .float x
  | .text s => .text s

/-- The kind of a scalar decides the kind of the value: nothing is converted. -/
def ofScalar? : Scalar → Option ConfigValue
  | .null => none
  | .bool b => some (.flag b)
  | .int n => some (.whole n)
  | .float x => some (.real x)
  | .text s => some (.text s)

/-- What a value that is of none of the four kinds is reported as: one fault for each kind. -/
def noKind : List Fault :=
  [⟨.boolType, [.field "bool"]⟩, ⟨.intType, [.field "int"]⟩, ⟨.floatType, [.field "float"]⟩,
   ⟨.stringType, [.field "str"]⟩]

def read : Json → Reading ConfigValue
  | .scalar s =>
    match ofScalar? s with
    | some v => .value v
    | none => .faults noKind
  | _ => .faults noKind

end ConfigValue

namespace Config

def read (j : Json) : Reading Config :=
  (Reading.dict ConfigValue.read j).map ofList

def toJson (c : Config) : Json :=
  .object (c.entries.map fun e => (e.1, .scalar e.2.toScalar))

end Config

namespace Percentage

/-- A whole number from 0 to 100. -/
def read (j : Json) : Reading Percentage :=
  (Reading.int j).andThen fun n =>
    if n < 0 then .fail .greaterThanEqual
    else if h : n.toNat < 101 then .value ⟨n.toNat, h⟩
    else .fail .lessThanEqual

end Percentage

namespace Variant

def trafficName : Reading.Name := ⟨"trafficPercentage", "traffic_percentage"⟩

def readFields (fields : Table Json) : Reading Variant :=
  Variant.mk <$> Reading.required (.only "id") Reading.text fields
    <*> Reading.optional (.only "name") "" Reading.text fields
    <*> Reading.optional trafficName 0 Percentage.read fields
    <*> Reading.optional (.only "config") Config.empty Config.read fields

def read : Json → Reading Variant :=
  Reading.record readFields

def toJson (v : Variant) : Json :=
  .object
    [("id", .ofText v.id), ("name", .ofText v.name), ("trafficPercentage", .ofInt v.traffic.val),
     ("config", v.config.toJson)]

/-- The text of a variant. -/
def render (v : Variant) : String := v.toJson.compact

end Variant

namespace Experiment

/-- Reads the fields of an experiment; `created` and `updated` stand in for missing timestamps. -/
def readFields (created updated : Timestamp) (fields : Table Json) : Reading Experiment :=
  Experiment.mk <$> Reading.optional (.only "id") "" Reading.text fields
    <*> Reading.optional (.only "name") "" Reading.text fields
    <*> Reading.optional (.only "page") "" Reading.text fields
    <*> Reading.optional ⟨"isActive", "is_active"⟩ true Reading.truth fields
    <*> Reading.optional (.only "variants") [] (Reading.list Variant.read) fields
    <*> Reading.optional ⟨"createdAt", "created_at"⟩ created Reading.timestamp fields
    <*> Reading.optional ⟨"updatedAt", "updated_at"⟩ updated Reading.timestamp fields

/-- Reads an experiment. -/
def read (created updated : Timestamp) : Json → Reading Experiment :=
  Reading.record (readFields created updated)

def toJson (e : Experiment) : Json :=
  .object
    [("id", .ofText e.id), ("name", .ofText e.name), ("page", .ofText e.page),
     ("isActive", .ofBool e.isActive), ("variants", .array (e.variants.map Variant.toJson)),
     ("createdAt", .ofTimestamp e.createdAt), ("updatedAt", .ofTimestamp e.updatedAt)]

/-- The document of an experiment. -/
def render (e : Experiment) : String := e.toJson.compact

/-- Reads the document of an experiment; `created` and `updated` stand in for missing timestamps. -/
def ofTextAt (created updated : Timestamp) (s : String) : Reading Experiment :=
  Reading.ofText (read created updated) s

/-- Reads the document of an experiment at one moment, which stands in for both timestamps. -/
def ofText (now : Timestamp) (s : String) : Reading Experiment :=
  ofTextAt now now s

end Experiment

end SplitTest
