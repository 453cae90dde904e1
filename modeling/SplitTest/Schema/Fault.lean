/-
  Faults of a document: what is wrong, and where.
-/

namespace SplitTest

/-- What can be wrong with a value. -/
inductive FaultKind
  | jsonInvalid
  | modelType
  | missing
  | stringType
  | listType
  | dictType
  | boolType
  | boolParsing
  | intType
  | intParsing
  | intParsingSize
  | intFromFloat
  | finiteNumber
  | floatType
  | floatParsing
  | greaterThanEqual
  | lessThanEqual
  | datetimeType
  | datetimeParsing
  | datetimeFromDateParsing
  deriving DecidableEq, Repr

/-- The name that a fault is reported under. -/
def FaultKind.code : FaultKind → String
  | .jsonInvalid => "json_invalid"
  | .modelType => "model_type"
  | .missing => "missing"
  | .stringType => "string_type"
  | .listType => "list_type"
  | .dictType => "dict_type"
  | .boolType => "bool_type"
  | .boolParsing => "bool_parsing"
  | .intType => "int_type"
  | .intParsing => "int_parsing"
  | .intParsingSize => "int_parsing_size"
  | .intFromFloat => "int_from_float"
  | .finiteNumber => "finite_number"
  | .floatType => "float_type"
  | .floatParsing => "float_parsing"
  | .greaterThanEqual => "greater_than_equal"
  | .lessThanEqual => "less_than_equal"
  | .datetimeType => "datetime_type"
  | .datetimeParsing => "datetime_parsing"
  | .datetimeFromDateParsing => "datetime_from_date_parsing"

/-- One step on the way to a value inside a document. -/
inductive Place
  | field (name : String)
  | item (index : Nat)
  deriving DecidableEq, Repr

/-- The name of a field, or the number of an item. -/
def Place.text : Place → String
  | .field name => name
  | .item index => toString index

/-- A fault, with the way to it from the top of the document. -/
structure Fault where
  kind : FaultKind
  path : List Place
  deriving DecidableEq, Repr

/-- The same fault seen from one step further out. -/
def Fault.under (place : Place) (f : Fault) : Fault :=
  { f with path := place :: f.path }

end SplitTest
