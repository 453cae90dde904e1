import SplitTest.Experiment.Codec

/-
  What is asked for and what is answered: the page and the visitor, and for every running
  experiment the variant that the visitor gets.
-/

namespace SplitTest

/-- A question for the assignments on a page; without a user the visitor stays anonymous. -/
structure Request where
  page : Option String
  userId : Option String
  deriving DecidableEq, Repr

/-- A variant as a visitor sees it. -/
structure AssignedVariant where
  id : String
  name : String
  config : Config
  deriving DecidableEq

/-- An experiment with the variant that was assigned. -/
structure AssignedExperiment where
  id : String
  name : String
  variant : AssignedVariant
  deriving DecidableEq

/-- All assignments of one visitor on one page. -/
structure Response where
  sessionId : String
  experiments : List AssignedExperiment
  deriving DecidableEq

/-- What a visitor sees of a variant. -/
def Variant.assigned (v : Variant) : AssignedVariant :=
  ⟨v.id, v.name, v.config⟩

/-- An experiment with one of its variants. -/
def Experiment.assigned (e : Experiment) (v : Variant) : AssignedExperiment :=
  ⟨e.id, e.name, v.assigned⟩

namespace Request

def readFields (fields : Table Json) : Reading Request :=
  Request.mk <$> Reading.optional (.only "page") none Reading.optionalText fields
    <*> Reading.optional ⟨"userId", "user_id"⟩ none Reading.optionalText fields

def read : Json → Reading Request :=
  Reading.record readFields

def toJson (r : Request) : Json :=
  .object [("page", .ofOption .ofText r.page), ("userId", .ofOption .ofText r.userId)]

def render (r : Request) : String := r.toJson.compact

end Request

namespace AssignedVariant

def readFields (fields : Table Json) : Reading AssignedVariant :=
  AssignedVariant.mk <$> Reading.required (.only "id") Reading.text fields
    <*> Reading.optional (.only "name") "" Reading.text fields
    <*> Reading.optional (.only "config") Config.empty Config.read fields

def read : Json → Reading AssignedVariant :=
  Reading.record readFields

def toJson (v : AssignedVariant) : Json :=
  .object [("id", .ofText v.id), ("name", .ofText v.name), ("config", v.config.toJson)]

def render (v : AssignedVariant) : String := v.toJson.compact

end AssignedVariant

namespace AssignedExperiment

def readFields (fields : Table Json) : Reading AssignedExperiment :=
  AssignedExperiment.mk <$> Reading.required (.only "id") Reading.text fields
    <*> Reading.required (.only "name") Reading.text fields
    <*> Reading.required (.only "variant") AssignedVariant.read fields

def read : Json → Reading AssignedExperiment :=
  Reading.record readFields

def toJson (e : AssignedExperiment) : Json :=
  .object [("id", .ofText e.id), ("name", .ofText e.name), ("variant", e.variant.toJson)]

def render (e : AssignedExperiment) : String := e.toJson.compact

end AssignedExperiment

namespace Response

def readFields (fields : Table Json) : Reading Response :=
  Response.mk <$> Reading.required ⟨"sessionId", "session_id"⟩ Reading.text fields
    <*> Reading.optional (.only "experiments") [] (Reading.list AssignedExperiment.read) fields

def read : Json → Reading Response :=
  Reading.record readFields

def toJson (r : Response) : Json :=
  .object
    [("sessionId", .ofText r.sessionId),
     ("experiments", .array (r.experiments.map AssignedExperiment.toJson))]

def render (r : Response) : String := r.toJson.compact

end Response

end SplitTest
