import Mathlib
import SplitTest.Assignment.Basic
import SplitTest.Proofs.Experiment.Codec

/-
  Responses and their texts.
  The text of a response is that of one JSON object: the key of the visitor, and for every entry the
  id and the name of the experiment with id, name and configuration of the variant (`render_eq`).
  Parsing it gives that object back, but for doubles that JSON has no number for
  (`parse_render`).
-/

namespace SplitTest

/-- What a response says of one experiment, when `value` stands for a value of a configuration. -/
def entryJson (value : ConfigValue → Scalar) (a : AssignedExperiment) : Json :=
  .object
    [("id", .scalar (.text a.id)), ("name", .scalar (.text a.name)),
     ("variant", .object
       [("id", .scalar (.text a.variant.id)), ("name", .scalar (.text a.variant.name)),
        ("config", .object (a.variant.config.entries.map fun c => (c.1, .scalar (value c.2))))])]

/-- What a response says. -/
def bodyJson (value : ConfigValue → Scalar) (key : String) (entries : List AssignedExperiment) :
    Json :=
  .object
    [("sessionId", .scalar (.text key)), ("experiments", .array (entries.map (entryJson value)))]

namespace Response

theorem render_eq (r : Response) :
    r.render = (bodyJson ConfigValue.toScalar r.sessionId r.experiments).compact := by
  rfl

theorem printable_entryJson {a : AssignedExperiment} (h : a.variant.config.Sized) :
    Json.Printable 3 (entryJson ConfigValue.toScalar a) := by
  have hconfig : Json.Printable 1 a.variant.config.toJson := Config.printable_toJson h
  refine .object ?_
  simp only [List.forall_mem_cons]
  refine ⟨.scalar 2 trivial, .scalar 2 trivial, .object ?_, fun f hf => absurd hf List.not_mem_nil⟩
  simp only [List.forall_mem_cons]
  exact ⟨.scalar 1 trivial, .scalar 1 trivial, hconfig, fun f hf => absurd hf List.not_mem_nil⟩

theorem written_entryJson (a : AssignedExperiment) :
    (entryJson ConfigValue.toScalar a).written = entryJson (fun v => v.toScalar.written) a := by
  simp [entryJson, Json.written, Json.writtenFields_eq_map, Scalar.written]

/-- The text of a response without numbers that are too long is the JSON of what it says. -/
theorem parse_render {r : Response} (h : ∀ a ∈ r.experiments, a.variant.config.Sized) :
    Json.parse r.render.toList =
      some (bodyJson (fun v => v.toScalar.written) r.sessionId r.experiments) := by
  have hentries :
      Json.Printable 4 (.array (r.experiments.map (entryJson ConfigValue.toScalar))) := by
    refine .array fun j hj => ?_
    obtain ⟨a, ha, rfl⟩ := List.mem_map.1 hj
    exact printable_entryJson (h a ha)
  have hbody : Json.Printable 5 (bodyJson ConfigValue.toScalar r.sessionId r.experiments) := by
    refine .object ?_
    simp only [List.forall_mem_cons]
    exact ⟨.scalar 4 trivial, hentries, fun f hf => absurd hf List.not_mem_nil⟩
  have hwritten : (bodyJson ConfigValue.toScalar r.sessionId r.experiments).written =
      bodyJson (fun v => v.toScalar.written) r.sessionId r.experiments := by
    simp only [bodyJson, Json.written, Json.writtenFields, Json.writtenItems_eq_map, List.map_map,
      Scalar.written, Function.comp_def, written_entryJson]
  rw [render_eq, Json.compact, String.toList_ofList, Json.parse_render hbody (by decide), hwritten]

end Response

end SplitTest
