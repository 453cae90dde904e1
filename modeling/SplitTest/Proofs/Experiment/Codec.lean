import Mathlib
import SplitTest.Experiment.Codec
import SplitTest.Proofs.Json.RoundTrip
import SplitTest.Proofs.Json.Sizes
import SplitTest.Proofs.Schema.Reading
import SplitTest.Proofs.Time.RoundTrip

/-
  Experiments and their documents.
  An experiment that was read from a document is `Sized`: none of its numbers is too long to be
  read again. The document of such an experiment is read as the experiment itself if all doubles in
  it are finite, and not at all otherwise (`ofText_render_eq_value`), whatever the clock shows.
-/

namespace SplitTest

/-! ## What documents can hold -/

/-- A value that JSON has a text for. -/
def ConfigValue.Finite : ConfigValue → Prop
  | .real x => x.isFinite = true
  | _ => True

instance (v : ConfigValue) : Decidable v.Finite :=
  match v with
  | .flag _ | .whole _ | .text _ => .isTrue trivial
  | .real x => inferInstanceAs (Decidable (x.isFinite = true))

/-- All doubles in a configuration are finite. -/
def Config.Finite (c : Config) : Prop := ∀ e ∈ c.entries, e.2.Finite

instance (c : Config) : Decidable c.Finite :=
  inferInstanceAs (Decidable (∀ e ∈ c.entries, e.2.Finite))

/-- No number in a configuration is too long. -/
def Config.Sized (c : Config) : Prop := ∀ e ∈ c.entries, e.2.toScalar.Sized

namespace Experiment

/-- All doubles in the configurations of an experiment are finite. -/
def Finite (e : Experiment) : Prop := ∀ v ∈ e.variants, v.config.Finite

instance (e : Experiment) : Decidable e.Finite :=
  inferInstanceAs (Decidable (∀ v ∈ e.variants, v.config.Finite))

/-- No number in an experiment is too long to be read again. -/
def Sized (e : Experiment) : Prop := ∀ v ∈ e.variants, v.config.Sized

/-- An experiment that some document was read as, at some time. -/
def Accepted (e : Experiment) : Prop := ∃ now s, Experiment.ofText now s = .value e

end Experiment

/-! ## The text of a document -/

theorem Config.printable_toJson {c : Config} (h : c.Sized) : Json.Printable 1 c.toJson := by
  refine .object fun f hf => ?_
  obtain ⟨e, he, rfl⟩ := List.mem_map.1 hf
  exact .scalar 0 (h e he)

theorem Variant.printable_toJson {v : Variant} (h : v.config.Sized) :
    Json.Printable 2 v.toJson := by
  refine .object ?_
  have hsmall : (v.traffic.val : Int).natAbs < 10 ^ Numeral.longest := by
    calc (v.traffic.val : Int).natAbs < 10 ^ 3 := by
          have := v.traffic.isLt
          omega
      _ ≤ 10 ^ Numeral.longest := Nat.pow_le_pow_right (by decide) (by decide)
  simp only [List.forall_mem_cons]
  exact ⟨.scalar 1 trivial, .scalar 1 trivial, .scalar 1 hsmall, Config.printable_toJson h,
    fun f hf => absurd hf List.not_mem_nil⟩

namespace Experiment

theorem printable_toJson {e : Experiment} (h : e.Sized) : Json.Printable 4 e.toJson := by
  refine .object ?_
  have hvariants : Json.Printable 3 (.array (e.variants.map Variant.toJson)) := by
    refine .array fun j hj => ?_
    obtain ⟨v, hv, rfl⟩ := List.mem_map.1 hj
    exact Variant.printable_toJson (h v hv)
  simp only [List.forall_mem_cons]
  exact ⟨.scalar 3 trivial, .scalar 3 trivial, .scalar 3 trivial, .scalar 3 trivial, hvariants,
    .scalar 3 trivial, .scalar 3 trivial, fun f hf => absurd hf List.not_mem_nil⟩

/-- The document of an experiment is JSON. -/
theorem parse_render {e : Experiment} (h : e.Sized) :
    Json.parse e.render.toList = some e.toJson.written := by
  rw [render, Json.compact, String.toList_ofList]
  exact Json.parse_render (printable_toJson h) (by decide)

theorem render_ne_empty (e : Experiment) : e.render ≠ "" :=
  Json.compact_object_ne_empty _

end Experiment

/-! ## Reading a document again -/

theorem forall₂_and_eq_iff {α : Type} {p : α → Prop} {as bs : List α} :
    List.Forall₂ (fun a b => p a ∧ b = a) as bs ↔ (∀ a ∈ as, p a) ∧ bs = as := by
  have hflip : (fun a b : α => p a ∧ b = a) = fun a b => p a ∧ a = b := by
    funext a b
    rw [eq_comm (a := b)]
  rw [hflip, List.forall₂_and_left, List.forall₂_eq_eq_eq, eq_comm (a := as)]

theorem ConfigValue.read_written_eq_value {v w : ConfigValue} :
    read (.scalar v.toScalar.written) = .value w ↔ v.Finite ∧ w = v := by
  match v with
  | .flag b => simp [read, toScalar, Scalar.written, ofScalar?, Finite, eq_comm]
  | .whole n => simp [read, toScalar, Scalar.written, ofScalar?, Finite, eq_comm]
  | .text s => simp [read, toScalar, Scalar.written, ofScalar?, Finite, eq_comm]
  | .real (.finite b r) =>
    simp [read, toScalar, Scalar.written, ofScalar?, Finite, Binary64.isFinite, eq_comm]
  | .real .nan => simp [read, toScalar, Scalar.written, ofScalar?, Finite, Binary64.isFinite]
  | .real (.infinite b) =>
    simp [read, toScalar, Scalar.written, ofScalar?, Finite, Binary64.isFinite]

theorem Config.read_written_eq_value {c d : Config} :
    read c.toJson.written = .value d ↔ c.Finite ∧ d = c := by
  have hentry : ∀ e f : String × ConfigValue,
      (f.1 = e.1 ∧ ConfigValue.read (.scalar e.2.toScalar.written) = .value f.2) ↔
        e.2.Finite ∧ f = e := by
    intro e f
    rw [ConfigValue.read_written_eq_value, Prod.ext_iff]
    tauto
  have hentries : ∀ t, Reading.dict ConfigValue.read c.toJson.written = .value t ↔
      c.Finite ∧ t = c.entries := by
    intro t
    rw [toJson, Json.written, Json.writtenFields_eq_map, List.map_map, Reading.dict,
      Reading.entries_eq_value, List.forall₂_map_left_iff]
    simp only [Function.comp, Json.written, hentry]
    exact forall₂_and_eq_iff
  rw [read, Reading.map_eq_value]
  simp only [hentries]
  constructor
  · intro hparts
    obtain ⟨t, ⟨hc, rfl⟩, rfl⟩ := hparts
    exact ⟨hc, ofList_entries c⟩
  · intro hparts
    obtain ⟨hc, rfl⟩ := hparts
    exact ⟨_, ⟨hc, rfl⟩, ofList_entries d⟩

theorem Percentage.read_ofInt (p : Percentage) : read (.ofInt p.val) = .value p := by
  simp [read, Json.ofInt, Reading.int, Reading.andThen]

theorem Variant.read_written_eq_value {v w : Variant} :
    read v.toJson.written = .value w ↔ v.config.Finite ∧ w = v := by
  obtain ⟨fields, hfields⟩ : ∃ fields : Table Json, fields =
      [("id", .ofText v.id), ("name", .ofText v.name),
       ("trafficPercentage", .ofInt v.traffic.val), ("config", v.config.toJson.written)] :=
    ⟨_, rfl⟩
  have hread : read v.toJson.written = readFields fields := by
    rw [hfields]
    rfl
  have hid : fields.last? "id" = some (.ofText v.id) := by rw [hfields]; rfl
  have hname : fields.last? "name" = some (.ofText v.name) := by rw [hfields]; rfl
  have htraffic : fields.last? "trafficPercentage" = some (.ofInt v.traffic.val) := by
    rw [hfields]
    rfl
  have hconfig : fields.last? "config" = some v.config.toJson.written := by rw [hfields]; rfl
  rw [hread, readFields]
  simp only [Reading.seq_eq_value, Reading.functorMap_eq_value,
    Reading.required_eq_value_of_last? (.only "id") hid,
    Reading.optional_eq_value_of_last? (.only "name") hname,
    Reading.optional_eq_value_of_last? trafficName htraffic,
    Reading.optional_eq_value_of_last? (.only "config") hconfig,
    Config.read_written_eq_value, Percentage.read_ofInt]
  constructor
  · intro hparts
    obtain ⟨_, _, ⟨_, _, ⟨_, _, ⟨_, ⟨⟩, rfl⟩, ⟨⟩, rfl⟩, ⟨⟩, rfl⟩, ⟨hc, rfl⟩, rfl⟩ := hparts
    exact ⟨hc, rfl⟩
  · intro hparts
    obtain ⟨hc, rfl⟩ := hparts
    exact ⟨_, _, ⟨_, _, ⟨_, _, ⟨_, rfl, rfl⟩, rfl, rfl⟩, rfl, rfl⟩, ⟨hc, rfl⟩, rfl⟩

theorem Reading.list_written_eq_value {vs ws : List Variant} :
    list Variant.read (.array (vs.map fun v => v.toJson.written)) = .value ws ↔
      (∀ v ∈ vs, v.config.Finite) ∧ ws = vs := by
  rw [list, items_eq_value, List.forall₂_map_left_iff]
  simp only [Variant.read_written_eq_value]
  exact forall₂_and_eq_iff

theorem Reading.timestamp_ofTimestamp (t : Timestamp) :
    timestamp (.ofTimestamp t) = .value t := by
  rw [Json.ofTimestamp, Json.ofText, timestamp, String.toList_ofList, Timestamp.read_render]
  rfl

namespace Experiment

theorem read_written_eq_value {created updated : Timestamp} {e d : Experiment} :
    read created updated e.toJson.written = .value d ↔ e.Finite ∧ d = e := by
  obtain ⟨fields, hfields⟩ : ∃ fields : Table Json, fields =
      [("id", .ofText e.id), ("name", .ofText e.name), ("page", .ofText e.page),
       ("isActive", .ofBool e.isActive),
       ("variants", .array (e.variants.map fun v => v.toJson.written)),
       ("createdAt", .ofTimestamp e.createdAt), ("updatedAt", .ofTimestamp e.updatedAt)] :=
    ⟨_, rfl⟩
  have hread : read created updated e.toJson.written = readFields created updated fields := by
    rw [hfields, toJson, Json.written]
    simp only [Json.writtenFields, Json.written, Json.writtenItems_eq_map, List.map_map]
    rfl
  have hid : fields.last? "id" = some (.ofText e.id) := by rw [hfields]; rfl
  have hname : fields.last? "name" = some (.ofText e.name) := by rw [hfields]; rfl
  have hpage : fields.last? "page" = some (.ofText e.page) := by rw [hfields]; rfl
  have hactive : fields.last? "isActive" = some (.ofBool e.isActive) := by rw [hfields]; rfl
  have hvariants : fields.last? "variants" =
      some (.array (e.variants.map fun v => v.toJson.written)) := by
    rw [hfields]
    rfl
  have hcreated : fields.last? "createdAt" = some (.ofTimestamp e.createdAt) := by
    rw [hfields]
    rfl
  have hupdated : fields.last? "updatedAt" = some (.ofTimestamp e.updatedAt) := by
    rw [hfields]
    rfl
  rw [hread, readFields]
  simp only [Reading.seq_eq_value, Reading.functorMap_eq_value,
    Reading.optional_eq_value_of_last? (.only "id") hid,
    Reading.optional_eq_value_of_last? (.only "name") hname,
    Reading.optional_eq_value_of_last? (.only "page") hpage,
    Reading.optional_eq_value_of_last? ⟨"isActive", "is_active"⟩ hactive,
    Reading.optional_eq_value_of_last? (.only "variants") hvariants,
    Reading.optional_eq_value_of_last? ⟨"createdAt", "created_at"⟩ hcreated,
    Reading.optional_eq_value_of_last? ⟨"updatedAt", "updated_at"⟩ hupdated,
    Reading.list_written_eq_value, Reading.timestamp_ofTimestamp]
  constructor
  · intro hparts
    obtain ⟨_, _, ⟨_, _, ⟨_, _, ⟨_, _, ⟨_, _, ⟨_, _, ⟨_, ⟨⟩, rfl⟩, ⟨⟩, rfl⟩, ⟨⟩, rfl⟩, ⟨⟩, rfl⟩,
      ⟨hfinite, rfl⟩, rfl⟩, ⟨⟩, rfl⟩, ⟨⟩, rfl⟩ := hparts
    exact ⟨hfinite, rfl⟩
  · intro hparts
    obtain ⟨hfinite, rfl⟩ := hparts
    exact ⟨_, _, ⟨_, _, ⟨_, _, ⟨_, _, ⟨_, _, ⟨_, _, ⟨_, rfl, rfl⟩, rfl, rfl⟩, rfl, rfl⟩, rfl, rfl⟩,
      ⟨hfinite, rfl⟩, rfl⟩, rfl, rfl⟩, rfl, rfl⟩

/-- The document of an experiment is read as the experiment, unless a double in it is not finite:
    then it is not read at all. -/
theorem ofText_render_eq_value {now : Timestamp} {e d : Experiment} (h : e.Sized) :
    ofText now e.render = .value d ↔ e.Finite ∧ d = e := by
  rw [ofText, ofTextAt, Reading.ofText, parse_render h]
  exact read_written_eq_value

end Experiment

/-! ## Accepted experiments are sized -/

theorem exists_of_mem_forall₂ {α β : Type} {R : α → β → Prop} {as : List α} {bs : List β}
    (h : List.Forall₂ R as bs) {b : β} (hb : b ∈ bs) : ∃ a ∈ as, R a b := by
  induction h with
  | nil => exact absurd hb List.not_mem_nil
  | cons hr _ ih =>
    rcases List.mem_cons.1 hb with rfl | hb
    · exact ⟨_, List.mem_cons_self, hr⟩
    · obtain ⟨a, ha, hr⟩ := ih hb
      exact ⟨a, List.mem_cons_of_mem _ ha, hr⟩

theorem Table.mem_put {α : Type} {name : String} {value : α} {t : Table α} {e : String × α}
    (h : e ∈ t.put name value) : e = (name, value) ∨ e ∈ t := by
  induction t with
  | nil => exact Or.inl (List.mem_singleton.1 h)
  | cons entry rest ih =>
    rw [put] at h
    split_ifs at h with hname
    · rcases List.mem_cons.1 h with rfl | h
      · exact Or.inl (by rw [hname])
      · exact Or.inr (List.mem_cons_of_mem _ h)
    · rcases List.mem_cons.1 h with rfl | h
      · exact Or.inr List.mem_cons_self
      · exact (ih h).imp_right (List.mem_cons_of_mem _)

theorem Config.mem_foldl_insert {entries : Table ConfigValue} {c : Config}
    {e : String × ConfigValue}
    (h : e ∈ (entries.foldl (fun c e => c.insert e.1 e.2) c).entries) :
    e ∈ c.entries ∨ e ∈ entries := by
  induction entries generalizing c with
  | nil => exact Or.inl h
  | cons f rest ih =>
    rcases ih h with h | h
    · rcases Table.mem_put h with rfl | h
      · exact Or.inr List.mem_cons_self
      · exact Or.inl h
    · exact Or.inr (List.mem_cons_of_mem _ h)

/-- A configuration made from a list has only entries of that list. -/
theorem Config.mem_entries_ofList {entries : Table ConfigValue} {e : String × ConfigValue}
    (h : e ∈ (ofList entries).entries) : e ∈ entries :=
  (mem_foldl_insert h).resolve_left List.not_mem_nil

theorem Json.Sized.of_mem_object {fields : List (String × Json)} (h : (Json.object fields).Sized) :
    ∀ f ∈ fields, f.2.Sized := by
  cases h with
  | object h => exact h

theorem Json.Sized.of_mem_array {items : List Json} (h : (Json.array items).Sized) :
    ∀ j ∈ items, j.Sized := by
  cases h with
  | array h => exact h

theorem ConfigValue.sized_of_read {j : Json} (hj : j.Sized) {v : ConfigValue}
    (h : read j = .value v) : v.toScalar.Sized := by
  cases hj with
  | scalar hs =>
    rename_i s
    cases s <;> cases h <;> exact hs
  | array _ => cases h
  | object _ => cases h

theorem Config.sized_of_read {j : Json} (hj : j.Sized) {c : Config} (h : read j = .value c) :
    c.Sized := by
  obtain ⟨t, ht, rfl⟩ := Reading.map_eq_value.1 h
  intro e he
  cases j with
  | scalar s => cases ht
  | array items => cases ht
  | object fields =>
    obtain ⟨f, hf, -, hread⟩ := exists_of_mem_forall₂ (Reading.entries_eq_value.1 ht)
      (mem_entries_ofList he)
    exact ConfigValue.sized_of_read (hj.of_mem_object f hf) hread

theorem Variant.sized_of_read {j : Json} (hj : j.Sized) {v : Variant} (h : read j = .value v) :
    v.config.Sized := by
  cases j with
  | scalar s => cases h
  | array items => cases h
  | object fields =>
    simp only [read, Reading.record, readFields, Reading.seq_eq_value,
      Reading.functorMap_eq_value] at h
    obtain ⟨_, c, ⟨_, _, ⟨_, _, ⟨_, -, rfl⟩, -, rfl⟩, -, rfl⟩, hc, rfl⟩ := h
    rcases Reading.exists_of_optional_eq_value hc with rfl | ⟨f, hf, hread⟩
    · exact fun e he => absurd he List.not_mem_nil
    · exact Config.sized_of_read (hj.of_mem_object f hf) hread

namespace Experiment

theorem sized_of_read {created updated : Timestamp} {j : Json} (hj : j.Sized) {e : Experiment}
    (h : read created updated j = .value e) : e.Sized := by
  cases j with
  | scalar s => cases h
  | array items => cases h
  | object fields =>
    simp only [read, Reading.record, readFields, Reading.seq_eq_value,
      Reading.functorMap_eq_value] at h
    obtain ⟨_, _, ⟨_, _, ⟨_, vs, ⟨_, _, ⟨_, _, ⟨_, _, ⟨_, -, rfl⟩, -, rfl⟩, -, rfl⟩, -, rfl⟩,
      hvs, rfl⟩, -, rfl⟩, -, rfl⟩ := h
    rcases Reading.exists_of_optional_eq_value hvs with rfl | ⟨f, hf, hread⟩
    · exact fun v hv => absurd hv List.not_mem_nil
    · intro v hv
      have hsized := hj.of_mem_object f hf
      cases hjson : f.2 with
      | scalar s => rw [hjson] at hread; cases hread
      | object fields => rw [hjson] at hread; cases hread
      | array items =>
        rw [hjson] at hread hsized
        obtain ⟨item, hitem, hvariant⟩ :=
          exists_of_mem_forall₂ (Reading.items_eq_value.1 hread) hv
        exact Variant.sized_of_read (hsized.of_mem_array item hitem) hvariant

theorem sized_of_ofTextAt {created updated : Timestamp} {s : String} {e : Experiment}
    (h : ofTextAt created updated s = .value e) : e.Sized := by
  unfold ofTextAt Reading.ofText at h
  split at h
  · next j hparse => exact sized_of_read (Json.sized_of_parse hparse) h
  · cases h

/-- What was read from a document can be read again, as far as the length of numbers goes. -/
theorem Accepted.sized {e : Experiment} (h : e.Accepted) : e.Sized := by
  obtain ⟨now, s, hread⟩ := h
  exact sized_of_ofTextAt hread

end Experiment

end SplitTest
