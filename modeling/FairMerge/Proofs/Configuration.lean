import FairMerge.Proofs.RoundTrip
import FairMerge.View

/-! # Configurations given as texts

A configuration is decoded from an object, of which one field matters, or from an array with a
value for that field. Which texts those are is said by the grammar, so that the outcome of decoding
is known for every text: settings with which a view can be made, settings that make no sense, or
none. -/

namespace FairMerge

open Json (given record)

/-- A text is read as what the value that it spells stands for. -/
theorem Wire.read?_of_spelled {α : Type} [Wire α] {json : Json} {text : String}
    (spelled : json.SpelledBy text) : (Wire.read? text : Option α) = Wire.ofJson? json := by
  rw [Wire.read?, Json.parse?_eq_some_iff.mpr spelled]
  rfl

namespace Config

/-- The configuration that the values given for the capacity come to: the default one if none is
given, and the one with a capacity of 64 bits if it is given alone. -/
inductive Gives : List Json → Config → Prop where
  | default : Gives [] ⟨10⟩
  | capacity {value : Nat} : value < UInt64.size → Gives [.number (.natural value)] ⟨value⟩

/-- The outcome of decoding is that of the values given for the capacity. -/
theorem ofJson?_eq_some_iff {json : Json} {values : List Json} {config : Config}
    (fields : json.fields? ["cache_capacity"] =
      if values.length ≤ 1 then some [values.head?] else none) :
    Wire.ofJson? json = some config ↔ Gives values config := by
  simp only [Wire.ofJson?, fields]
  match values with
  | [] =>
    constructor
    · intro known
      cases known
      exact .default
    · intro gives
      cases gives
      rfl
  | [value] =>
    constructor
    · intro known
      obtain ⟨capacity, counted, rfl⟩ := Option.map_eq_some_iff.mp known
      obtain ⟨rfl, small⟩ := Json.natural?_eq_some_iff.mp counted
      exact .capacity small
    · intro gives
      cases gives with
      | capacity small =>
        exact Option.map_eq_some_iff.mpr ⟨_, Json.natural?_eq_some_iff.mpr ⟨rfl, small⟩, rfl⟩
  | _ :: _ :: _ =>
    rw [if_neg (by simp)]
    constructor
    · intro known
      cases known
    · intro gives
      cases gives

theorem fields?_array (items : List Json) (name : String) :
    (Json.array items).fields? [name] =
      if items.length ≤ 1 then some [items.head?] else none := by
  match items with
  | [] => rfl
  | [_] => rfl
  | _ :: _ :: _ => rw [Json.fields?, List.length_singleton, if_neg (by simp), if_neg (by simp)]

theorem fields?_record_singleton (members : List (String × Json)) (name : String) :
    (record members).fields? [name] =
      if (given members name).length ≤ 1 then some [(given members name).head?] else none := by
  simp [Json.fields?_record]

/-- Fields are found in nothing but an object, whose names then all are texts, and an array. -/
theorem shape_of_fields? {names : List String} {json : Json} {values : List (Option Json)}
    (known : json.fields? names = some values) :
    (∃ members, json = record members) ∨ ∃ items, json = .array items := by
  cases json with
  | array items => exact .inr ⟨items, rfl⟩
  | object members =>
    simp only [Json.fields?] at known
    split at known
    · rename_i sound
      rw [Bool.and_eq_true, List.all_eq_true] at sound
      refine .inl ⟨members.map fun member => (member.1.getD "", member.2), ?_⟩
      rw [Json.record_eq, List.map_map]
      have same : ∀ member ∈ members, member = (some (member.1.getD ""), member.2) := by
        rintro ⟨name, value⟩ mem
        have named := sound.1 _ mem
        cases name with
        | none => cases named
        | some name => rfl
      exact congrArg Json.object ((List.map_id members).symm.trans (List.map_congr_left same))
    · cases known
  | _ => cases known

/-- A configuration comes from an object or an array. -/
theorem shape_of_ofJson? {json : Json} {config : Config}
    (formed : Wire.ofJson? json = some config) :
    (∃ members, json = record members) ∨ ∃ items, json = .array items := by
  simp only [Wire.ofJson?] at formed
  split at formed
  · exact shape_of_fields? (by assumption)
  · exact shape_of_fields? (by assumption)
  · cases formed

theorem read?_record {members : List (String × Json)} {text : String}
    (spelled : (record members).SpelledBy text) {config : Config} :
    Wire.read? text = some config ↔ Gives (given members "cache_capacity") config := by
  rw [Wire.read?_of_spelled spelled]
  exact ofJson?_eq_some_iff (fields?_record_singleton members _)

theorem read?_array {items : List Json} {text : String}
    (spelled : (Json.array items).SpelledBy text) {config : Config} :
    Wire.read? text = some config ↔ Gives items config := by
  rw [Wire.read?_of_spelled spelled]
  exact ofJson?_eq_some_iff (fields?_array items _)

/-! ### The outcome -/

/-- What a text is decoded to decides the outcome. -/
theorem ofText_eq (text : String) : ofText text =
    match (Wire.read? text : Option Config) with
    | none => .error (.serialization "the text is no configuration")
    | some config =>
      if config.capacity = 0 then .error (.invalidConfig "cache_capacity must be at least 1")
      else .ok config := by
  unfold ofText
  cases (Wire.read? text : Option Config) with
  | none => rfl
  | some config =>
    simp only [validate]
    split <;> rfl

theorem ofText_eq_ok_iff {text : String} {config : Config} :
    ofText text = .ok config ↔ Wire.read? text = some config ∧ 1 ≤ config.capacity := by
  rw [ofText_eq]
  cases (Wire.read? text : Option Config) with
  | none => simp
  | some found =>
    by_cases zero : found.capacity = 0
    · simp only [if_pos zero, reduceCtorEq, Option.some.injEq, false_iff, not_and]
      rintro rfl positive
      omega
    · simp only [if_neg zero, Except.ok.injEq, Option.some.injEq, iff_self_and]
      rintro rfl
      exact Nat.pos_of_ne_zero zero

theorem ofText_eq_invalidConfig_iff {text reason : String} :
    ofText text = .error (.invalidConfig reason) ↔
      Wire.read? text = some (⟨0⟩ : Config) ∧ reason = "cache_capacity must be at least 1" := by
  rw [ofText_eq]
  cases (Wire.read? text : Option Config) with
  | none => simp
  | some found =>
    obtain ⟨capacity⟩ := found
    by_cases zero : capacity = 0
    · subst zero
      simp [eq_comm]
    · simp [zero]

theorem ofText_eq_serialization_iff {text : String} :
    (∃ reason, ofText text = .error (.serialization reason)) ↔
      (Wire.read? text : Option Config) = none := by
  rw [ofText_eq]
  cases (Wire.read? text : Option Config) with
  | none => simp
  | some found => by_cases zero : found.capacity = 0 <;> simp [zero]

/-- Sound settings make a view of their capacity. -/
theorem ofConfig_of_pos {config : Config} (positive : 1 ≤ config.capacity) :
    View.ofConfig config = .ok (View.empty config.capacity) := by
  rw [View.ofConfig, validate, if_neg (Nat.ne_zero_of_lt positive)]
  rfl

/-- What comes of a text that is given as a configuration. -/
structure Decoding (text : String) : Prop where
  /-- Settings are given only if they are sound, and a view of their capacity can be made. -/
  sound : ∀ config, ofText text = .ok config → 1 ≤ config.capacity ∧
    ∃ view, View.ofConfig config = .ok view ∧ view.capacity = config.capacity
  /-- Settings are given if the text decodes to them and they are sound. -/
  decoded : ∀ config, ofText text = .ok config ↔
    Wire.read? text = some config ∧ 1 ≤ config.capacity
  /-- Settings make no sense if the text decodes to a capacity of zero. -/
  senseless : ∀ reason, ofText text = .error (.invalidConfig reason) ↔
    Wire.read? text = some (⟨0⟩ : Config) ∧ reason = "cache_capacity must be at least 1"
  /-- The text cannot be read if it does not decode. -/
  unreadable : (∃ reason, ofText text = .error (.serialization reason)) ↔
    (Wire.read? text : Option Config) = none
  /-- Decoding fails in no other way. -/
  failures : ∀ cause, ofText text = .error cause →
    (∃ reason, cause = .invalidConfig reason) ∨ ∃ reason, cause = .serialization reason
  /-- An object decodes if its field is not given, or is given once as a natural number of 64
  bits. -/
  object : ∀ members, (record members).SpelledBy text → ∀ config : Config,
    Wire.read? text = some config ↔ Gives (given members "cache_capacity") config
  /-- An array decodes if it is empty, or holds one natural number of 64 bits. -/
  array : ∀ items, (Json.array items).SpelledBy text → ∀ config : Config,
    Wire.read? text = some config ↔ Gives items config
  /-- Nothing else decodes; where a surrogate stands alone in a name, there is no object. -/
  shape : ∀ config : Config, Wire.read? text = some config →
    (∃ members, (record members).SpelledBy text) ∨ ∃ items, (Json.array items).SpelledBy text
  /-- The other fields of an object have no influence, nor has their order or any blank. -/
  others : ∀ members changed other, (record members).SpelledBy text →
    (record changed).SpelledBy other →
    given changed "cache_capacity" = given members "cache_capacity" → ofText other = ofText text

/-- For every text it is known what comes of it. -/
theorem texts_decoded (text : String) : Decoding text where
  sound := by
    intro config known
    obtain ⟨_, positive⟩ := ofText_eq_ok_iff.mp known
    exact ⟨positive, View.empty config.capacity, ofConfig_of_pos positive, rfl⟩
  decoded := fun _ => ofText_eq_ok_iff
  senseless := fun _ => ofText_eq_invalidConfig_iff
  unreadable := ofText_eq_serialization_iff
  failures := by
    intro cause known
    rw [ofText_eq] at known
    split at known
    · cases known
      exact .inr ⟨_, rfl⟩
    · split at known
      · cases known
        exact .inl ⟨_, rfl⟩
      · cases known
  object := fun _ spelled _ => read?_record spelled
  array := fun _ spelled _ => read?_array spelled
  shape := by
    intro config known
    obtain ⟨json, spelled, formed⟩ := Option.bind_eq_some_iff.mp known
    rw [Json.parse?_eq_some_iff] at spelled
    rcases shape_of_ofJson? formed with ⟨members, rfl⟩ | ⟨items, rfl⟩
    · exact .inl ⟨members, spelled⟩
    · exact .inr ⟨items, spelled⟩
  others := by
    intro members changed other spelled respelled same
    have decoded : (Wire.read? other : Option Config) = Wire.read? text := by
      ext config
      rw [read?_record spelled, read?_record respelled, same]
    rw [ofText_eq, ofText_eq, decoded]

namespace Disguised

/-- The field is given after another one, under an escaped name and with the greatest number. The
other one holds the name and half of a pair of surrogates, which matters to nobody. -/
def text : String :=
  "\x7b \"x\\u0079\" : [\x7b\"cache_capacity\":-0.5e+3\x7d, \"\\ud800\"],\t" ++
    "\"\\u0063ache_capacity\" : 18446744073709551615 \x7d\n"

def members : List (String × Json) := [
  ("xy", .array [.object [(some "cache_capacity", .number .other)], .text none]),
  ("cache_capacity", .number (.natural 18446744073709551615))]

theorem spelled : (record members).SpelledBy text :=
  (Json.Token.ofText?_eq_some_iff (Json.separated_tokens _)).mp (by decide +kernel)

/-- The field is given twice. -/
def twice : List (String × Json) := members ++ members

end Disguised

open Disguised in
/-- The disguise is seen through, and what is given twice or is zero is refused. -/
theorem texts_decoded_disguised :
    ofText text = .ok ⟨18446744073709551615⟩ ∧
      (∃ view, View.ofConfig ⟨18446744073709551615⟩ = .ok view ∧
        view.capacity = 18446744073709551615) ∧
      ofText (record members).render = ofText text ∧
      ofText "[0]" = .error (.invalidConfig "cache_capacity must be at least 1") ∧
      ∃ reason, ofText (record twice).render = .error (.serialization reason) := by
  have read : Wire.read? text = some (⟨18446744073709551615⟩ : Config) :=
    ((texts_decoded text).object members spelled _).mpr (.capacity (by decide))
  have given : ofText text = .ok ⟨18446744073709551615⟩ :=
    ((texts_decoded text).decoded _).mpr ⟨read, by decide⟩
  have zero : (Json.array [.number (.natural 0)]).SpelledBy "[0]" :=
    (Json.Token.ofText?_eq_some_iff (Json.separated_tokens _)).mp (by decide +kernel)
  have senseless : Wire.read? "[0]" = some (⟨0⟩ : Config) :=
    ((texts_decoded "[0]").array _ zero _).mpr (.capacity (by decide))
  have refused : (Wire.read? (record twice).render : Option Config) = none := by
    refine Option.eq_none_iff_forall_ne_some.mpr fun config decoded => ?_
    cases ((texts_decoded _).object twice (Json.spelledBy_render _) config).mp decoded
  exact ⟨given, ((texts_decoded text).sound _ given).2,
    (texts_decoded text).others members members _ spelled (Json.spelledBy_render _) rfl,
    ((texts_decoded "[0]").senseless _).mpr ⟨senseless, rfl⟩,
    (texts_decoded _).unreadable.mpr refused⟩

end Config

end FairMerge
