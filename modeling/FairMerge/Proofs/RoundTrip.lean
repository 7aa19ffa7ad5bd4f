import FairMerge.Proofs.Parsing
import FairMerge.Wire

/-! # Values on the wire are read back

What is written for a JSON value is one of its spellings, and so the value is read back from it. The
same then holds of each type with a JSON form: the fields of a record are found again under their
names, and a number is read back if it is below the bound that it is read with. -/

namespace FairMerge

namespace Json

/-! ### What is written is a spelling -/

theorem Numeral.spelledBy_spell (numeral : Numeral) : numeral.SpelledBy numeral.spell := by
  cases numeral with
  | natural value => exact .natural value
  | other => exact .other ['-'] 0 (.inr rfl) .absent .absent (.inl (by simp))

namespace Quoted

theorem hexDigit_digitChar {value : Nat} (small : value < 16) : HexDigit value value.digitChar :=
  ⟨small, .inl rfl⟩

theorem code_escape (c : Char) : Code c.toNat (escape c) := by
  unfold escape
  split
  case h_8 =>
    rename_i quote backslash _ _ _ _ _
    split
    · rename_i control
      have zero : HexDigit 0 '0' := hexDigit_digitChar (by decide)
      have high : HexDigit (c.toNat / 16) _ := hexDigit_digitChar (by omega)
      have low : HexDigit (c.toNat % 16) _ := hexDigit_digitChar (by omega)
      have code := Code.hex zero zero high low
      rwa [show 16 * (16 * (16 * 0 + 0) + c.toNat / 16) + c.toNat % 16 = c.toNat by omega] at code
    · rename_i printed
      exact .plain quote backslash (Nat.not_lt.mp printed)
  all_goals exact .named (by simp [letters])

theorem codes_flatMap_escape (cs : List Char) : Codes (cs.map Char.toNat) (cs.flatMap escape) := by
  induction cs with
  | nil => exact .nil
  | cons c cs ih => exact .cons (code_escape c) ih

/-- No two characters are a pair of surrogates, so each stands for itself. -/
theorem means_map_toNat (cs : List Char) : Means (cs.map Char.toNat) cs := by
  induction cs with
  | nil => exact .nil
  | cons c cs ih => exact .char c ih

end Quoted

namespace Token

theorem spelledBy_spell (token : Token) : token.SpelledBy token.spell := by
  cases token with
  | openArray => exact .openArray
  | closeArray => exact .closeArray
  | openObject => exact .openObject
  | closeObject => exact .closeObject
  | comma => exact .comma
  | colon => exact .colon
  | null => exact .null
  | bool value =>
    cases value with
    | true => exact .yes
    | false => exact .no
  | number numeral => exact .number numeral.spelledBy_spell
  | text content =>
    cases content with
    | some content =>
      exact .text (Quoted.codes_flatMap_escape _) (Quoted.means_map_toNat _)
    | none =>
      have zero : Quoted.HexDigit 0 '0' := Quoted.hexDigit_digitChar (by decide)
      have eight : Quoted.HexDigit 8 '8' := Quoted.hexDigit_digitChar (by decide)
      have thirteen : Quoted.HexDigit 13 'd' := Quoted.hexDigit_digitChar (by decide)
      have codes : Quoted.Codes [0xD800] ['\\', 'u', 'd', '8', '0', '0'] :=
        .cons (.hex thirteen eight zero zero) .nil
      refine .broken codes fun chars means => ?_
      have found := Quoted.chars?_of_means means
      cases found

theorem allSpelledBy_flatMap_spell (tokens : List Token) :
    AllSpelledBy tokens (tokens.flatMap spell) := by
  induction tokens with
  | nil => exact .nil (by simp [IsBlank])
  | cons token tokens ih => exact ih.token token.spelledBy_spell

end Token

/-- What is written for a value is one of its spellings. -/
theorem spelledBy_render (json : Json) : json.SpelledBy json.render := by
  rw [SpelledBy, render, String.toList_ofList]
  exact Token.allSpelledBy_flatMap_spell json.tokens

/-- The text of a value stands for the value. -/
@[simp] theorem parse?_render (json : Json) : parse? json.render = some json :=
  parse?_eq_some_iff.mpr json.spelledBy_render

/-! ### Records -/

/-- The values that members have under a name, in their order. -/
def given (members : List (String × Json)) (name : String) : List Json :=
  (members.filter fun member => member.1 == name).map Prod.snd

theorem record_eq (members : List (String × Json)) :
    record members = .object (members.map fun member => (some member.1, member.2)) := rfl

/-- The fields of a record are looked up by their names: whatever stands under other names is passed
over, and no field may be given twice. -/
theorem fields?_record (names : List String) (members : List (String × Json)) :
    (record members).fields? names =
      if ∀ name ∈ names, (given members name).length ≤ 1 then
        some (names.map fun name => (given members name).head?)
      else none := by
  have count : ∀ name, occurrences (members.map fun member => (some member.1, member.2)) name =
      (given members name).length := by
    intro name
    rw [occurrences, List.countP_map, List.countP_eq_length_filter, given, List.length_map]
    rfl
  have first : ∀ name, ((members.map fun member => (some member.1, member.2)).find? fun member =>
      member.1 == some name).map Prod.snd = (given members name).head? := by
    intro name
    rw [List.find?_map, given, List.head?_map, List.head?_filter, Option.map_map]
    rfl
  have named : (members.map fun member => (some member.1, member.2)).all
      (fun member => member.1.isSome) = true := by
    simp
  simp only [record_eq, fields?, count, first, named, Bool.true_and, List.all_eq_true,
    decide_eq_true_eq]

/-- A name that no other member has is given once. -/
theorem given_of_mem {members : List (String × Json)} (distinct : (members.map Prod.fst).Nodup)
    {name : String} {value : Json} (mem : (name, value) ∈ members) :
    given members name = [value] := by
  obtain ⟨before, after, rfl⟩ := List.append_of_mem mem
  rw [List.map_append, List.map_cons, List.nodup_append, List.nodup_cons] at distinct
  obtain ⟨_, ⟨last, _⟩, first⟩ := distinct
  have unbefore : ∀ member ∈ before, ¬(member.1 == name) = true := by
    intro member mem same
    exact first member.1 (List.mem_map_of_mem mem) name (by simp) (eq_of_beq same)
  have unafter : ∀ member ∈ after, ¬(member.1 == name) = true := by
    intro member mem same
    exact last (List.mem_map.mpr ⟨member, mem, eq_of_beq same⟩)
  rw [given, List.filter_append, List.filter_eq_nil_iff.mpr unbefore,
    List.filter_cons_of_pos (by simp), List.filter_eq_nil_iff.mpr unafter]
  rfl

/-- What is written for a record is read back field by field. -/
theorem fields?_record_self {members : List (String × Json)}
    (distinct : (members.map Prod.fst).Nodup) :
    (record members).fields? (members.map Prod.fst) =
      some (members.map fun member => some member.2) := by
  have once : ∀ member ∈ members, given members member.1 = [member.2] :=
    fun member mem => given_of_mem distinct mem
  rw [fields?_record, if_pos, List.map_map]
  · congr 1
    refine List.map_congr_left fun member mem => ?_
    rw [Function.comp, once member mem]
    rfl
  · intro name named
    obtain ⟨member, mem, rfl⟩ := List.mem_map.mp named
    rw [once member mem]
    exact Nat.le_refl 1

theorem natural?_eq_some_iff {bound value : Nat} {json : Json} :
    json.natural? bound = some value ↔ json = .number (.natural value) ∧ value < bound := by
  unfold natural?
  split
  · rw [Option.ite_none_right_eq_some]
    constructor
    · rintro ⟨small, same⟩
      cases same
      exact ⟨rfl, small⟩
    · rintro ⟨same, small⟩
      cases same
      exact ⟨small, rfl⟩
  · rename_i other
    constructor
    · intro known
      cases known
    · rintro ⟨rfl, _⟩
      exact absurd rfl (other value)

end Json

namespace Wire

/-- The text that is written for what is read in a text. -/
def rewrite? (α : Type) [Wire α] (text : String) : Option String :=
  (read? text : Option α).map write

/-- What is written and what is read of a type agree on the values for which its form has room. -/
structure Restored (α : Type) [Wire α] (Fits : α → Prop) : Prop where
  /-- A value is read from every spelling of its form. -/
  spelled : ∀ (value : α) (text : String), Fits value → (toJson value).SpelledBy text →
    read? text = some value
  /-- A value is read from what is written for it. -/
  written : ∀ value : α, Fits value → read? (write value) = some value
  /-- Only values for which there is room are read. -/
  fits : ∀ (text : String) (value : α), read? text = some value → Fits value
  /-- Whatever text a value was read from, it is read from what is written for it as well. -/
  rewritten : ∀ (text : String) (value : α), read? text = some value →
    read? (write value) = some value
  /-- What is written for what was read is written for itself. -/
  idempotent : ∀ text once : String, rewrite? α text = some once → rewrite? α once = some once

/-- A type is restored if its forms are. -/
theorem restored_of_forms {α : Type} [Wire α] {Fits : α → Prop}
    (formed : ∀ value : α, Fits value → ofJson? (toJson value) = some value)
    (fits : ∀ (json : Json) (value : α), ofJson? json = some value → Fits value) :
    Restored α Fits := by
  have spelled : ∀ (value : α) (text : String), Fits value → (toJson value).SpelledBy text →
      read? text = some value := by
    intro value text fit spelling
    rw [read?, Json.parse?_eq_some_iff.mpr spelling]
    exact formed value fit
  have written : ∀ value : α, Fits value → read? (write value) = some value :=
    fun value fit => spelled value _ fit (toJson value).spelledBy_render
  have room : ∀ (text : String) (value : α), read? text = some value → Fits value := by
    intro text value known
    obtain ⟨json, _, formed⟩ := Option.bind_eq_some_iff.mp known
    exact fits json value formed
  refine ⟨spelled, written, room, fun text value known => written value (room text value known), ?_⟩
  intro text once known
  obtain ⟨value, read, rfl⟩ := Option.map_eq_some_iff.mp known
  rw [rewrite?, written value (room text value read)]
  rfl

theorem restored_sourceId : Restored SourceId fun _ => True := by
  refine restored_of_forms (fun id _ => ?_) fun _ _ _ => trivial
  have number : (ofNat id.val.toNat).natural? UInt32.size = some id.val.toNat :=
    Json.natural?_eq_some_iff.mpr ⟨rfl, id.val.toNat_lt_size⟩
  simp [toJson, ofJson?, number]

theorem restored_kind : Restored Kind fun _ => True := by
  refine restored_of_forms (fun kind _ => ?_) fun _ _ _ => trivial
  simp [toJson, ofJson?, Json.alternative?]

theorem restored_capability : Restored Capability fun _ => True := by
  refine restored_of_forms (fun capability _ => ?_) fun _ _ _ => trivial
  simp [toJson, ofJson?, Json.alternative?]

theorem restored_availability :
    Restored Availability fun availability => availability.backlog < UInt64.size := by
  refine restored_of_forms (fun availability fit => ?_) fun json availability known => ?_
  · have fields := @Json.fields?_record_self [
      ("available", .bool availability.available), ("backlog", ofNat availability.backlog)]
      (by simp)
    simp only [List.map_cons, List.map_nil] at fields
    have backlog : count? (ofNat availability.backlog) = some availability.backlog :=
      Json.natural?_eq_some_iff.mpr ⟨rfl, fit⟩
    simp [toJson, ofJson?, fields, Json.bool?, backlog]
  · simp only [ofJson?] at known
    split at known
    · simp only [Option.bind_eq_bind, Option.bind_eq_some_iff, Option.pure_def,
        Option.some.injEq] at known
      obtain ⟨available, _, backlog, counted, rfl⟩ := known
      exact (Json.natural?_eq_some_iff.mp counted).2
    · cases known

theorem restored_stats : Restored Stats fun stats =>
    stats.sources < UInt64.size ∧ stats.queued < UInt64.size ∧
      stats.dataBacklog < UInt64.size ∧ stats.nextSequence < UInt64.size := by
  refine restored_of_forms (fun stats fit => ?_) fun json stats known => ?_
  · have fields := @Json.fields?_record_self [("sources", ofNat stats.sources),
      ("queued", ofNat stats.queued), ("data_backlog", ofNat stats.dataBacklog),
      ("next_sequence", ofNat stats.nextSequence), ("released", .bool stats.released)] (by simp)
    simp only [List.map_cons, List.map_nil] at fields
    obtain ⟨sources, queued, dataBacklog, nextSequence⟩ := fit
    have counted : ∀ {value}, value < UInt64.size → count? (ofNat value) = some value :=
      fun small => Json.natural?_eq_some_iff.mpr ⟨rfl, small⟩
    simp [toJson, ofJson?, fields, Json.bool?, counted sources, counted queued,
      counted dataBacklog, counted nextSequence]
  · simp only [ofJson?] at known
    split at known
    · simp only [Option.bind_eq_bind, Option.bind_eq_some_iff, Option.pure_def,
        Option.some.injEq] at known
      obtain ⟨_, sources, _, queued, _, dataBacklog, _, nextSequence, _, _, rfl⟩ := known
      exact ⟨(Json.natural?_eq_some_iff.mp sources).2, (Json.natural?_eq_some_iff.mp queued).2,
        (Json.natural?_eq_some_iff.mp dataBacklog).2, (Json.natural?_eq_some_iff.mp nextSequence).2⟩
    · cases known

theorem restored_config : Restored Config fun config => config.capacity < UInt64.size := by
  refine restored_of_forms (fun config fit => ?_) fun json config known => ?_
  · have fields := @Json.fields?_record_self [("cache_capacity", ofNat config.capacity)] (by simp)
    simp only [List.map_cons, List.map_nil] at fields
    have capacity : count? (ofNat config.capacity) = some config.capacity :=
      Json.natural?_eq_some_iff.mpr ⟨rfl, fit⟩
    simp [toJson, ofJson?, fields, capacity]
  · simp only [ofJson?] at known
    split at known
    · obtain ⟨capacity, counted, rfl⟩ := Option.map_eq_some_iff.mp known
      exact (Json.natural?_eq_some_iff.mp counted).2
    · cases known
      decide
    · cases known

/-- Every value with a JSON form is read back from what is written for it, as long as its numbers
fit their width, and so is every value that was read from any text: to write what was read and to
read it again gives the same value, and to write that again gives the same text. -/
theorem values_restored :
    Restored SourceId (fun _ => True) ∧ Restored Kind (fun _ => True) ∧
      Restored Capability (fun _ => True) ∧
      Restored Availability (fun availability => availability.backlog < UInt64.size) ∧
      Restored Stats (fun stats =>
        stats.sources < UInt64.size ∧ stats.queued < UInt64.size ∧
          stats.dataBacklog < UInt64.size ∧ stats.nextSequence < UInt64.size) ∧
      Restored Config (fun config => config.capacity < UInt64.size) :=
  ⟨restored_sourceId, restored_kind, restored_capability, restored_availability, restored_stats,
    restored_config⟩

namespace Extreme

/-- Counters at both ends of their range. -/
def stats : Stats := ⟨18446744073709551615, 0, 18446744073709551615, 0, true⟩

/-- The fields stand in another order than they are written in, one under an escaped name, after a
member that is passed over. -/
def text : String :=
  "\x7b\"x\":[\x7b\x7d,null], \"b\\u0061cklog\":18446744073709551615 ,\"available\":false\x7d"

/-- What is written for the value of the text. -/
def once : String := "\x7b\"available\":false,\"backlog\":18446744073709551615\x7d"

end Extreme

open Extreme in
/-- The greatest counts come back, and a text that is spelled otherwise is rewritten once. -/
theorem values_restored_extreme :
    write stats =
        "\x7b\"sources\":18446744073709551615,\"queued\":0,\"data_backlog\":" ++
          "18446744073709551615,\"next_sequence\":0,\"released\":true\x7d" ∧
      read? (write stats) = some stats ∧
      read? text = some (⟨false, 18446744073709551615⟩ : Availability) ∧
      read? (write (⟨false, 18446744073709551615⟩ : Availability)) =
        some (⟨false, 18446744073709551615⟩ : Availability) ∧
      rewrite? Availability text = some once ∧ rewrite? Availability once = some once := by
  obtain ⟨_, _, _, availability, counters, _⟩ := values_restored
  have read : read? text = some (⟨false, 18446744073709551615⟩ : Availability) := by
    decide +kernel
  have rewritten : rewrite? Availability text = some once := by
    decide +kernel
  exact ⟨by decide +kernel, counters.written stats (by decide), read,
    availability.rewritten text _ read, rewritten, availability.idempotent text once rewritten⟩

end Wire

end FairMerge
