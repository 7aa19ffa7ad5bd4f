import FairMerge.Proofs.Scanning

/-! # Parsing

A text is read as a value exactly if it is one of the value's spellings (`parse?_eq_some_iff`): the
tokens of a value are read as that value, and the state of reading tells which tokens were read, so
that a complete value was read from its tokens. In the tokens of a value a mark stands between any
two bare words, and so the scanner finds them in every spelling. -/

namespace FairMerge.Json

/-! ### Bare words stand apart -/

namespace Token

/-- A token that is no bare word separates what stands before it from what follows. -/
theorem separated_append_cons {token : Token} (before after : List Token)
    (unbare : token.isBare = false) :
    separated (before ++ token :: after) = (separated before && separated after) := by
  have behind : separated (token :: after) = separated after := by
    cases after <;> simp [separated, unbare]
  induction before with
  | nil => simpa [separated] using behind
  | cons first before ih =>
    cases before with
    | nil => simp [separated, unbare, behind]
    | cons second before =>
      simp only [List.cons_append, separated] at ih ⊢
      rw [ih, Bool.and_assoc]

end Token

open Token (separated separated_append_cons)

/-- A token that is no bare word may stand in front. -/
theorem separated_cons {token : Token} (tokens : List Token) (unbare : token.isBare = false) :
    separated (token :: tokens) = separated tokens := by
  have front := separated_append_cons [] tokens unbare
  simpa [separated] using front

mutual

theorem separated_tokens : ∀ json : Json, separated json.tokens = true
  | null => rfl
  | bool _ => rfl
  | number _ => rfl
  | text _ => rfl
  | array [] => rfl
  | array (item :: items) => by
    have inside := separated_append_itemTokens items (tokens item) (separated_tokens item)
    rw [tokens, separated_append_cons _ _ rfl, List.cons_append, separated_cons _ rfl, inside]
    rfl
  | object [] => rfl
  | object ((name, value) :: members) => by
    have inside := separated_append_memberTokens members (tokens value) (separated_tokens value)
    rw [tokens, separated_append_cons _ _ rfl, List.cons_append, List.cons_append,
      List.cons_append, separated_cons _ rfl, separated_cons _ rfl, separated_cons _ rfl, inside]
    rfl

theorem separated_append_itemTokens : ∀ (items : List Json) (before : List Token),
    separated before = true → separated (before ++ itemTokens items) = true
  | [], before, apart => by simpa [itemTokens] using apart
  | item :: items, before, apart => by
    have inside := separated_append_itemTokens items (tokens item) (separated_tokens item)
    rw [itemTokens, List.cons_append, separated_append_cons _ _ rfl, apart, inside]
    rfl

theorem separated_append_memberTokens :
    ∀ (members : List (Option String × Json)) (before : List Token),
      separated before = true → separated (before ++ memberTokens members) = true
  | [], before, apart => by simpa [memberTokens] using apart
  | (name, value) :: members, before, apart => by
    have inside := separated_append_memberTokens members (tokens value) (separated_tokens value)
    rw [memberTokens, List.cons_append, List.cons_append, List.cons_append,
      separated_append_cons _ _ rfl, apart, separated_cons _ rfl, separated_cons _ rfl, inside]
    rfl

end

/-! ### The tokens of a value are read -/

/-- The state that reading the tokens is in, from a state on. -/
def readFrom (reading : Reading) (tokens : List Token) : Option Reading :=
  tokens.foldlM Reading.next reading

@[simp] theorem readFrom_cons (reading : Reading) (token : Token) (tokens : List Token) :
    readFrom reading (token :: tokens) =
      (reading.next token).bind fun next => readFrom next tokens := rfl

/-- The first item of an array is read like any other value. -/
theorem readFrom_firstItem (json : Json) (frames : List Frame) (rest : List Token) :
    readFrom (.awaiting .firstItem frames) (json.tokens ++ rest) =
      readFrom (.awaiting .value frames) (json.tokens ++ rest) := by
  cases json with
  | null | bool _ | number _ | text _ => cases frames <;> rfl
  | array items => cases items <;> cases frames <;> rfl
  | object members =>
    cases members with
    | nil => cases frames <;> rfl
    | cons member members => obtain ⟨name, value⟩ := member; cases frames <;> rfl

mutual

/-- Reading the tokens of a value puts the value in its place. -/
theorem readFrom_tokens : ∀ (json : Json) (frames : List Frame) (rest : List Token),
    readFrom (.awaiting .value frames) (json.tokens ++ rest) =
      (Reading.put frames json).bind fun next => readFrom next rest
  | null, frames, rest => rfl
  | bool _, frames, rest => rfl
  | number _, frames, rest => rfl
  | text _, frames, rest => rfl
  | array [], frames, rest => rfl
  | array (item :: items), frames, rest => by
    have first := readFrom_tokens item (.array [] :: frames)
      (itemTokens items ++ .closeArray :: rest)
    have others := readFrom_itemTokens items [item] frames rest
    rw [tokens, List.append_assoc, List.append_assoc, List.cons_append, List.cons_append]
    simp only [readFrom_cons, Reading.next, Reading.begin, Option.bind_some, List.nil_append]
    rw [readFrom_firstItem, first]
    simpa [Reading.put] using others
  | object [], frames, rest => rfl
  | object ((name, value) :: members), frames, rest => by
    have first := readFrom_tokens value (.member [] name :: frames)
      (memberTokens members ++ .closeObject :: rest)
    have others := readFrom_memberTokens members [(name, value)] frames rest
    rw [tokens, List.append_assoc, List.append_assoc, List.cons_append, List.cons_append]
    simp only [readFrom_cons, Reading.next, Reading.begin, Option.bind_some, List.nil_append,
      List.cons_append]
    rw [first]
    simpa [Reading.put] using others

/-- Reading the items after the first ends the array. -/
theorem readFrom_itemTokens : ∀ (items done : List Json) (frames : List Frame)
    (rest : List Token),
    readFrom (.awaiting .separator (.array done :: frames))
        (itemTokens items ++ .closeArray :: rest) =
      (Reading.put frames (.array (done ++ items))).bind fun next => readFrom next rest
  | [], done, frames, rest => by simp [itemTokens, Reading.next]
  | item :: items, done, frames, rest => by
    have first := readFrom_tokens item (.array done :: frames)
      (itemTokens items ++ .closeArray :: rest)
    have others := readFrom_itemTokens items (done ++ [item]) frames rest
    rw [itemTokens, List.cons_append, List.cons_append, List.append_assoc, readFrom_cons]
    simp only [Reading.next, Option.bind_some]
    rw [first]
    simpa [Reading.put] using others

/-- Reading the members after the first ends the object. -/
theorem readFrom_memberTokens : ∀ (members done : List (Option String × Json))
    (frames : List Frame) (rest : List Token),
    readFrom (.awaiting .separator (.object done :: frames))
        (memberTokens members ++ .closeObject :: rest) =
      (Reading.put frames (.object (done ++ members))).bind fun next => readFrom next rest
  | [], done, frames, rest => by simp [memberTokens, Reading.next]
  | (name, value) :: members, done, frames, rest => by
    have first := readFrom_tokens value (.member done name :: frames)
      (memberTokens members ++ .closeObject :: rest)
    have others := readFrom_memberTokens members (done ++ [(name, value)]) frames rest
    rw [memberTokens]
    simp only [List.cons_append, List.append_assoc, readFrom_cons, Reading.next, Option.bind_some]
    rw [first]
    simpa [Reading.put] using others

end

/-- The tokens of a value are read as the value. -/
@[simp] theorem ofTokens?_tokens (json : Json) : ofTokens? json.tokens = some json := by
  have read := readFrom_tokens json [] []
  simp only [List.append_nil] at read
  unfold ofTokens?
  unfold readFrom at read
  rw [read]
  rfl

/-! ### What is read are the tokens of a value -/

/-- The tokens of an array that goes on with an item. -/
def itemsSpent (items : List Json) : List Token :=
  .openArray :: items.flatMap fun item => item.tokens ++ [.comma]

/-- The tokens of an object that goes on with a name. -/
def membersSpent (members : List (Option String × Json)) : List Token :=
  .openObject :: members.flatMap fun member =>
    .text member.1 :: .colon :: member.2.tokens ++ [.comma]

/-- The tokens of what is complete in a frame that goes on. -/
def Frame.spent : Frame → List Token
  | .array items => itemsSpent items
  | .object members => membersSpent members
  | .member members name => membersSpent members ++ [.text name, .colon]

/-- The tokens spent on the frames, of which the innermost is the first. -/
def spentOn : List Frame → List Token
  | [] => []
  | frame :: frames => spentOn frames ++ frame.spent

/-- The tokens that were read to come to a state. -/
inductive Reading.Spent : Reading → List Token → Prop where
  | value (frames : List Frame) : Spent (.awaiting .value frames) (spentOn frames)
  | firstItem (frames : List Frame) :
      Spent (.awaiting .firstItem (.array [] :: frames)) (spentOn frames ++ [.openArray])
  | firstName (frames : List Frame) :
      Spent (.awaiting .firstName (.object [] :: frames)) (spentOn frames ++ [.openObject])
  | name (members : List (Option String × Json)) (frames : List Frame) :
      Spent (.awaiting .name (.object members :: frames)) (spentOn (.object members :: frames))
  | colon (members : List (Option String × Json)) (name : Option String) (frames : List Frame) :
      Spent (.awaiting .colon (.member members name :: frames))
        (spentOn (.object members :: frames) ++ [.text name])
  | items {items : List Json} (frames : List Frame) {spent : List Token} : items ≠ [] →
      spent ++ [.comma] = spentOn (.array items :: frames) →
      Spent (.awaiting .separator (.array items :: frames)) spent
  | members {members : List (Option String × Json)} (frames : List Frame) {spent : List Token} :
      members ≠ [] → spent ++ [.comma] = spentOn (.object members :: frames) →
      Spent (.awaiting .separator (.object members :: frames)) spent
  | complete (json : Json) : Spent (.complete json) json.tokens

/-- Where the next item of an array would have a comma in front, its end has a bracket. -/
theorem itemsSpent_eq {items : List Json} (some : items ≠ []) :
    ∃ inside, (array items).tokens = inside ++ [.closeArray] ∧
      itemsSpent items = inside ++ [.comma] := by
  cases items with
  | nil => exact absurd rfl some
  | cons item items =>
    have inside : ∀ item : Json, ((item :: items).flatMap fun item => item.tokens ++ [.comma]) =
        item.tokens ++ itemTokens items ++ [.comma] := by
      induction items with
      | nil => simp [itemTokens]
      | cons next items ih =>
        intro item
        rw [List.flatMap_cons, ih (by simp)]
        simp [itemTokens]
    exact ⟨.openArray :: item.tokens ++ itemTokens items, rfl, by rw [itemsSpent, inside]; rfl⟩

theorem membersSpent_eq {members : List (Option String × Json)} (some : members ≠ []) :
    ∃ inside, (object members).tokens = inside ++ [.closeObject] ∧
      membersSpent members = inside ++ [.comma] := by
  cases members with
  | nil => exact absurd rfl some
  | cons member members =>
    have inside : ∀ member : Option String × Json,
        ((member :: members).flatMap fun member =>
          Token.text member.1 :: .colon :: member.2.tokens ++ [.comma]) =
        .text member.1 :: .colon :: member.2.tokens ++ memberTokens members ++ [.comma] := by
      induction members with
      | nil => simp [memberTokens]
      | cons next members ih =>
        intro member
        rw [List.flatMap_cons, ih (by simp)]
        simp [memberTokens]
    exact ⟨.openObject :: .text member.1 :: .colon :: member.2.tokens ++ memberTokens members, rfl,
      by rw [membersSpent, inside]; rfl⟩

/-- A complete value is put where it belongs. -/
theorem Reading.Spent.put {frames : List Frame} {json : Json} {next : Reading}
    (step : Reading.put frames json = some next) :
    next.Spent (spentOn frames ++ json.tokens) := by
  unfold Reading.put at step
  split at step
  · cases step
    exact .complete json
  · cases step
    exact .items _ (by simp) (by simp [spentOn, Frame.spent, itemsSpent])
  · cases step
    exact .members _ (by simp) (by simp [spentOn, Frame.spent, membersSpent])
  · cases step

/-- A token begins a value, or is one. -/
theorem Reading.Spent.begin {frames : List Frame} {token : Token} {next : Reading}
    (step : Reading.begin frames token = some next) : next.Spent (spentOn frames ++ [token]) := by
  unfold Reading.begin at step
  split at step
  · exact .put step
  · exact .put step
  · exact .put step
  · exact .put step
  · cases step
    exact .firstItem frames
  · cases step
    exact .firstName frames
  · cases step

/-- A bracket ends an array in place of the comma with which it would go on. -/
theorem Reading.Spent.closeArray {items : List Json} {frames : List Frame} {spent : List Token}
    {next : Reading} (nonempty : items ≠ [])
    (begun : spent ++ [.comma] = spentOn (.array items :: frames))
    (step : Reading.put frames (.array items) = some next) :
    next.Spent (spent ++ [.closeArray]) := by
  obtain ⟨inside, whole, goes⟩ := itemsSpent_eq nonempty
  rw [spentOn, Frame.spent, goes, ← List.append_assoc] at begun
  rw [List.append_cancel_right begun, List.append_assoc, ← whole]
  exact .put step

theorem Reading.Spent.closeObject {members : List (Option String × Json)} {frames : List Frame}
    {spent : List Token} {next : Reading} (nonempty : members ≠ [])
    (begun : spent ++ [.comma] = spentOn (.object members :: frames))
    (step : Reading.put frames (.object members) = some next) :
    next.Spent (spent ++ [.closeObject]) := by
  obtain ⟨inside, whole, goes⟩ := membersSpent_eq nonempty
  rw [spentOn, Frame.spent, goes, ← List.append_assoc] at begun
  rw [List.append_cancel_right begun, List.append_assoc, ← whole]
  exact .put step

/-- Each token is accounted for. -/
theorem Reading.Spent.step {reading next : Reading} {token : Token} {spent : List Token}
    (before : reading.Spent spent) (step : reading.next token = some next) :
    next.Spent (spent ++ [token]) := by
  cases before with
  | value frames => exact .begin step
  | firstItem frames =>
    simp only [Reading.next] at step
    split at step
    · rename_i same
      cases same
      have closed := Reading.Spent.put step
      rwa [show (array []).tokens = [.openArray] ++ [.closeArray] from rfl,
        ← List.append_assoc] at closed
    · exact .begin step
  | firstName frames =>
    simp only [Reading.next] at step
    split at step
    · rename_i same
      cases same
      have closed := Reading.Spent.put step
      rwa [show (object []).tokens = [.openObject] ++ [.closeObject] from rfl,
        ← List.append_assoc] at closed
    · rename_i same
      cases same
      cases step
      exact .colon [] _ frames
    · cases step
  | name members frames =>
    simp only [Reading.next] at step
    split at step
    · rename_i same
      cases same
      cases step
      exact .colon members _ frames
    · cases step
  | colon members name frames =>
    simp only [Reading.next] at step
    split at step
    · cases step
      have after := Reading.Spent.value (.member members name :: frames)
      simpa [spentOn, Frame.spent] using after
    · cases step
  -- What was spent lacks the comma that `begun` has, which the next token may be.
  | @items items frames spent nonempty begun =>
    simp only [Reading.next] at step
    split at step
    · rename_i same
      cases same
      cases step
      rw [begun]
      exact .value _
    · rename_i same
      cases same
      exact .closeArray nonempty begun step
    · rename_i same
      cases same
    · rename_i same
      cases same
    · cases step
  | @members members frames spent nonempty begun =>
    simp only [Reading.next] at step
    split at step
    · rename_i same
      cases same
    · rename_i same
      cases same
    · rename_i same
      cases same
      cases step
      rw [begun]
      exact .name members frames
    · rename_i same
      cases same
      exact .closeObject nonempty begun step
    · cases step
  | complete json => cases step

theorem Reading.Spent.readFrom {reading last : Reading} {spent tokens : List Token}
    (before : reading.Spent spent) (read : readFrom reading tokens = some last) :
    last.Spent (spent ++ tokens) := by
  induction tokens generalizing reading spent with
  | nil =>
    cases read
    simpa using before
  | cons token tokens ih =>
    rw [readFrom_cons, Option.bind_eq_some_iff] at read
    obtain ⟨next, step, read⟩ := read
    simpa using ih (before.step step) read

/-- A value is read from its tokens and from no others. -/
theorem ofTokens?_eq_some_iff {json : Json} {tokens : List Token} :
    ofTokens? tokens = some json ↔ tokens = json.tokens := by
  constructor
  · intro known
    obtain ⟨last, read, complete⟩ := Option.bind_eq_some_iff.mp known
    cases last with
    | awaiting => cases complete
    | complete =>
      cases complete
      cases (Reading.Spent.value []).readFrom read with
      | complete => rfl
  · rintro rfl
    exact ofTokens?_tokens json

/-- A text is read as a value exactly if it is one of the value's spellings. -/
theorem parse?_eq_some_iff {text : String} {json : Json} :
    parse? text = some json ↔ json.SpelledBy text := by
  rw [parse?, SpelledBy, ← Token.ofText?_eq_some_iff (separated_tokens json)]
  simp [Option.bind_eq_some_iff, ofTokens?_eq_some_iff]

end FairMerge.Json
