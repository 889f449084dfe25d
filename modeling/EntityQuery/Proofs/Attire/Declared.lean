import EntityQuery.Attire.Coverage
import EntityQuery.Proofs.Support.Attempt

/-!
# Declarations and the data they are read from

Whether data declares anything is a matter of its form (`Coverage.ofJson?`).  To tell why it does not, its
parts are read one after the other, and the first that does not fit is the reason (`Coverage.read`).  The order
makes no difference to what is accepted:

* `Coverage.toOption_read`: a reason is told just where data has not the form of a declaration.
* `Coverage.ofJson_toJson`: every declaration is read from what is written of it.
-/

namespace EntityQuery

namespace Json

/-! ### Parts -/

theorem toOption_string (v : Json) : v.string.toOption = v.str? := by
  cases v <;> rfl

theorem toOption_strings (v : Json) : v.strings.toOption = v.strings? := by
  cases v with
  | arr vs                                =>
      rw [strings, strings?, Attempt.toOption_mapM]
      exact congrArg (vs.mapM ·) (funext toOption_string)
  | null | bool _ | num _ | str _ | obj _ => rfl

variable {α : Type} (vocabulary : List String) (ofName? : String → Option α)

theorem toOption_meaning (s : String) : (word.meaning vocabulary ofName? s).toOption = ofName? s := by
  unfold word.meaning
  cases ofName? s <;> rfl

theorem toOption_word (v : Json) : (v.word vocabulary ofName?).toOption = v.word?.bind ofName? := by
  cases v with
  | str s                         => exact toOption_meaning vocabulary ofName? s
  | obj members                   =>
      rcases members with _ | ⟨⟨s, part⟩, _ | ⟨m, members⟩⟩
      · rfl
      · rw [word, Attempt.toOption_bind, toOption_meaning]
        cases part with
        | null                                   => exact Option.bind_fun_some (ofName? s)
        | bool _ | num _ | str _ | arr _ | obj _ => exact Option.bind_fun_none (ofName? s)
      · cases part <;> rfl
  | null | bool _ | num _ | arr _ => rfl

theorem strings_arr (ss : List String) : (arr (ss.map str)).strings = .ok ss := by
  rw [strings, List.mapM_map]
  exact List.mapM_pure.trans (congrArg _ ss.map_id)

end Json

namespace Attire

theorem Prominence.toOption_read (v : Json) : (Prominence.read v).toOption = v.word?.bind ofName? :=
  v.toOption_word _ _

theorem Prominence.read_name (p : Prominence) : Prominence.read (.str p.name) = .ok p := by
  rw [read, Json.word, Json.word.meaning, ofName?_name]

namespace Coverage

variable {v slots prominence : Json} {item : ItemId} {c : Coverage}

/-! ### Records -/

/-- A record that has both fields declares what is read from them. -/
theorem ofJson?_of_record? (h : v.record? fieldNames = some [slots, prominence]) :
    ofJson? v = slots.strings.toOption.bind fun s =>
      (Prominence.read prominence).toOption.bind fun p => some ⟨s, p⟩ := by
  unfold ofJson?
  rw [h, Json.toOption_strings, Prominence.toOption_read]
  simp only [Option.bind_assoc]
  rfl

theorem ofJson?_eq_none (h : v.record? fieldNames = none) : ofJson? v = none := by
  unfold ofJson?
  rw [h]

theorem toOption_read_arr (parts : List Json) : (read (.arr parts)).toOption = ofJson? (.arr parts) := by
  rcases parts with _ | ⟨slots, _ | ⟨prominence, _ | ⟨part, more⟩⟩⟩
  · rfl
  · rw [ofJson?_eq_none rfl, read]
    cases slots.strings <;> rfl
  · rw [ofJson?_of_record? rfl, read]
    cases slots.strings <;> cases Prominence.read prominence <;> rfl
  · have hlong : (Json.arr (slots :: prominence :: part :: more)).record? fieldNames = none := rfl
    rw [ofJson?_eq_none hlong, read]
    cases slots.strings <;> cases Prominence.read prominence <;> rfl

theorem toOption_read_obj (members : List (String × Json)) :
    (read (.obj members)).toOption = ofJson? (.obj members) := by
  have hrecord : (Json.obj members).record? fieldNames =
      [Entries.get? "covers" members, Entries.get? "coveragePriority" members].mapM id := rfl
  rw [read]
  cases hprominence : Entries.get? "coveragePriority" members with
  | none            =>
      have hnone : (Json.obj members).record? fieldNames = none := by
        rw [hrecord, hprominence]
        cases Entries.get? "covers" members <;> rfl
      rw [ofJson?_eq_none hnone]
      cases (Entries.get? "covers" members).mapM Json.strings with
      | error _   => rfl
      | ok slots? => cases slots? <;> rfl
  | some prominence =>
      rw [hprominence] at hrecord
      cases hslots : Entries.get? "covers" members with
      | none       =>
          rw [hslots] at hrecord
          rw [ofJson?_eq_none hrecord, Option.mapM_some]
          cases Prominence.read prominence <;> rfl
      | some slots =>
          rw [hslots] at hrecord
          rw [ofJson?_of_record? hrecord, Option.mapM_some, Option.mapM_some]
          cases slots.strings <;> cases Prominence.read prominence <;> rfl

/-- **A reason is told just where data has not the form of a declaration**, and what is read else is what the
form says. -/
theorem toOption_read (v : Json) : (read v).toOption = ofJson? v := by
  cases v with
  | arr parts                     => exact toOption_read_arr parts
  | obj members                   => exact toOption_read_obj members
  | null | bool _ | num _ | str _ => rfl

theorem ofJson_eq_ok : ofJson item v = .ok c ↔ ofJson? v = some c := by
  rw [ofJson, Attempt.mapError_eq_ok, ← toOption_read]
  cases read v with
  | error _ => exact ⟨nofun, nofun⟩
  | ok c'   => exact ⟨fun h => congrArg some (Except.ok.inj h), fun h => congrArg _ (Option.some.inj h)⟩

/-- Written, the class comes before the slots. -/
theorem toJson_eq (c : Coverage) : c.toJson =
    .obj [("coveragePriority", .str c.prominence.name), ("covers", .arr (c.slots.map .str))] := by
  have hlt : "coveragePriority" < "covers" := by decide
  rw [toJson, Json.object]
  exact congrArg Json.obj (if_pos hlt)

/-- **Every declaration is read from what is written of it.** -/
theorem ofJson_toJson (item : ItemId) (c : Coverage) : ofJson item c.toJson = .ok c := by
  have hrecord : c.toJson.record? fieldNames = some [.arr (c.slots.map .str), .str c.prominence.name] := by
    rw [toJson_eq]
    rfl
  rw [ofJson_eq_ok, ofJson?_of_record? hrecord, Json.strings_arr, Prominence.read_name]
  rfl

/-- A class of no known name is told before it is found that no slots are given. -/
example : (ofJson "cape" (.object [("coveragePriority", .str "cosmic")])).mapError AttireError.message = .error
    ("malformed coverage mapping for item 'cape': unknown variant `cosmic`, "
      ++ "expected one of `outer`, `base`, `underwear`, `direct`") := by
  rfl

end Coverage

end Attire

end EntityQuery
