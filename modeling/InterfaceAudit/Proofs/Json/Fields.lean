import InterfaceAudit.Json.Basic
import Mathlib.Data.List.Basic

/-!
Fields of objects.
What an object holds under a name decides how it is read, so the changes of objects are described by
what is found in them afterwards.
-/

namespace InterfaceAudit.Json

variable {fields others lower upper : List (String × Json)} {name other : String} {value : Json}

@[simp] theorem field?_nil (name : String) : (object []).field? name = none := rfl

/-- The first fields win over the later ones. -/
theorem field?_append (fields others : List (String × Json)) (name : String) :
    (object (fields ++ others)).field? name =
      ((object fields).field? name).or ((object others).field? name) := by
  simp only [field?, List.find?_append, Option.map_or]

/-- One field is found under its own name only. -/
theorem field?_singleton (name other : String) (value : Json) :
    (object [(name, value)]).field? other = if name = other then some value else none := by
  simp only [field?, List.find?_singleton, beq_iff_eq]
  split <;> rfl

/-- A field in front wins over all others of its name. -/
@[simp] theorem field?_cons (name other : String) (value : Json) (fields : List (String × Json)) :
    (object ((name, value) :: fields)).field? other =
      if name = other then some value else (object fields).field? other := by
  rw [← List.singleton_append, field?_append, field?_singleton]
  split <;> simp

theorem field?_isSome_iff : ((object fields).field? name).isSome ↔ name ∈ fields.map Prod.fst := by
  simp [field?]

theorem field?_eq_none_iff : (object fields).field? name = none ↔ name ∉ fields.map Prod.fst := by
  rw [← field?_isSome_iff, Option.not_isSome_iff_eq_none]

/-! ### Fields that are set -/

/-- The fields with one name all take the new value. -/
theorem field?_replace (fields : List (String × Json)) (name other : String) (value : Json) :
    (object (fields.map fun field => (field.1, if field.1 == name then value else field.2))).field?
        other =
      ((object fields).field? other).map fun present =>
        if name = other then value else present := by
  simp only [field?, List.find?_map, Option.map_map, Function.comp_def]
  cases found : fields.find? fun field => field.1 == other with
  | none => rfl
  | some field =>
    have sameName : field.1 = other := by simpa using List.find?_some found
    simp only [Option.map_some, sameName, beq_iff_eq]
    by_cases same : name = other
    · rw [if_pos same, if_pos same.symm]
    · rw [if_neg same, if_neg (Ne.symm same)]

/-- A field that is set is found under its name, and the other fields stay. -/
theorem field?_setField (fields : List (String × Json)) (name other : String) (value : Json) :
    (object (setField fields name value)).field? other =
      if name = other then some value else (object fields).field? other := by
  unfold setField
  split
  · next known =>
    have present : ((object fields).field? name).isSome := by
      rw [field?_isSome_iff]
      simpa using known
    rw [field?_replace]
    split
    · next same =>
      obtain ⟨found, isFound⟩ := Option.isSome_iff_exists.mp (same ▸ present)
      rw [isFound, Option.map_some]
    · exact Option.map_id'
  · next fresh =>
    have absent : (object fields).field? name = none := by
      rw [field?_eq_none_iff]
      simpa using fresh
    rw [field?_append, field?_singleton]
    split
    · next same => rw [← same, absent, Option.none_or]
    · rw [Option.or_none]

/-- A new name is put at the end. -/
theorem setField_of_not_mem (fresh : name ∉ fields.map Prod.fst) :
    setField fields name value = fields ++ [(name, value)] := by
  have absent : (fields.any fun field => field.1 == name) = false := by
    rw [List.any_eq_false]
    intro field member isName
    exact fresh (eq_of_beq isName ▸ List.mem_map_of_mem member)
  rw [setField, absent]
  rfl

/-- The last of several fields with one name is the one that is set. -/
theorem field?_setFields (lower upper : List (String × Json)) (name : String) :
    (object (setFields lower upper)).field? name =
      ((object upper.reverse).field? name).or ((object lower).field? name) := by
  induction upper generalizing lower with
  | nil => rfl
  | cons field upper inductionHypothesis =>
    have step : setFields lower (field :: upper) =
        setFields (setField lower field.1 field.2) upper := rfl
    rw [step, inductionHypothesis, field?_setField, List.reverse_cons, field?_append,
      field?_singleton, Option.or_assoc]
    split <;> rfl

/-- Setting a field decides its name from the other end as well. -/
theorem field?_reverse_setField (fields : List (String × Json)) (name other : String)
    (value : Json) :
    (object (setField fields name value).reverse).field? other =
      if name = other then some value else (object fields.reverse).field? other := by
  unfold setField
  split
  · next known =>
    have present : ((object fields.reverse).field? name).isSome := by
      rw [field?_isSome_iff]
      simpa using known
    rw [← List.map_reverse, field?_replace]
    split
    · next same =>
      obtain ⟨found, isFound⟩ := Option.isSome_iff_exists.mp (same ▸ present)
      rw [isFound, Option.map_some]
    · exact Option.map_id'
  · rw [List.reverse_append, List.reverse_singleton, List.singleton_append, field?_cons]

/-- A field that is set in the upper fields wins over all fields with its name. -/
theorem field?_setFields_setField (lower upper : List (String × Json)) (name other : String)
    (value : Json) :
    (object (setFields lower (setField upper name value))).field? other =
      if name = other then some value else (object (setFields lower upper)).field? other := by
  rw [field?_setFields, field?_reverse_setField, field?_setFields]
  split <;> rfl

/-! ### Objects over objects -/

/-- An object without one below it is put in as it is. -/
theorem overlay_of_none {above : List (String × Json)}
    (absent : (object fields).field? name = none) :
    overlay fields [(name, object above)] = setField fields name (object above) := by
  simp only [overlay, List.foldl_cons, List.foldl_nil, absent]

/-- An object over another one sets its fields one by one. -/
theorem overlay_of_object {below above : List (String × Json)}
    (present : (object fields).field? name = some (object below)) :
    overlay fields [(name, object above)] =
      setField fields name (object (setFields below above)) := by
  simp only [overlay, List.foldl_cons, List.foldl_nil, present]

/-- Each upper field is set, with its value or with what its value makes of the lower one. -/
theorem exists_overlay_cons (lower upper : List (String × Json)) (name : String) (value : Json) :
    ∃ placed, overlay lower ((name, value) :: upper) =
      overlay (setField lower name placed) upper := by
  simp only [overlay, List.foldl_cons]
  split
  · exact ⟨_, rfl⟩
  · exact ⟨_, rfl⟩

/-- An overlay of one field leaves the other names alone. -/
theorem field?_overlay_singleton (fields : List (String × Json)) {name other : String}
    (apart : name ≠ other) (value : Json) :
    (object (overlay fields [(name, value)])).field? other = (object fields).field? other := by
  obtain ⟨placed, step⟩ := exists_overlay_cons fields [] name value
  rw [step]
  exact (field?_setField ..).trans (if_neg apart)

/-- A name that occurs on neither level occurs in no overlay. -/
theorem field?_overlay_eq_none (absentBelow : (object lower).field? name = none)
    (absentAbove : (object upper).field? name = none) :
    (object (overlay lower upper)).field? name = none := by
  induction upper generalizing lower with
  | nil => exact absentBelow
  | cons field upper inductionHypothesis =>
    obtain ⟨first, value⟩ := field
    rw [field?_cons] at absentAbove
    have apart : first ≠ name := fun same => by simp [same] at absentAbove
    rw [if_neg apart] at absentAbove
    obtain ⟨placed, step⟩ := exists_overlay_cons lower upper first value
    rw [step]
    apply inductionHypothesis _ absentAbove
    rw [field?_setField, if_neg apart, absentBelow]

end InterfaceAudit.Json
