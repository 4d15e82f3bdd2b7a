import InterfaceAudit.Proofs.Json.RoundTrip
import InterfaceAudit.Proofs.Text.Utf8

/-!
Decoders of JSON values.
A decoder is lossless for an encoder when it gets every value back, also from the printed text.
A decoder of a record asks for its fields by their names; a field that was left out has no value.
-/

namespace InterfaceAudit.Json

variable {Value : Type}

structure Lossless (encode : Value → Json) (decode? : Json → Option Value) : Prop where
  isExact : ∀ value, Exact (encode value)
  decoded : ∀ value, decode? (encode value) = some value

/-! ### Values -/

def text? : Json → Option String
  | string text => some text
  | _ => none

def truth? : Json → Option Bool
  | bool value => some value
  | _ => none

def nat? : Json → Option Nat
  | int (.ofNat number) => some number
  | _ => none

def list? (decode? : Json → Option Value) : Json → Option (List Value)
  | array items => items.mapM decode?
  | _ => none

theorem lossless_text : Lossless string text? := ⟨.string, fun _ => rfl⟩

theorem lossless_truth : Lossless bool truth? := ⟨.bool, fun _ => rfl⟩

theorem lossless_nat : Lossless nat nat? := ⟨fun number => .int number, fun _ => rfl⟩

/-- A list comes back when each of its items does. -/
theorem Lossless.list {encode : Value → Json} {decode? : Json → Option Value}
    (lossless : Lossless encode decode?) :
    Lossless (fun values => array (values.map encode)) (list? decode?) where
  isExact values := .array (List.forall_mem_map.mpr fun value _ => lossless.isExact value)
  decoded values := by
    have decoded : decode? ∘ encode = some := funext lossless.decoded
    rw [list?, List.mapM_map, decoded]
    exact (List.mapM_pure (m := Option) (f := id)).trans (congrArg some (List.map_id values))

theorem lossless_texts : Lossless strings (list? text?) := lossless_text.list

/-! ### Fields -/

@[simp] theorem field?_ofFields_nil (name : String) : (ofFields []).field? name = none := rfl

/-- A field that was left out does not hide a later one of its name. -/
@[simp] theorem field?_ofFields_cons (name other : String) (value : Option Json)
    (fields : List (String × Option Json)) :
    (ofFields ((name, value) :: fields)).field? other =
      if name = other then value.or ((ofFields fields).field? other)
      else (ofFields fields).field? other := by
  cases value with
  | none =>
    rw [Option.none_or, ite_self]
    rfl
  | some value =>
    rw [Option.some_or]
    exact field?_cons name other value _

/-- Fields that are left out leave the others in their order. -/
theorem sublist_ofFields (fields : List (String × Option Json)) :
    List.Sublist
      ((fields.filterMap fun (name, value) => value.map fun value => (name, value)).map Prod.fst)
      (fields.map Prod.fst) := by
  induction fields with
  | nil => exact .slnil
  | cons field fields inductionHypothesis =>
    obtain ⟨name, value⟩ := field
    cases value with
    | none => exact inductionHypothesis.cons name
    | some value => exact inductionHypothesis.cons_cons name

/-- A field that is left out has no value to be read. -/
def ExactIfGiven (value : Option Json) : Prop := ∀ given ∈ value, Exact given

@[simp] theorem exactIfGiven_some {value : Json} : ExactIfGiven (some value) ↔ Exact value := by
  simp [ExactIfGiven]

/-- A record is exact when its names are distinct and its given values are exact. -/
theorem exact_ofFields {fields : List (String × Option Json)}
    (distinct : (fields.map Prod.fst).Nodup)
    (areExact : ∀ field ∈ fields, ExactIfGiven field.2) : Exact (ofFields fields) := by
  refine .object (distinct.sublist (sublist_ofFields fields)) fun field member => ?_
  obtain ⟨⟨name, value⟩, inFields, isField⟩ := List.mem_filterMap.mp member
  obtain ⟨given, isGiven, rfl⟩ := Option.map_eq_some_iff.mp isField
  exact areExact (name, value) inFields given isGiven

def required? (json : Json) (name : String) (decode? : Json → Option Value) : Option Value :=
  (json.field? name).bind decode?

def optional? (json : Json) (name : String) (decode? : Json → Option Value) :
    Option (Option Value) :=
  match json.field? name with
  | none => some none
  | some given => (decode? given).map some

section Fields

variable {encode : Value → Json} {decode? : Json → Option Value} {json : Json} {name : String}

/-- An optional value is exact because its encoding is. -/
theorem Lossless.ifGiven (lossless : Lossless encode decode?) (value : Option Value) :
    ExactIfGiven (value.map encode) := by
  intro given isGiven
  obtain ⟨value, -, rfl⟩ := Option.map_eq_some_iff.mp isGiven
  exact lossless.isExact value

/-- A required field comes back from what is found under its name. -/
theorem Lossless.required (lossless : Lossless encode decode?) {value : Value}
    (present : json.field? name = some (encode value)) :
    required? json name decode? = some value := by
  rw [required?, present]
  exact lossless.decoded value

/-- An optional field comes back, also when nothing is found under its name. -/
theorem Lossless.optional (lossless : Lossless encode decode?) {value : Option Value}
    (given : json.field? name = value.map encode) :
    optional? json name decode? = some value := by
  rw [optional?, given]
  cases value with
  | none => rfl
  | some value => exact congrArg (Option.map some) (lossless.decoded value)

end Fields

/-! ### Files -/

/-- A value is written as indented text with a line feed behind it. -/
def written (indent : Nat) (value : Json) : List UInt8 :=
  Text.encodeUtf8 ((print (.document indent) value).toList ++ ['\n'])

def decodeWritten? (decode? : Json → Option Value) (bytes : List UInt8) : Option Value := do
  let text ← (Text.decodeUtf8 bytes).toOption
  let json ← read? (String.ofList text)
  decode? json

/-- What is written to a file is decoded from its bytes. -/
theorem Lossless.decodeWritten? {encode : Value → Json} {decode? : Json → Option Value}
    (lossless : Lossless encode decode?) (indent : Nat) (value : Value) :
    Json.decodeWritten? decode? (written indent (encode value)) = some value := by
  have isRead := read?_print (lossless.isExact value) (some indent)
  have decoded : Text.decodeUtf8 (written indent (encode value)) =
      .ok ((print (plain (some indent)) (encode value)).toList ++ ['\n']) :=
    Text.decodeUtf8_encodeUtf8 _
  rw [Json.decodeWritten?, decoded]
  simp only [Except.toOption, Option.bind_eq_bind, Option.bind_some, isRead]
  exact lossless.decoded value

/-- Different values are written differently. -/
theorem Lossless.written_injective {encode : Value → Json} {decode? : Json → Option Value}
    (lossless : Lossless encode decode?) (indent : Nat) :
    Function.Injective fun value => written indent (encode value) := by
  intro value other same
  have decoded := congrArg (Json.decodeWritten? decode?) same
  simp only [lossless.decodeWritten?] at decoded
  exact Option.some.inj decoded

end InterfaceAudit.Json
