import InterfaceAudit.Proofs.Json.Fields
import InterfaceAudit.Proofs.Json.Literal

/-!
Round trip of printed values.
A printed value is read again whatever its layout is, when its numbers are whole and the names of
its fields are distinct.
-/

namespace InterfaceAudit.Json

open Text (ne_of_digit exists_digit)

/-- Values that are read as they were printed. -/
inductive Exact : Json → Prop where
  | null : Exact .null
  | bool (value : Bool) : Exact (.bool value)
  | int (value : Int) : Exact (.int value)
  | string (text : String) : Exact (.string text)
  | array {items : List Json} (areExact : ∀ item ∈ items, Exact item) : Exact (.array items)
  | object {fields : List (String × Json)} (distinct : (fields.map Prod.fst).Nodup)
      (areExact : ∀ field ∈ fields, Exact field.2) : Exact (.object fields)

section Layouts

variable {indent : Option Nat} {level : Nat}

/-- Layouts that keep the characters beyond ASCII. -/
def plain (indent : Option Nat) : Layout := ⟨indent, false⟩

@[simp] theorem plain_ascii : (plain indent).ascii = false := rfl

/-- A separator is a comma with white space behind it. -/
theorem exists_separator (indent : Option Nat) (level : Nat) :
    ∃ blanks, (plain indent).separator level = ',' :: blanks ∧ ∀ c ∈ blanks, isSpace c = true := by
  cases indent with
  | none => exact ⟨[' '], rfl, by simp [isSpace]⟩
  | some width =>
    exact ⟨(plain (some width)).lineBreak level, rfl, fun _ => isSpace_of_mem_lineBreak⟩

theorem endsValue_cons {c : Char} (closes : c ∈ [',', '\n', ']', '\x7d']) (rest : List Char) :
    EndsValue (c :: rest) := fun _ isFirst => Option.some.inj isFirst ▸ closes

/-- A line break in front of a closing mark ends a value. -/
theorem endsValue_lineBreak (indent : Option Nat) (level : Nat) {c : Char}
    (closes : c ∈ [',', '\n', ']', '\x7d']) (rest : List Char) :
    EndsValue ((plain indent).lineBreak level ++ c :: rest) := by
  cases indent with
  | none => exact endsValue_cons closes rest
  | some width => exact endsValue_cons (by decide) _

/-- A printed value begins with none of its own blanks, and not as an array ends. -/
theorem render_starts (indent : Option Nat) {value : Json} (isExact : Exact value)
    (level : Nat) :
    ∃ c others, render (plain indent) level value = c :: others ∧ isSpace c = false ∧ c ≠ ']' := by
  cases isExact with
  | null => exact ⟨_, _, rfl, by decide, by decide⟩
  | bool value => cases value <;> exact ⟨_, _, rfl, by decide, by decide⟩
  | int value =>
    rcases toList_toString value with ⟨number, -, written⟩ | ⟨number, -, written⟩
    · obtain ⟨first, others, digits, isDigit⟩ := exists_digit number
      exact ⟨first, others, written.trans digits, isSpace_of_digit isDigit,
        (ne_of_digit isDigit (by decide)).symm⟩
    · exact ⟨_, _, written, by decide, by decide⟩
  | string text => exact ⟨_, _, rfl, by decide, by decide⟩
  | @array items _ => cases items <;> exact ⟨_, _, rfl, by decide, by decide⟩
  | @object fields _ _ => cases fields <;> exact ⟨_, _, rfl, by decide, by decide⟩

end Layouts

/-! ### Items and fields -/

section Parts

variable {indent : Option Nat} {level lower fuel : Nat} {blanks rest : List Char}
variable {read : List Char → Option (Json × List Char)}

/-- A value is read in front of everything that may stand behind it. -/
def Reads (indent : Option Nat) (level : Nat) (read : List Char → Option (Json × List Char))
    (value : Json) : Prop :=
  ∀ rest, EndsValue rest → read (render (plain indent) level value ++ rest) = some (value, rest)

/-- White space in front of a printed value is skipped, and nothing of the value is. -/
theorem skip_render {value : Json} (isExact : Exact value)
    (areSpaces : ∀ c ∈ blanks, isSpace c = true) (rest : List Char) :
    skip (blanks ++ (render (plain indent) level value ++ rest)) =
      render (plain indent) level value ++ rest := by
  obtain ⟨c, others, starts, notSpace, -⟩ := render_starts indent isExact level
  rw [skip_append areSpaces, starts, List.cons_append, skip_cons notSpace]

/-- An item with the closing bracket behind it is the last one. -/
theorem readItems_last {text tail : List Char} {item : Json}
    (isRead : read (skip text) = some (item, tail)) (closes : skip tail = ']' :: rest) :
    readItems read (fuel + 1) text = some ([item], rest) := by
  rw [readItems, isRead]
  simp [closes]

/-- An item with a comma behind it is followed by others. -/
theorem readItems_more {text tail after : List Char} {item : Json} {items : List Json}
    (isRead : read (skip text) = some (item, tail)) (goesOn : skip tail = ',' :: after)
    (others : readItems read fuel after = some (items, rest)) :
    readItems read (fuel + 1) text = some (item :: items, rest) := by
  rw [readItems, isRead]
  simp [goesOn, others]

/-- Printed items are read in their order, by induction on the items. -/
theorem readItems_render {item : Json} {items : List Json}
    (areExact : ∀ other ∈ item :: items, Exact other)
    (areRead : ∀ other ∈ item :: items, Reads indent level read other)
    (enough : items.length < fuel) (areSpaces : ∀ c ∈ blanks, isSpace c = true) :
    readItems read fuel (blanks ++ (render (plain indent) level item ++
      (renderItems (plain indent) level items ++
        ((plain indent).lineBreak lower ++ ']' :: rest)))) = some (item :: items, rest) := by
  induction items generalizing item fuel blanks with
  | nil =>
    obtain ⟨fuel, rfl⟩ := Nat.exists_eq_succ_of_ne_zero (Nat.ne_of_gt enough)
    have closes : skip ((plain indent).lineBreak lower ++ ']' :: rest) = ']' :: rest := by
      rw [skip_append fun _ => isSpace_of_mem_lineBreak, skip_cons (by decide)]
    refine readItems_last ?_ closes
    rw [renderItems, List.nil_append, skip_render (areExact item List.mem_cons_self) areSpaces]
    exact areRead item List.mem_cons_self _ (endsValue_lineBreak indent lower (by decide) rest)
  | cons next items inductionHypothesis =>
    obtain ⟨fuel, rfl⟩ := Nat.exists_eq_succ_of_ne_zero (Nat.ne_of_gt (Nat.zero_lt_of_lt enough))
    obtain ⟨gap, separates, gapSpaces⟩ := exists_separator indent level
    have others := inductionHypothesis (List.forall_mem_cons.mp areExact).2
      (List.forall_mem_cons.mp areRead).2 (Nat.lt_of_succ_lt_succ enough) gapSpaces
    rw [renderItems, separates, List.append_assoc, List.append_assoc, List.cons_append]
    refine readItems_more ?_ (skip_cons (by decide) _) others
    rw [skip_render (areExact item List.mem_cons_self) areSpaces]
    exact areRead item List.mem_cons_self _ (endsValue_cons (by decide) _)

/-! A field is a quoted name, a colon and a value. -/

/-- A field is followed by the end of its object or by another field. -/
theorem readFields_step (fuel : Nat) (known : List (String × Json))
    {text behind tail : List Char} {name : String} {value : Json}
    (starts : skip text = quoted false name.toList ++ behind)
    (colon : skip behind = ':' :: ' ' :: (render (plain indent) level value ++ tail))
    (isExact : Exact value)
    (isRead : read (render (plain indent) level value ++ tail) = some (value, tail)) :
    (∀ rest, skip tail = '\x7d' :: rest →
        readFields read (fuel + 1) known text = some (setField known name value, rest)) ∧
      ∀ after, skip tail = ',' :: after →
        readFields read (fuel + 1) known text =
          readFields read fuel (setField known name value) after := by
  obtain ⟨after, opens, isName⟩ := readQuoted_quoted name.toList behind
  have skipped : skip (' ' :: (render (plain indent) level value ++ tail)) =
      render (plain indent) level value ++ tail :=
    skip_render isExact (List.forall_mem_singleton.mpr (by decide)) tail
  constructor
  · intro rest closes
    rw [readFields, starts, opens]
    simp [isName, colon, skipped, isRead, closes]
  · intro after goesOn
    rw [readFields, starts, opens]
    simp [isName, colon, skipped, isRead, goesOn]

/-- White space in front of a name is skipped. -/
theorem skip_quoted (areSpaces : ∀ c ∈ blanks, isSpace c = true) (text rest : List Char) :
    skip (blanks ++ (quoted false text ++ rest)) = quoted false text ++ rest := by
  rw [skip_append areSpaces]
  exact skip_cons (by decide) _

/-- A name that has not occurred is put at the end. -/
theorem setField_of_nodup {known fields : List (String × Json)} {name : String} {value : Json}
    (distinct : (known.map Prod.fst ++ ((name, value) :: fields).map Prod.fst).Nodup) :
    setField known name value = known ++ [(name, value)] :=
  setField_of_not_mem fun member =>
    (List.nodup_append.mp distinct).2.2 name member name List.mem_cons_self rfl

/-- Printed fields are read in their order, by induction on the fields. -/
theorem readFields_render {known fields : List (String × Json)} {name : String} {value : Json}
    (areExact : ∀ field ∈ (name, value) :: fields, Exact field.2)
    (areRead : ∀ field ∈ (name, value) :: fields, Reads indent level read field.2)
    (distinct : (known.map Prod.fst ++ ((name, value) :: fields).map Prod.fst).Nodup)
    (enough : fields.length < fuel) (areSpaces : ∀ c ∈ blanks, isSpace c = true) :
    readFields read fuel known (blanks ++ (quoted false name.toList ++ (':' :: ' ' ::
      (render (plain indent) level value ++ (renderFields (plain indent) level fields ++
        ((plain indent).lineBreak lower ++ '\x7d' :: rest)))))) =
      some (known ++ (name, value) :: fields, rest) := by
  have starts (behind : List Char) := skip_quoted areSpaces name.toList behind
  induction fields generalizing known name value fuel blanks with
  | nil =>
    obtain ⟨fuel, rfl⟩ := Nat.exists_eq_succ_of_ne_zero (Nat.ne_of_gt enough)
    have closes : skip ((plain indent).lineBreak lower ++ '\x7d' :: rest) = '\x7d' :: rest := by
      rw [skip_append fun _ => isSpace_of_mem_lineBreak, skip_cons (by decide)]
    have isRead : read (render (plain indent) level value ++
        ((plain indent).lineBreak lower ++ '\x7d' :: rest)) = some (value, _) :=
      areRead _ List.mem_cons_self _ (endsValue_lineBreak indent lower (by decide) rest)
    have step := readFields_step fuel known (starts _) (skip_cons (by decide) _)
      (areExact _ List.mem_cons_self) isRead
    rw [renderFields, List.nil_append, Nat.succ_eq_add_one, step.1 rest closes,
      setField_of_nodup distinct]
  | cons next fields inductionHypothesis =>
    obtain ⟨fuel, rfl⟩ := Nat.exists_eq_succ_of_ne_zero (Nat.ne_of_gt (Nat.zero_lt_of_lt enough))
    obtain ⟨gap, separates, gapSpaces⟩ := exists_separator indent level
    have distinctBehind : ((known ++ [(name, value)]).map Prod.fst ++
        (next :: fields).map Prod.fst).Nodup := by
      rw [List.map_append, List.append_assoc]
      exact distinct
    have others := inductionHypothesis (List.forall_mem_cons.mp areExact).2
      (List.forall_mem_cons.mp areRead).2 distinctBehind (Nat.lt_of_succ_lt_succ enough) gapSpaces
      (skip_quoted gapSpaces next.1.toList)
    have isRead (after : List Char) : read (render (plain indent) level value ++ ',' :: after) =
        some (value, ',' :: after) :=
      areRead _ List.mem_cons_self _ (endsValue_cons (by decide) after)
    have step (after : List Char) := readFields_step fuel known (starts _) (skip_cons (by decide) _)
      (areExact _ List.mem_cons_self) (isRead after)
    rw [renderFields, separates]
    simp only [plain_ascii, List.append_assoc, List.cons_append, List.nil_append]
    rw [Nat.succ_eq_add_one, (step _).2 _ (skip_cons (by decide) _), setField_of_nodup distinct,
      others, List.append_assoc, List.singleton_append]

end Parts

/-! ### Values -/

section Values

variable {indent : Option Nat}

/-- A separator takes at least one place. -/
theorem length_separator_pos (indent : Option Nat) (level : Nat) (text : List Char) :
    0 < ((plain indent).separator level ++ text).length := by
  obtain ⟨gap, separates, -⟩ := exists_separator indent level
  rw [separates]
  exact Nat.zero_lt_succ _

/-- The text of all items bounds their number and the text of each. -/
theorem length_le_renderItems (indent : Option Nat) (level : Nat) (items : List Json) :
    items.length ≤ (renderItems (plain indent) level items).length ∧
      ∀ item ∈ items, (render (plain indent) level item).length ≤
        (renderItems (plain indent) level items).length := by
  have parts : renderItems (plain indent) level items = items.flatMap fun item =>
      (plain indent).separator level ++ render (plain indent) level item := by
    induction items with
    | nil => rfl
    | cons item items inductionHypothesis =>
      rw [renderItems, inductionHypothesis, List.flatMap_cons]
  rw [parts]
  obtain ⟨counted, bounded⟩ :=
    length_flatMap_bounds (fun _ => length_separator_pos indent level _) items
  refine ⟨counted, fun item member => Nat.le_trans ?_ (bounded item member)⟩
  rw [List.length_append]
  omega

/-- The text of all fields bounds their number and the text of each. -/
theorem length_le_renderFields (indent : Option Nat) (level : Nat)
    (fields : List (String × Json)) :
    fields.length ≤ (renderFields (plain indent) level fields).length ∧
      ∀ field ∈ fields, (render (plain indent) level field.2).length ≤
        (renderFields (plain indent) level fields).length := by
  have parts : renderFields (plain indent) level fields = fields.flatMap fun field =>
      (plain indent).separator level ++ (quoted false field.1.toList ++ ([':', ' '] ++
        render (plain indent) level field.2)) := by
    induction fields with
    | nil => rfl
    | cons field fields inductionHypothesis =>
      rw [renderFields, inductionHypothesis, List.flatMap_cons]
      simp only [plain_ascii, List.append_assoc]
  rw [parts]
  obtain ⟨counted, bounded⟩ :=
    length_flatMap_bounds (fun _ => length_separator_pos indent level _) fields
  refine ⟨counted, fun field member => Nat.le_trans ?_ (bounded field member)⟩
  simp only [List.length_append]
  omega

/-- What is no text, list or object is a name or a number. -/
theorem readValue_other {c : Char} {fuel : Nat} {text : List Char} (notQuote : c ≠ '\x22')
    (notArray : c ≠ '[') (notObject : c ≠ '\x7b') :
    readValue (fuel + 1) (c :: text) = (readName (c :: text)).or (readNumber (c :: text)) := by
  rw [readValue]
  · exact fun _ split => notQuote (List.cons.inj split).1
  · exact fun _ split => notArray (List.cons.inj split).1
  · exact fun _ split => notObject (List.cons.inj split).1

/-- A printed integer is read again. -/
theorem readValue_int (value : Int) (fuel : Nat) {rest : List Char} (ends : EndsValue rest) :
    readValue (fuel + 1) ((toString value).toList ++ rest) = some (int value, rest) := by
  have isRead := readName_or_readNumber value ends
  rcases toList_toString value with ⟨number, -, written⟩ | ⟨number, -, written⟩
  · obtain ⟨first, others, digits, isDigit⟩ := exists_digit number
    rw [written, digits] at isRead ⊢
    rw [List.cons_append] at isRead ⊢
    rw [readValue_other (ne_of_digit isDigit (by decide)).symm
      (ne_of_digit isDigit (by decide)).symm (ne_of_digit isDigit (by decide)).symm, isRead]
  · rw [written, List.cons_append] at isRead ⊢
    rw [readValue_other (by decide) (by decide) (by decide), isRead]

/-- A printed text is read again. -/
theorem readValue_string (text : String) (fuel : Nat) (rest : List Char) :
    readValue (fuel + 1) (quoted false text.toList ++ rest) = some (string text, rest) := by
  obtain ⟨after, opens, isRead⟩ := readQuoted_quoted text.toList rest
  rw [opens, readValue, isRead]
  simp

/-- A list that is not empty is read item by item. -/
theorem readValue_array {items : List Json} {fuel : Nat} {text rest : List Char}
    (notClosed : ∀ after, skip text ≠ ']' :: after)
    (areRead : readItems (readValue fuel) (text.length + 1) text = some (items, rest)) :
    readValue (fuel + 1) ('[' :: text) = some (array items, rest) := by
  rw [readValue]
  split
  · next closed => exact absurd closed (notClosed _)
  · rw [areRead]
    rfl

/-- An object that is not empty is read field by field. -/
theorem readValue_object {fields : List (String × Json)} {fuel : Nat} {text rest : List Char}
    (notClosed : ∀ after, skip text ≠ '\x7d' :: after)
    (areRead : readFields (readValue fuel) (text.length + 1) [] text = some (fields, rest)) :
    readValue (fuel + 1) ('\x7b' :: text) = some (object fields, rest) := by
  rw [readValue]
  split
  · next closed => exact absurd closed (notClosed _)
  · rw [areRead]
    rfl

/-! A value inside another one is shorter than it, so it needs less fuel. -/

/-- A printed list is its first item with the others behind it. -/
theorem render_array_append (indent : Option Nat) (level : Nat) (item : Json) (items : List Json)
    (rest : List Char) :
    render (plain indent) level (array (item :: items)) ++ rest =
      '[' :: ((plain indent).lineBreak (level + 1) ++ (render (plain indent) (level + 1) item ++
        (renderItems (plain indent) (level + 1) items ++
          ((plain indent).lineBreak level ++ ']' :: rest)))) := by
  rw [render]
  simp only [List.append_assoc, List.cons_append, List.nil_append]

/-- A printed object is its first field with the others behind it. -/
theorem render_object_append (indent : Option Nat) (level : Nat) (field : String × Json)
    (fields : List (String × Json)) (rest : List Char) :
    render (plain indent) level (object (field :: fields)) ++ rest =
      '\x7b' :: ((plain indent).lineBreak (level + 1) ++ (quoted false field.1.toList ++
        (':' :: ' ' :: (render (plain indent) (level + 1) field.2 ++
          (renderFields (plain indent) (level + 1) fields ++
            ((plain indent).lineBreak level ++ '\x7d' :: rest)))))) := by
  rw [render]
  simp only [plain_ascii, List.append_assoc, List.cons_append, List.nil_append]

/-- An item takes less room than its list. -/
theorem length_lt_render_array {items : List Json} {item : Json} (member : item ∈ items)
    (level : Nat) :
    (render (plain indent) (level + 1) item).length <
      (render (plain indent) level (array items)).length := by
  cases items with
  | nil => contradiction
  | cons first others =>
    have size := congrArg List.length (render_array_append indent level first others [])
    simp only [List.append_nil, List.length_append, List.length_cons] at size
    rcases List.mem_cons.mp member with rfl | later
    · omega
    · have bounded := (length_le_renderItems indent (level + 1) others).2 item later
      omega

/-- The value of a field takes less room than its object. -/
theorem length_lt_render_object {fields : List (String × Json)} {field : String × Json}
    (member : field ∈ fields) (level : Nat) :
    (render (plain indent) (level + 1) field.2).length <
      (render (plain indent) level (object fields)).length := by
  cases fields with
  | nil => contradiction
  | cons first others =>
    have size := congrArg List.length (render_object_append indent level first others [])
    simp only [List.append_nil, List.length_append, List.length_cons] at size
    rcases List.mem_cons.mp member with rfl | later
    · omega
    · have bounded := (length_le_renderFields indent (level + 1) others).2 field later
      omega

/-- An array is read when its items are. -/
theorem reads_array {items : List Json} {level fuel : Nat}
    (areExact : ∀ item ∈ items, Exact item)
    (areRead : ∀ item ∈ items, Reads indent (level + 1) (readValue fuel) item) :
    Reads indent level (readValue (fuel + 1)) (array items) := by
  intro rest _
  cases items with
  | nil => rfl
  | cons item items =>
    have counted := (length_le_renderItems indent (level + 1) items).1
    rw [render_array_append]
    apply readValue_array
    · intro after closed
      obtain ⟨c, others, starts, -, notBracket⟩ :=
        render_starts indent (areExact item List.mem_cons_self) (level + 1)
      rw [skip_render (areExact item List.mem_cons_self) fun _ => isSpace_of_mem_lineBreak,
        starts] at closed
      exact notBracket (List.cons.inj closed).1
    · apply readItems_render areExact areRead ?_ fun _ => isSpace_of_mem_lineBreak
      simp only [List.length_append, List.length_cons]
      omega

/-- An object is read when the values of its fields are. -/
theorem reads_object {fields : List (String × Json)} {level fuel : Nat}
    (distinct : (fields.map Prod.fst).Nodup) (areExact : ∀ field ∈ fields, Exact field.2)
    (areRead : ∀ field ∈ fields, Reads indent (level + 1) (readValue fuel) field.2) :
    Reads indent level (readValue (fuel + 1)) (object fields) := by
  intro rest _
  cases fields with
  | nil => rfl
  | cons field fields =>
    have counted := (length_le_renderFields indent (level + 1) fields).1
    have noneKnown : (([] : List (String × Json)).map Prod.fst ++
        (field :: fields).map Prod.fst).Nodup := distinct
    rw [render_object_append]
    apply readValue_object
    · intro after closed
      rw [skip_quoted fun _ => isSpace_of_mem_lineBreak] at closed
      exact absurd (List.cons.inj closed).1 (by decide)
    · apply readFields_render areExact areRead noneKnown ?_ fun _ => isSpace_of_mem_lineBreak
      simp only [List.length_append, List.length_cons]
      omega

/-- A printed value takes at least one place. -/
theorem exists_fuel {value : Json} (isExact : Exact value) {level fuel : Nat}
    (enough : (render (plain indent) level value).length ≤ fuel) : ∃ less, fuel = less + 1 := by
  obtain ⟨c, others, starts, -⟩ := render_starts indent isExact level
  rw [starts] at enough
  exact Nat.exists_eq_succ_of_ne_zero (Nat.ne_of_gt (Nat.zero_lt_of_lt enough))

/-- A printed value is read with as much fuel as it has characters. -/
theorem readValue_render {value : Json} (isExact : Exact value) {level fuel : Nat}
    (enough : (render (plain indent) level value).length ≤ fuel) :
    Reads indent level (readValue fuel) value := by
  obtain ⟨fuel, rfl⟩ := exists_fuel isExact enough
  induction isExact generalizing level fuel with
  | null => exact fun _ _ => rfl
  | bool value => cases value <;> exact fun _ _ => rfl
  | int value => exact fun _ ends => readValue_int value fuel ends
  | string text => exact fun rest _ => readValue_string text fuel rest
  | array areExact inductionHypothesis =>
    refine reads_array areExact fun item member => ?_
    have less := Nat.le_of_lt_succ (Nat.lt_of_lt_of_le (length_lt_render_array member level) enough)
    obtain ⟨fuel, rfl⟩ := exists_fuel (areExact item member) less
    exact inductionHypothesis item member fuel less
  | object distinct areExact inductionHypothesis =>
    refine reads_object distinct areExact fun field member => ?_
    have less := Nat.le_of_lt_succ
      (Nat.lt_of_lt_of_le (length_lt_render_object member level) enough)
    obtain ⟨fuel, rfl⟩ := exists_fuel (areExact field member) less
    exact inductionHypothesis field member fuel less

end Values

/-! ### Texts -/

/-- A printed value is read as it was, with a line feed behind it. -/
theorem read?_print {value : Json} (isExact : Exact value) (indent : Option Nat) :
    read? (String.ofList ((print (plain indent) value).toList ++ ['\n'])) = some value := by
  have enough : (render (plain indent) 0 value).length ≤
      (render (plain indent) 0 value ++ ['\n']).length + 1 := by
    rw [List.length_append]
    omega
  have noBlanks : skip (render (plain indent) 0 value ++ ['\n']) =
      render (plain indent) 0 value ++ ['\n'] :=
    skip_render isExact (List.forall_mem_nil _) ['\n']
  have isRead := readValue_render isExact enough ['\n'] (endsValue_cons (by decide) [])
  rw [read?, String.toList_ofList, print, String.toList_ofList]
  simp only [noBlanks, isRead]
  rfl

end InterfaceAudit.Json
