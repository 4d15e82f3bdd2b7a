import InterfaceAudit.Proofs.Native.Link

/-!
Recognized return types.
The name of an instance method is the last word in front of the first parenthesis, whichever of the
types is read. So a header knows its return types as a set, and further types only add methods or
find them on earlier lines.
-/

namespace InterfaceAudit.Native

open Text

/-! ### Names in front of parentheses -/

/-- The word at the end of a text, where blanks may follow it. -/
def lastWord (text : List Char) : List Char :=
  ((text.reverse.dropWhile isBlank).takeWhile isWord).reverse

/-- The last word stands behind the last gap, whatever blank follows it. -/
theorem lastWord_append {front gap name tail : List Char} (isGap : Gap gap) (nonempty : name ≠ [])
    (word : ∀ c ∈ name, isWord c = true) (blank : Blank tail) :
    lastWord (front ++ gap ++ (name ++ tail)) = name := by
  have turned : (front ++ gap ++ (name ++ tail)).reverse =
      tail.reverse ++ (name.reverse ++ (gap.reverse ++ front.reverse)) := by
    simp
  have endsWord : ∀ c ∈ (name.reverse ++ (gap.reverse ++ front.reverse)).head?,
      isBlank c = false := by
    intro c last
    rw [List.head?_append_of_ne_nil _ (by simpa using nonempty)] at last
    exact isBlank_false_of_isWord (word c (List.mem_reverse.mp (List.mem_of_mem_head? last)))
  have endsGap : ∀ c ∈ (gap.reverse ++ front.reverse).head?, isWord c = false := by
    intro c last
    rw [List.head?_append_of_ne_nil _ (by simpa using isGap.ne_nil)] at last
    exact isWord_false_of_isBlank
      (isGap.blank c (List.mem_reverse.mp (List.mem_of_mem_head? last)))
  rw [lastWord, turned, (run_append_of_head (by simpa [Blank] using blank) endsWord).2,
    (run_append_of_head (by simpa using word) endsGap).1, List.reverse_reverse]

/-- Some known type and the name stand behind an indent. -/
def TypedDeclaration (types : List (List Char)) (name line : List Char) : Prop :=
  ∃ indent text, Blank indent ∧ line = indent ++ text ∧ ∃ type ∈ types, TypedCall type name text

theorem not_mem_of_blank {text : List Char} (blank : Blank text) : '(' ∉ text :=
  fun member => absurd (blank _ member) (by decide)

theorem not_mem_of_word {name : List Char} (word : ∀ c ∈ name, isWord c = true) : '(' ∉ name :=
  fun member => absurd (word _ member) (by decide)

/-- The parenthesis behind the name is the first one, because there is none in a type. -/
theorem TypedDeclaration.exists_front {types : List (List Char)} {name line : List Char}
    (plain : ∀ type ∈ types, '(' ∉ type) (declaration : TypedDeclaration types name line) :
    ∃ front rest, line = front ++ '(' :: rest ∧ '(' ∉ front ∧ lastWord front = name := by
  obtain ⟨indent, _, indentBlank, rfl, type, known, gap, _, isGap,
    ⟨nonempty, word, tail, rest, tailBlank, rfl⟩, rfl⟩ := declaration
  refine ⟨indent ++ type ++ gap ++ (name ++ tail), rest, by simp, ?_,
    lastWord_append isGap nonempty word tailBlank⟩
  simp [not_mem_of_blank indentBlank, plain type known, not_mem_of_blank isGap.blank,
    not_mem_of_word word, not_mem_of_blank tailBlank]

/-- A line declares at most one name, whichever type is read. -/
theorem TypedDeclaration.unique {types : List (List Char)} {name other line : List Char}
    (plain : ∀ type ∈ types, '(' ∉ type) (declaration : TypedDeclaration types name line)
    (otherDeclaration : TypedDeclaration types other line) : name = other := by
  obtain ⟨front, rest, rfl, free, rfl⟩ := declaration.exists_front plain
  obtain ⟨otherFront, otherRest, same, otherFree, rfl⟩ := otherDeclaration.exists_front plain
  rw [(append_firstMark_inj free otherFree same).1]

/-- A declaration stays one when further types are known. -/
theorem TypedDeclaration.mono {types others : List (List Char)} {name line : List Char}
    (known : types ⊆ others) (declaration : TypedDeclaration types name line) :
    TypedDeclaration others name line := by
  obtain ⟨indent, text, blank, split, type, member, typed⟩ := declaration
  exact ⟨indent, text, blank, split, type, known member, typed⟩

/-! ### Lines -/

/-- Which of the types is read first does not matter for the name. -/
theorem methodName?_eq_some_iff_typed {types : List (List Char)}
    (plain : ∀ type ∈ types, '(' ∉ type) {line name : List Char} :
    methodName? types line = some name ↔ TypedDeclaration types name line := by
  have read {found : List Char} (isFound : methodName? types line = some found) :
      TypedDeclaration types found line := by
    obtain ⟨indent, text, earlier, type, later, blank, split, known, typed, -⟩ :=
      methodName?_eq_some_iff.mp isFound
    exact ⟨indent, text, blank, split, type, by simp [known], typed⟩
  refine ⟨read, fun declaration => ?_⟩
  cases found : methodName? types line with
  -- Another name may come from another type, but the line has one name only.
  | some other => rw [(read found).unique plain declaration]
  | none =>
    obtain ⟨indent, text, blank, split, type, known, typed⟩ := declaration
    have unread := List.findSome?_eq_none_iff.mp found text
      (mem_indentSplits.mpr ⟨indent, blank, split⟩)
    exact absurd typed (nameAfterType_eq_none_iff.mp
      (List.findSome?_eq_none_iff.mp unread type known) name)

/-- Further types do not change the name that a line declares. -/
theorem methodName?_mono {types others : List (List Char)} (known : types ⊆ others)
    (plain : ∀ type ∈ others, '(' ∉ type) {line name : List Char}
    (found : methodName? types line = some name) : methodName? others line = some name := by
  rw [methodName?_eq_some_iff_typed fun type member => plain type (known member)] at found
  exact (methodName?_eq_some_iff_typed plain).mpr (found.mono known)

/-- Further types do not change what a line declares. -/
theorem declared?_mono {types others : List (List Char)} (known : types ⊆ others)
    (plain : ∀ type ∈ others, '(' ∉ type) {line : List Char} {declared : Declared}
    (found : declared? types line = some declared) : declared? others line = some declared := by
  unfold declared? at found ⊢
  split at found
  · exact found
  · obtain ⟨name, isName, rfl⟩ := Option.map_eq_some_iff.mp found
    rw [methodName?_mono known plain isName]
    rfl

/-- Further types are spelled beside the ones that were known. -/
theorem spellingsOf_subset {first second : List String} (nonempty : first ≠ [])
    (known : first ⊆ second) : spellingsOf first ⊆ spellingsOf second := by
  have isGiven : second ≠ [] := fun isEmpty => nonempty (List.subset_nil.mp (isEmpty ▸ known))
  simpa [spellingsOf, nonempty, isGiven] using List.map_subset String.toList known

/-- Types without parentheses are spelled without them, also when there is no type at all. -/
theorem spellingsOf_plain {types : List String} (plain : ∀ type ∈ types, '(' ∉ type.toList) :
    ∀ type ∈ spellingsOf types, '(' ∉ type := by
  unfold spellingsOf
  split
  · simp
  · simpa using plain

/-! ### Headers -/

/-- What a line adds to the static methods, whatever types are known. -/
def recordStatic (table : SymbolTable) (line : Nat × List Char) : SymbolTable :=
  match staticName? line.2 with
  | some name => table.insertNew (String.ofList name) ⟨line.1, none⟩
  | none => table

/-- Static declarations are recorded without a look at the types. -/
theorem record_staticMethods (types : List (List Char)) (symbols : HeaderSymbols)
    (line : Nat × List Char) :
    (record types symbols line).staticMethods = recordStatic symbols.staticMethods line := by
  unfold record declared? recordStatic
  cases staticName? line.2 with
  | some name => rfl
  | none => cases methodName? types line.2 <;> rfl

/-- Recording a line does not change the name of the class. -/
theorem record_className (types : List (List Char)) (symbols : HeaderSymbols)
    (line : Nat × List Char) : (record types symbols line).className = symbols.className := by
  unfold record
  split <;> rfl

/-- The static declarations of a header do not depend on the types. -/
theorem readHeader_staticMethods (types : List String) (text : List Char) :
    (readHeader types text).staticMethods =
      (numbered 1 (lines text)).foldl recordStatic .empty :=
  (List.foldl_hom HeaderSymbols.staticMethods fun symbols line =>
    (record_staticMethods (spellingsOf types) symbols line).symm).symm

/-- The name of the class does not depend on the types. -/
theorem readHeader_className (types : List String) (text : List Char) :
    (readHeader types text).className = ((className? text).map String.ofList).getD "" := by
  refine List.foldlRecOn _ _ (motive := fun symbols : HeaderSymbols =>
    symbols.className = ((className? text).map String.ofList).getD "") rfl ?_
  exact fun symbols same line _ => (record_className _ symbols line).trans same

variable {first second : List String}

/-- A line keeps declaring its symbol when further types are known. -/
theorem Declares.mono (nonempty : first ≠ []) (known : first ⊆ second)
    (plain : ∀ type ∈ second, '(' ∉ type.toList) {isStatic : Bool} {symbol : String}
    {line : List Char} (declares : Declares first isStatic symbol.toList line) :
    Declares second isStatic symbol.toList line := by
  rw [← declared?_eq_some_iff] at declares ⊢
  exact declared?_mono (spellingsOf_subset nonempty known) (spellingsOf_plain plain) declares

/-- Further types find every method again, on the same line or an earlier one. -/
theorem readHeader_mono (nonempty : first ≠ []) (known : first ⊆ second)
    (plain : ∀ type ∈ second, '(' ∉ type.toList) (text : List Char) {name : String} {place : Place}
    (found : (readHeader first text).methods.get? name = some place) :
    ∃ other, (readHeader second text).methods.get? name = some other ∧ other.line ≤ place.line := by
  have least := (readHeader_line?_eq_some_iff first false name text place.line).mp
    (congrArg (Option.map Place.line) found)
  have declared : place.line ∈ linesWhere text (Declares second false name.toList) := by
    obtain ⟨positive, line, isLine, declares⟩ := least.1
    exact ⟨positive, line, isLine, declares.mono nonempty known plain⟩
  obtain ⟨number, isLeast⟩ := nonempty_iff_isLeast.mp ⟨place.line, declared⟩
  obtain ⟨other, isOther, sameLine⟩ := Option.map_eq_some_iff.mp
    ((readHeader_line?_eq_some_iff second false name text number).mpr isLeast)
  exact ⟨other, isOther, sameLine ▸ isLeast.2 declared⟩

/-- Types that are the same set read the same header. -/
theorem readHeader_congr (nonempty : first ≠ []) (same : ∀ type, type ∈ first ↔ type ∈ second)
    (plain : ∀ type ∈ second, '(' ∉ type.toList) (text : List Char) :
    readHeader first text = readHeader second text := by
  have known : first ⊆ second := fun type => (same type).mp
  have alsoKnown : second ⊆ first := fun type => (same type).mpr
  have isGiven : second ≠ [] := fun isEmpty => nonempty (List.subset_nil.mp (isEmpty ▸ known))
  have alsoPlain : ∀ type ∈ first, '(' ∉ type.toList := fun type member => plain type (known member)
  have declares (line : List Char) :
      declared? (spellingsOf first) line = declared? (spellingsOf second) line := by
    apply Option.ext
    intro declared
    constructor
    · exact declared?_mono (spellingsOf_subset nonempty known) (spellingsOf_plain plain)
    · exact declared?_mono (spellingsOf_subset isGiven alsoKnown) (spellingsOf_plain alsoPlain)
  have records : record (spellingsOf first) = record (spellingsOf second) := by
    funext symbols line
    rw [record, record, declares]
  rw [readHeader, records, readHeader]

/-- Lists of the same return types give the same header. With further types every instance method
is found where it was or earlier, and the class and the static methods stay. -/
theorem readHeader_types (nonempty : first ≠ []) (plain : ∀ type ∈ second, '(' ∉ type.toList)
    (text : List Char) :
    ((∀ type, type ∈ first ↔ type ∈ second) → readHeader first text = readHeader second text) ∧
      (first ⊆ second →
        (∀ name place, (readHeader first text).methods.get? name = some place →
          ∃ other, (readHeader second text).methods.get? name = some other ∧
            other.line ≤ place.line) ∧
        (readHeader first text).className = (readHeader second text).className ∧
        (readHeader first text).staticMethods = (readHeader second text).staticMethods) := by
  refine ⟨fun same => readHeader_congr nonempty same plain text, fun known => ⟨?_, ?_, ?_⟩⟩
  · exact fun name place => readHeader_mono nonempty known plain text
  · rw [readHeader_className, readHeader_className]
  · rw [readHeader_staticMethods, readHeader_staticMethods]

/-- A method whose type begins with another type, behind a line without any type. -/
def untypedHeader : List Char :=
  ("class A : B \x7b\n  Run(int x);\n  static bool Run();\n  unsigned long Run(int y);\n" ++
    "\x7d;\n").toList

/-- Further types, the empty one among them, find the method on no later line. -/
theorem readHeader_types_untyped :
    (readHeader ["unsigned long"] untypedHeader).methods.get? "Run" = some ⟨4, none⟩ ∧
      (∃ other, (readHeader ["unsigned", "", "unsigned long"] untypedHeader).methods.get? "Run" =
        some other ∧ other.line ≤ 4) ∧
      readHeader ["", "unsigned long", ""] untypedHeader =
        readHeader ["unsigned long", ""] untypedHeader := by
  have found : (readHeader ["unsigned long"] untypedHeader).methods.get? "Run" =
      some ⟨4, none⟩ := by
    decide +kernel
  have further := @readHeader_types ["unsigned long"] ["unsigned", "", "unsigned long"]
    (by decide) (by decide) untypedHeader
  have repeated := @readHeader_types ["", "unsigned long", ""] ["unsigned long", ""]
    (by decide) (by decide) untypedHeader
  refine ⟨found, (further.2 (by decide)).1 "Run" _ found, repeated.1 fun type => ?_⟩
  simp [or_comm]

end InterfaceAudit.Native
