import InterfaceAudit.Proofs.Narrative.Written

/-!
Round trip of narratives.
The attributes of a written narrative are read in their order, and its methods are read as if they
were put into a table one after the other.
-/

namespace InterfaceAudit.Narrative

open Text

variable (attributes : List WrittenAttribute) (methods : List WrittenMethod)

def attributeLines : List (List Char) := attributes.map WrittenAttribute.line

def methodLines : List (List Char) := methods.flatMap WrittenMethod.lines

/-- The lines in front of the methods. -/
def frontLines : List (List Char) :=
  "## Attributes".toList :: [] :: (attributeLines attributes ++ [[], "## Methods".toList, []])

def written : List Char := ended (frontLines attributes ++ methodLines methods)

/-! ### Attributes -/

theorem isPlain_attributeLines : ∀ line ∈ attributeLines attributes, IsPlain line :=
  List.forall_mem_map.mpr fun entry _ => entry.isPlain_line

theorem noFeed_attributeLines (line : List Char) (member : line ∈ attributeLines attributes) :
    '\n' ∉ line :=
  (isPlain_attributeLines attributes line member).noFeed

/-- What stands behind the attributes of a written narrative. -/
def behindAttributes : List Char := "## Methods\n\n".toList ++ ended (methodLines methods)

/-- A narrative is its heading, its attributes and what follows them. -/
theorem written_eq :
    written attributes methods = attributesHeading ++
      (ended (attributeLines attributes) ++ '\n' :: behindAttributes methods) := by
  have heading : attributesHeading = "## Attributes".toList ++ ['\n', '\n'] := rfl
  have behind : behindAttributes methods =
      "## Methods".toList ++ ('\n' :: '\n' :: ended (methodLines methods)) := rfl
  rw [heading, behind]
  simp only [written, frontLines, ended_append, ended_cons, List.append_assoc, List.cons_append,
    List.nil_append]

/-- The section of the attributes ends at the heading of the methods. -/
theorem attributeSection_written :
    attributeSection (written attributes methods) = ended (attributeLines attributes) := by
  have started : leftmost (afterSpelling attributesHeading) (written attributes methods) =
      some (ended (attributeLines attributes) ++ '\n' :: behindAttributes methods) := by
    rw [written_eq]
    exact leftmost_of_some (afterSpelling_append ..)
  have unopened : ∀ line ∈ attributeLines attributes, Unopened attributeMarks line :=
    List.forall_mem_map.mpr fun entry _ => entry.unopened_line
  have atMethods : (splitAtMarks attributeMarks ('\n' :: behindAttributes methods)).1 = [] := rfl
  have split := splitAtMarks_ended (by decide) (fun _ => rfl) (noFeed_attributeLines attributes)
    unopened (behindAttributes methods)
  rw [atMethods, List.append_nil] at split
  rw [attributeSection, started]
  exact congrArg Prod.fst split

/-- The attributes are listed as they were written. -/
theorem listedAttributes_written :
    listedAttributes (written attributes methods) = attributes.map WrittenAttribute.listed := by
  have read : listedAttribute? ∘ WrittenAttribute.line = some ∘ WrittenAttribute.listed :=
    funext WrittenAttribute.listedAttribute?_line
  have unread : [[]].filterMap listedAttribute? = [] := rfl
  rw [listedAttributes, attributeSection_written, splitOn_ended (noFeed_attributeLines attributes),
    List.filterMap_append, unread, List.append_nil, attributeLines, List.filterMap_map, read,
    List.filterMap_eq_map]

/-! ### Methods -/

/-- Behind the attributes the text ends or a method begins. -/
theorem endsMethod_ended : WrittenMethod.EndsMethod (ended (methodLines methods)) := by
  cases methods with
  | nil => exact .inl rfl
  | cons method methods =>
    rw [methodLines, List.flatMap_cons, ended_append, WrittenMethod.ended_lines]
    exact .inr (List.prefix_append ..)

/-- One method is put into the table after the other. -/
theorem shown_foldl_sections (whole : Nat) (lookahead : Int) (table : Table Algorithm) :
    ((sections (ended (methodLines methods))).foldl (fun methods (start, found) =>
        methods.set (String.ofList found.name) (algorithmOf whole lookahead start found))
      table).map shown =
      (methods.map WrittenMethod.entry).foldl (fun table entry => table.set entry.1 entry.2)
        (table.map shown) := by
  induction methods generalizing table with
  | nil =>
    have nothing : sections [] = [] := by rw [sections]
    rw [show ended (methodLines []) = [] from rfl, nothing, List.foldl_nil, List.map_nil,
      List.foldl_nil]
  | cons method methods inductionHypothesis =>
    -- What the first method leaves unread begins where the next method begins.
    obtain ⟨found, first, isEntry⟩ := method.sections_lines (endsMethod_ended methods)
    have split : ended (methodLines (method :: methods)) =
        ended method.lines ++ ended (methodLines methods) := by
      rw [methodLines, List.flatMap_cons, ended_append, methodLines]
    rw [split, first, List.foldl_cons, inductionHypothesis, Table.map_set, List.map_cons,
      List.foldl_cons, ← isEntry]

theorem isPlain_frontLines : ∀ line ∈ frontLines attributes, IsPlain line := by
  simp only [frontLines, List.forall_mem_cons, List.forall_mem_append]
  exact ⟨by decide, nofun, isPlain_attributeLines attributes, nofun, by decide, nofun, nofun⟩

/-- No line in front of the methods ends with the heading of one. -/
theorem not_endsWithHeading_frontLines :
    ∀ line ∈ frontLines attributes, ¬ EndsWithHeading line := by
  have empty := not_endsWithHeading_of_count (show [].count '#' < 3 by decide)
  simp only [frontLines, attributeLines, List.forall_mem_cons, List.forall_mem_append,
    List.forall_mem_map]
  exact ⟨not_endsWithHeading_of_count (by decide), empty,
    fun entry _ => entry.not_endsWithHeading_line, empty,
    not_endsWithHeading_of_count (by decide), empty, nofun⟩

/-- The sections are those of the methods. -/
theorem sections_written :
    sections (written attributes methods) = sections (ended (methodLines methods)) := by
  rw [written, ended_append]
  exact sections_ended (fun line member => (isPlain_frontLines attributes line member).noFeed)
    (not_endsWithHeading_frontLines attributes) _

/-- No return is written, so putting them in front of the line feeds can be undone. -/
theorem noReturn_written : '\r' ∉ written attributes methods := by
  rw [written, ended, List.mem_flatMap]
  rintro ⟨line, member, isReturn⟩
  have plain : IsPlain line := by
    rcases List.mem_append.mp member with front | behind
    · exact isPlain_frontLines attributes line front
    · obtain ⟨method, -, inMethod⟩ := List.mem_flatMap.mp behind
      exact method.isPlain_lines line inMethod
  rcases List.mem_append.mp isReturn with inLine | atEnd
  · exact plain.noReturn inLine
  · exact absurd atEnd (by decide)

/-- The methods of a narrative with their signatures and steps. -/
def recorded (narrative : Narrative) : Table (String × List String) := narrative.methods.map shown

/-- A written narrative is read as it was written, also with a return in front of each line feed.
A repeated method keeps its first place and takes its last signature and steps. -/
theorem read_written (lookahead : Int) :
    (read lookahead (written attributes methods)).attributes =
        attributes.map WrittenAttribute.listed ∧
      (read lookahead (written attributes methods)).recorded =
        Table.ofEntries (methods.map WrittenMethod.entry) ∧
      (read lookahead (written attributes methods)).recorded.names =
        (methods.map fun method => String.ofList method.name).eraseDups ∧
      (∀ name, (read lookahead (written attributes methods)).recorded.get? name =
        ((methods.map WrittenMethod.entry).reverse.find? fun entry => entry.1 == name).map
          Prod.snd) ∧
      read lookahead (withReturns (written attributes methods)) =
        read lookahead (written attributes methods) := by
  have noReturn := noReturn_written attributes methods
  have joined := joinReturns_of_not_mem noReturn
  have listed : (read lookahead (written attributes methods)).attributes =
      attributes.map WrittenAttribute.listed := by
    rw [read, joined]
    exact listedAttributes_written attributes methods
  have isRecorded : (read lookahead (written attributes methods)).recorded =
      Table.ofEntries (methods.map WrittenMethod.entry) := by
    have folded := shown_foldl_sections methods (written attributes methods).length lookahead .empty
    rw [← sections_written attributes methods] at folded
    rw [recorded, read, joined]
    exact folded
  have returned : read lookahead (withReturns (written attributes methods)) =
      read lookahead (written attributes methods) := by
    rw [read, joinReturns_withReturns noReturn, read, joined]
  refine ⟨listed, isRecorded, ?_, fun name => ?_, returned⟩
  · rw [isRecorded, Table.names_ofEntries, List.map_map]
    rfl
  · rw [isRecorded, Table.get?_ofEntries]

example :
    written
      [⟨"size".toList, "long".toList, true, by decide, ⟨⟨by decide, by decide⟩, by decide⟩⟩]
      [⟨"run".toList, true, "run(x)".toList, ["### 1. ".toList], by decide,
        ⟨⟨by decide, by decide⟩, by decide⟩,
        List.forall_mem_singleton.mpr ⟨by decide, by decide⟩⟩] =
      ended
        ["## Attributes".toList, [], "- **size** (\x60long\x60) [ReadOnly]".toList, [],
          "## Methods".toList, [], "### run".toList, [], "**Static Method**".toList, [],
          "**Signature:** \x60run(x)\x60".toList, [], "**Algorithm:**".toList, [],
          "1. ### 1. ".toList, []] := by
  decide +kernel

end InterfaceAudit.Narrative
