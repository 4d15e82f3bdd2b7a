import InterfaceAudit.Proofs.Narrative.Section
import InterfaceAudit.Proofs.Table
import InterfaceAudit.Proofs.Text.Digits
import InterfaceAudit.Proofs.Text.Lines

/-!
Lines of written narratives.
What is written for an attribute, a step or a method is read from its lines, whatever stands in the
types, the signatures and the steps.
-/

namespace InterfaceAudit.Narrative

open Text

/-- A plain text holds no end of a line. -/
def IsPlain (text : List Char) : Prop := ∀ c ∈ text, c ≠ '\n' ∧ c ≠ '\r'

instance (text : List Char) : Decidable (IsPlain text) :=
  decidable_of_iff ((text.all fun c => c != '\n' && c != '\r') = true) (by simp [IsPlain])

theorem isPlain_append {front back : List Char} :
    IsPlain (front ++ back) ↔ IsPlain front ∧ IsPlain back :=
  List.forall_mem_append

theorem isPlain_cons {c : Char} {rest : List Char} :
    IsPlain (c :: rest) ↔ (c ≠ '\n' ∧ c ≠ '\r') ∧ IsPlain rest :=
  List.forall_mem_cons

theorem IsPlain.noFeed {text : List Char} (plain : IsPlain text) : '\n' ∉ text :=
  fun member => (plain _ member).1 rfl

theorem IsPlain.noReturn {text : List Char} (plain : IsPlain text) : '\r' ∉ text :=
  fun member => (plain _ member).2 rfl

theorem IsName.isPlain {name : List Char} (isName : IsName name) : IsPlain name := fun _ member =>
  ⟨ne_of_mem_of_not_mem member (isName.not_mem (by decide)),
    ne_of_mem_of_not_mem member (isName.not_mem (by decide))⟩

structure IsPhrase (text : List Char) : Prop where
  nonempty : text ≠ []
  isPlain : IsPlain text

/-- What is quoted does not end its quotation. -/
structure IsQuotation (text : List Char) : Prop extends IsPhrase text where
  noQuote : '\x60' ∉ text

structure WrittenAttribute where
  name : List Char
  type : List Char
  readonly : Bool
  isName : IsName name
  isQuotation : IsQuotation type

structure WrittenMethod where
  name : List Char
  isMarked : Bool
  signature : List Char
  steps : List (List Char)
  isName : IsName name
  isQuotation : IsQuotation signature
  arePhrases : ∀ step ∈ steps, IsPhrase step

/-! ### Attributes -/

namespace WrittenAttribute

variable (entry : WrittenAttribute)

def listed : ListedAttribute :=
  ⟨String.ofList entry.name, String.ofList entry.type, entry.readonly⟩

def flag : List Char := if entry.readonly then " [ReadOnly]".toList else []

def line : List Char :=
  "- **".toList ++ (entry.name ++ ("** (".toList ++ ('\x60' :: (entry.type ++ '\x60' ::
    ')' :: entry.flag))))

/-- The line of an attribute is read as what was written. -/
theorem listedAttribute?_line : listedAttribute? entry.line = some entry.listed := by
  have named (behind : List Char) : word (entry.name ++ ("** (".toList ++ behind)) =
      some (entry.name, "** (".toList ++ behind) := word_append entry.isName (by decide) _
  have typed := backquoted_append entry.isQuotation.nonempty entry.isQuotation.noQuote
    (')' :: entry.flag)
  have closed : afterSpelling [')'] (')' :: entry.flag) = some entry.flag :=
    afterSpelling_append [')'] entry.flag
  have flagged : " [ReadOnly]".toList.isPrefixOf entry.flag = entry.readonly := by
    unfold flag
    cases entry.readonly <;> rfl
  simp only [listedAttribute?, line, afterSpelling_append, named, typed, closed, flagged,
    Option.bind_eq_bind, Option.bind_some, Option.pure_def, listed]

/-- An attribute is written on one line. -/
theorem isPlain_line : IsPlain entry.line := by
  simp only [line, isPlain_append, isPlain_cons]
  refine ⟨by decide, entry.isName.isPlain, by decide, by decide, entry.isQuotation.isPlain,
    by decide, by decide, ?_⟩
  unfold flag
  cases entry.readonly <;> decide

theorem unopened_line : Unopened attributeMarks entry.line := fun _ => rfl

/-- The line of an attribute starts no method. -/
theorem not_endsWithHeading_line : ¬ EndsWithHeading entry.line := by
  obtain ⟨c, notWord, last⟩ : ∃ c, isWord c = false ∧ [c] <:+ ')' :: entry.flag := by
    unfold flag
    cases entry.readonly with
    | false => exact ⟨')', by decide, by decide⟩
    | true => exact ⟨']', by decide, by decide⟩
  have ending : ')' :: entry.flag <:+ entry.line :=
    ⟨"- **".toList ++ (entry.name ++ ("** (".toList ++ ('\x60' :: (entry.type ++ ['\x60'])))),
      by simp [line]⟩
  exact not_endsWithHeading (last.trans ending) notWord

end WrittenAttribute

/-- The algorithm of a method as far as it does not depend on what stands around the method. -/
def shown (algorithm : Algorithm) : String × List String := (algorithm.signature, algorithm.steps)

/-! ### Steps -/

def stepLine (step : Nat × List Char) : List Char :=
  (toString step.1).toList ++ ('.' :: ' ' :: step.2)

/-- A number is printed as digits. -/
theorem isDigit_of_mem_toString {number : Nat} {c : Char}
    (member : c ∈ (toString number).toList) : isDigit c = true := by
  rw [Nat.toString_eq_repr, Nat.toList_repr] at member
  exact isDigit_of_isAsciiDigit (isAsciiDigit_of_mem_toDigits member)

theorem toString_ne_nil (number : Nat) : (toString number).toList ≠ [] := by
  rw [Nat.toString_eq_repr, Nat.toList_repr]
  exact Nat.toDigits_ne_nil

/-- A numbered line is read as its step, whatever the number is. -/
theorem step?_stepLine (number : Nat) {step : List Char} (nonempty : step ≠ []) :
    step? (stepLine (number, step)) = some step := by
  obtain ⟨taken, left⟩ := run_append (fun _ digit => isDigit_of_mem_toString digit)
    (show isDigit '.' = false by decide) (' ' :: step)
  have digits : (toString number).toList ≠ [] := toString_ne_nil number
  cases step with
  | nil => contradiction
  | cons c step =>
    unfold stepLine step?
    rw [taken, left]
    split
    · contradiction
    · next behind _ =>
      obtain ⟨rfl, rfl⟩ : c = _ ∧ step = _ := by simpa using behind
      rfl
    · next unread => exact absurd rfl (unread _ _)

/-- A step is written on one line. -/
theorem isPlain_stepLine (number : Nat) {step : List Char} (plain : IsPlain step) :
    IsPlain (stepLine (number, step)) := by
  simp only [stepLine, isPlain_append, isPlain_cons]
  refine ⟨fun c member => ?_, by decide, by decide, plain⟩
  have digit : isDigit c = true := isDigit_of_mem_toString member
  constructor <;> rintro rfl <;> contradiction

/-- The line of a step ends no section. -/
theorem unopened_stepLine (step : Nat × List Char) :
    Unopened methodMarks (stepLine step) := by
  intro rest
  obtain ⟨c, digits, split⟩ := List.exists_cons_of_ne_nil (toString_ne_nil step.1)
  have digit : isDigit c = true := isDigit_of_mem_toString (split ▸ List.mem_cons_self)
  have apart : ('#' == c) = false := beq_false_of_ne (by rintro rfl; contradiction)
  rw [stepLine, split]
  simp [methodMarks, List.isPrefixOf, apart]

/-! ### Methods -/

namespace WrittenMethod

variable (method : WrittenMethod)

def marks : List (List Char) := if method.isMarked then [staticMark, []] else []

def stepLines : List (List Char) := (numbered 1 method.steps).map stepLine

def lines : List (List Char) :=
  ("### ".toList ++ method.name) :: [] :: (method.marks ++
    ("**Signature:** ".toList ++ '\x60' :: (method.signature ++ ['\x60'])) :: [] ::
      "**Algorithm:**".toList :: [] :: (method.stepLines ++ [[]]))

/-- The lines of a method are its heading, its signature and its steps. -/
theorem ended_lines (rest : List Char) :
    ended method.lines ++ rest =
      "### ".toList ++ (method.name ++ ("\n\n".toList ++ (ended method.marks ++
        ("**Signature:** ".toList ++ ('\x60' :: (method.signature ++ '\x60' ::
          ("\n\n**Algorithm:**\n\n".toList ++ (ended method.stepLines ++ '\n' :: rest)))))))) := by
  have behindName : "\n\n".toList = ['\n', '\n'] := rfl
  have behindSignature : "\n\n**Algorithm:**\n\n".toList =
      '\n' :: '\n' :: ("**Algorithm:**".toList ++ ['\n', '\n']) := rfl
  simp only [lines, ended_cons, ended_append, behindName, behindSignature, List.append_assoc,
    List.cons_append, List.nil_append]
  rfl

/-- The static mark is skipped where it stands. -/
theorem getD_afterStaticMark (behind : List Char) :
    let text := ended method.marks ++ ("**Signature:** ".toList ++ behind)
    (afterSpelling (staticMark ++ "\n\n".toList) text).getD text =
      "**Signature:** ".toList ++ behind := by
  unfold marks
  cases method.isMarked with
  | false => rfl
  | true =>
    have marked : ended [staticMark, []] = staticMark ++ "\n\n".toList := rfl
    simp only [if_true, marked, afterSpelling_append, Option.getD_some]

/-- The section of a written method is found, up to the end of its steps. -/
theorem section?_lines (rest : List Char) :
    (section? (ended method.lines ++ rest)) =
      let ends := splitAtMarks methodMarks (ended method.stepLines ++ '\n' :: rest)
      some ⟨method.name, method.signature, ends.1, ends.2⟩ := by
  have named (behind : List Char) : word (method.name ++ ("\n\n".toList ++ behind)) =
      some (method.name, "\n\n".toList ++ behind) := word_append method.isName (by decide) _
  have signed := backquoted_append method.isQuotation.nonempty method.isQuotation.noQuote
  have skipped := method.getD_afterStaticMark
  simp only at skipped
  rw [ended_lines]
  simp only [section?, afterSpelling_append, named, skipped, signed, Option.bind_eq_bind,
    Option.bind_some, Option.pure_def, methodMarks]

/-- Numbering the steps changes none of them. -/
theorem isPhrase_of_mem_numbered {step : Nat × List Char}
    (member : step ∈ numbered 1 method.steps) : IsPhrase step.2 := by
  refine method.arePhrases step.2 ?_
  rw [← map_snd_numbered 1 method.steps]
  exact List.mem_map_of_mem member

theorem isPlain_stepLines : ∀ line ∈ method.stepLines, IsPlain line := by
  rw [stepLines, List.forall_mem_map]
  exact fun step member => isPlain_stepLine step.1 (method.isPhrase_of_mem_numbered member).isPlain

/-- The lines of a method hold no line end. -/
theorem isPlain_lines : ∀ line ∈ method.lines, IsPlain line := by
  have name : IsPlain ("### ".toList ++ method.name) :=
    isPlain_append.mpr ⟨by decide, method.isName.isPlain⟩
  have signature :
      IsPlain ("**Signature:** ".toList ++ '\x60' :: (method.signature ++ ['\x60'])) := by
    simp only [isPlain_append, isPlain_cons]
    exact ⟨by decide, by decide, method.isQuotation.isPlain, by decide, nofun⟩
  have marks : ∀ line ∈ method.marks, IsPlain line := by
    unfold WrittenMethod.marks
    cases method.isMarked <;> decide
  simp only [lines, List.forall_mem_cons, List.forall_mem_append]
  exact ⟨name, nofun, marks, signature, nofun, by decide, nofun,
    method.isPlain_stepLines, nofun, nofun⟩

/-- The numbered lines are read as the steps in their order. -/
theorem filterMap_step?_stepLines :
    (method.stepLines.filterMap fun line => (step? line).map String.ofList) =
      method.steps.map String.ofList := by
  conv_rhs => rw [← map_snd_numbered 1 method.steps, List.map_map, ← List.filterMap_eq_map]
  rw [stepLines, List.filterMap_map]
  refine List.filterMap_congr fun step member => ?_
  rw [Function.comp_apply, step?_stepLine step.1 (method.isPhrase_of_mem_numbered member).nonempty]
  rfl

/-- The steps are read from their lines, whether an empty line is left behind them or not. -/
theorem filterMap_step?_ended {blank : List (List Char)} (isBlank : blank = [] ∨ blank = [[]]) :
    ((splitOn '\n' (ended (method.stepLines ++ blank))).filterMap fun line =>
      (step? line).map String.ofList) = method.steps.map String.ofList := by
  have free : ∀ line ∈ method.stepLines ++ blank, '\n' ∉ line := by
    rw [List.forall_mem_append]
    refine ⟨fun line member => (method.isPlain_stepLines line member).noFeed, ?_⟩
    rcases isBlank with rfl | rfl <;> simp
  have unread : ((blank ++ [[]]).filterMap fun line => (step? line).map String.ofList) = [] := by
    rcases isBlank with rfl | rfl <;> rfl
  rw [splitOn_ended free, List.append_assoc, List.filterMap_append, unread, List.append_nil,
    filterMap_step?_stepLines]

def entry : String × (String × List String) :=
  (String.ofList method.name, String.ofList method.signature, method.steps.map String.ofList)

/-- The next method or the end of the text ends a method. -/
def EndsMethod (rest : List Char) : Prop := rest = [] ∨ "### ".toList <+: rest

/-- The algorithm of a method ends behind its steps, and no method begins before the next one. -/
theorem splitAtMarks_stepLines {rest : List Char} (ends : EndsMethod rest) :
    ∃ blank left, (blank = [] ∨ blank = [[]]) ∧
      splitAtMarks methodMarks (ended method.stepLines ++ '\n' :: rest) =
        (ended (method.stepLines ++ blank), left) ∧
      left.length ≤ rest.length + 1 ∧ sections left = sections rest := by
  have free (line) (member : line ∈ method.stepLines) :=
    (method.isPlain_stepLines line member).noFeed
  have unopened : ∀ line ∈ method.stepLines, Unopened methodMarks line := by
    rw [stepLines, List.forall_mem_map]
    exact fun step _ => unopened_stepLine step
  rw [splitAtMarks_ended (by decide) (fun _ => rfl) free unopened]
  rcases ends with rfl | ⟨behind, rfl⟩
  · have atEnd : splitAtMarks methodMarks ['\n'] = (['\n'], []) := rfl
    refine ⟨[[]], [], .inr rfl, ?_, Nat.zero_le _, rfl⟩
    rw [atEnd, ended_append]
    rfl
  · have atNext : splitAtMarks methodMarks ('\n' :: ("### ".toList ++ behind)) =
        ([], '\n' :: ("### ".toList ++ behind)) :=
      splitAtMarks_mark (List.mem_cons_self : "\n### ".toList ∈ methodMarks) rfl behind
    refine ⟨[], '\n' :: ("### ".toList ++ behind), .inl rfl, ?_, Nat.le_refl _,
      sections_line List.not_mem_nil ?_ _⟩
    · rw [atNext, List.append_nil, List.append_nil]
    · exact not_endsWithHeading_of_count (by decide)

/-- A written method is one section, and the others follow behind it. -/
theorem sections_lines {rest : List Char} (ends : EndsMethod rest) :
    ∃ found, sections (ended method.lines ++ rest) =
        (ended method.lines ++ rest, found) :: sections rest ∧
      ∀ whole lookahead start, (String.ofList found.name,
        shown (algorithmOf whole lookahead start found)) = method.entry := by
  obtain ⟨blank, left, isBlank, split, bounded, behind⟩ := method.splitAtMarks_stepLines ends
  have isFound := method.section?_lines rest
  simp only [split] at isFound
  have shorter : left.length < (ended method.lines ++ rest).length := by
    refine Nat.lt_of_le_of_lt bounded ?_
    rw [ended_lines]
    simp
    omega
  refine ⟨_, (sections_of_section isFound shorter).trans (by rw [behind]), fun _ _ _ => ?_⟩
  simp only [shown, algorithmOf, method.filterMap_step?_ended isBlank, entry]

end WrittenMethod

end InterfaceAudit.Narrative
