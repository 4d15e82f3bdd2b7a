import InterfaceAudit.Text.Lines
import Mathlib.Data.List.Basic

/-!
Texts with marks: how a mark divides a text, and lines that a line feed ends.
-/

namespace InterfaceAudit.Text

/-- The first mark of a text divides it in one way only. -/
theorem append_firstMark_inj {mark : Char} {front other back tail : List Char}
    (frontFree : mark ∉ front) (otherFree : mark ∉ other)
    (same : front ++ mark :: back = other ++ mark :: tail) : front = other ∧ back = tail := by
  induction front generalizing other with
  | nil =>
    cases other with
    | nil => exact ⟨rfl, (List.cons.inj same).2⟩
    | cons c other => exact absurd (by simp [(List.cons.inj same).1]) otherFree
  | cons c front inductionHypothesis =>
    cases other with
    | nil => exact absurd (by simp [(List.cons.inj same).1]) frontFree
    | cons d other =>
      obtain ⟨rfl, rest⟩ := List.cons.inj same
      obtain ⟨rfl, rfl⟩ := inductionHypothesis (fun member => frontFree (.tail _ member))
        (fun member => otherFree (.tail _ member)) rest
      exact ⟨rfl, rfl⟩

/-- The last mark of a text divides it in one way only. -/
theorem append_lastMark_inj {mark : Char} {front other back tail : List Char}
    (backFree : mark ∉ back) (tailFree : mark ∉ tail)
    (same : front ++ mark :: back = other ++ mark :: tail) : front = other ∧ back = tail := by
  have turned := congrArg List.reverse same
  simp only [List.reverse_append, List.reverse_cons, List.append_assoc, List.singleton_append]
    at turned
  obtain ⟨sameBack, sameFront⟩ :=
    append_firstMark_inj (by simpa using backFree) (by simpa using tailFree) turned
  exact ⟨List.reverse_injective sameFront, List.reverse_injective sameBack⟩

/-- A run ends with the text, or at the first character that is not of its kind. -/
theorem run_append_of_head {holds : Char → Bool} {run rest : List Char}
    (inside : ∀ c ∈ run, holds c = true) (stop : ∀ c ∈ rest.head?, holds c = false) :
    (run ++ rest).takeWhile holds = run ∧ (run ++ rest).dropWhile holds = rest := by
  rw [List.takeWhile_append_of_pos inside, List.dropWhile_append_of_pos inside]
  cases rest with
  | nil => simp
  | cons c rest => simp [stop c rfl]

/-- A run ends at the first character that stops it. -/
theorem run_append {holds : Char → Bool} {run : List Char} (inside : ∀ c ∈ run, holds c = true)
    {c : Char} (stop : holds c = false) (rest : List Char) :
    (run ++ c :: rest).takeWhile holds = run ∧ (run ++ c :: rest).dropWhile holds = c :: rest :=
  run_append_of_head inside fun _ isFirst => Option.some.inj isFirst ▸ stop

/-- A piece without the mark ends at the mark. -/
theorem splitOn_append {mark : Char} {piece : List Char} (free : mark ∉ piece) (rest : List Char) :
    splitOn mark (piece ++ mark :: rest) = piece :: splitOn mark rest := by
  induction piece with
  | nil => simp [splitOn]
  | cons c piece inductionHypothesis =>
    obtain ⟨different, others⟩ := not_or.mp (List.mem_cons.not.mp free)
    have apart : (c == mark) = false := beq_false_of_ne fun same => different same.symm
    rw [List.cons_append, splitOn, inductionHypothesis others]
    simp only [apart, Bool.false_eq_true, if_false]

/-- Lines that a line feed ends. -/
def ended (lines : List (List Char)) : List Char := lines.flatMap fun line => line ++ ['\n']

theorem ended_cons (line : List Char) (lines : List (List Char)) :
    ended (line :: lines) = line ++ '\n' :: ended lines := by
  simp [ended]

theorem ended_append (lines others : List (List Char)) :
    ended (lines ++ others) = ended lines ++ ended others :=
  List.flatMap_append

/-- Ended lines are split again, with nothing behind the last line feed. -/
theorem splitOn_ended {lines : List (List Char)} (free : ∀ line ∈ lines, '\n' ∉ line) :
    splitOn '\n' (ended lines) = lines ++ [[]] := by
  induction lines with
  | nil => rfl
  | cons line lines inductionHypothesis =>
    obtain ⟨first, others⟩ := List.forall_mem_cons.mp free
    rw [ended_cons, splitOn_append first, inductionHypothesis others, List.cons_append]

/-! ### Returns in front of line feeds -/

/-- A carriage return is put in front of every line feed. -/
def withReturns (text : List Char) : List Char :=
  text.flatMap fun c => if c = '\n' then ['\r', '\n'] else [c]

theorem joinReturns_cons {c : Char} (other : c ≠ '\r') (rest : List Char) :
    joinReturns (c :: rest) = c :: joinReturns rest :=
  joinReturns.eq_3 c rest fun _ isReturn _ => other isReturn

/-- A text without returns is left as it is. -/
theorem joinReturns_of_not_mem {text : List Char} (free : '\r' ∉ text) :
    joinReturns text = text := by
  induction text with
  | nil => rfl
  | cons c text inductionHypothesis =>
    obtain ⟨other, others⟩ := not_or.mp (List.mem_cons.not.mp free)
    rw [joinReturns_cons (Ne.symm other), inductionHypothesis others]

/-- Returns in front of the line feeds are joined with them again. -/
theorem joinReturns_withReturns {text : List Char} (free : '\r' ∉ text) :
    joinReturns (withReturns text) = text := by
  induction text with
  | nil => rfl
  | cons c text inductionHypothesis =>
    obtain ⟨other, others⟩ := not_or.mp (List.mem_cons.not.mp free)
    rw [withReturns, List.flatMap_cons, ← withReturns]
    split
    · next feed =>
      rw [feed]
      exact congrArg ('\n' :: ·) (inductionHypothesis others)
    · rw [List.singleton_append, joinReturns_cons (Ne.symm other), inductionHypothesis others]

end InterfaceAudit.Text
