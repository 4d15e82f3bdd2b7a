import InterfaceAudit.Proofs.Idl.Refill
import InterfaceAudit.Proofs.Idl.Words

/-!
Compact texts: white space is left out beside the marks of types, and between two words one space is
left of it.
A text without comments is read in lockstep with its compact text.
-/

namespace InterfaceAudit.Idl

open Grammar
open Text (isWhiteSpace)

def typeMarkChars : List Char := ['<', '>', '(', ')', ',', '?']

/-- A character of a word is neither white space nor a mark of types. -/
def isWordy (c : Char) : Bool := !isWhiteSpace c && !typeMarkChars.contains c

/-- White space stays, as one space, only where a word is in front of it and another one behind
it. -/
def compact : Bool → List Char → List Char
  | _, [] => []
  | behindWord, c :: rest =>
    if isWhiteSpace c then
      if behindWord && rest.head?.any isWordy then ' ' :: compact false rest
      else compact behindWord rest
    else c :: compact (isWordy c) rest

/-- No white space stands at the beginning. -/
def Settled (text : List Char) : Prop := ∀ c ∈ text.head?, isWhiteSpace c = false

theorem settled_cons {c : Char} {rest : List Char} (solid : isWhiteSpace c = false) :
    Settled (c :: rest) := by
  simpa [Settled] using solid

theorem settled_dropWhile (text : List Char) : Settled (text.dropWhile isWhiteSpace) :=
  Text.head_dropWhile isWhiteSpace text

/-- A text begins with a run of a class, which ends where the class does. -/
theorem exists_run (holds : Char → Bool) (text : List Char) :
    ∃ run rest, run ++ rest = text ∧ run.all holds = true ∧
      ∀ c ∈ rest.head?, holds c = false :=
  ⟨_, _, List.takeWhile_append_dropWhile, List.all_takeWhile, Text.head_dropWhile holds text⟩

/-- A run is dropped as a whole when it is followed by something else. -/
theorem dropWhile_run {holds : Char → Bool} {run rest : List Char} (all : run.all holds = true)
    (stops : ∀ c ∈ rest.head?, holds c = false) : (run ++ rest).dropWhile holds = rest := by
  rw [List.dropWhile_append_of_pos (List.all_eq_true.mp all)]
  cases rest with
  | nil => rfl
  | cons c rest => exact List.dropWhile_cons_of_neg (by simpa using stops c rfl)

/-- Parts of words and numbers need a space between them. -/
theorem isWordy_of_isTokenPart {c : Char} (part : isTokenPart c = true) : isWordy c = true := by
  have apart : typeMarkChars.all (fun c => !isTokenPart c) = true := by decide
  have notMark : typeMarkChars.contains c = false := by
    refine eq_false_of_ne_true fun member => ?_
    have fails := List.all_eq_true.mp apart c (List.contains_iff_mem.mp member)
    rw [part] at fails
    contradiction
  rw [isWordy, notMark, isWhiteSpace_false_of_isTokenPart part]
  rfl

/-- Where no word begins there is no token character. -/
theorem stops_of_not_wordy {text : List Char} (notWordy : ¬text.head?.any isWordy = true) :
    ∀ c ∈ text.head?, isTokenPart c = false := by
  intro c first
  by_contra part
  rw [Option.mem_def.mp first] at notWordy
  exact notWordy (isWordy_of_isTokenPart (by simpa using part))

/-- A character that is no white space is kept. -/
theorem compact_solid (behindWord : Bool) {c : Char} (solid : isWhiteSpace c = false)
    (rest : List Char) : compact behindWord (c :: rest) = c :: compact (isWordy c) rest := by
  rw [compact, solid]
  rfl

/-- What stands in front of a settled text does not matter. -/
theorem compact_settled {text : List Char} (settled : Settled text) (first second : Bool) :
    compact first text = compact second text := by
  cases text with
  | nil => rfl
  | cons c rest => rw [compact_solid first (settled c rfl), compact_solid second (settled c rfl)]

/-- A compact text starts with no white space if the text does not. -/
theorem settled_compact {text : List Char} (settled : Settled text) (behindWord : Bool) :
    Settled (compact behindWord text) := by
  cases text with
  | nil => exact nofun
  | cons c rest =>
    rw [compact_solid behindWord (settled c rfl)]
    exact settled_cons (settled c rfl)

/-- White space in front of a settled text. -/
theorem compact_append_of_isWhiteSpace {gap rest : List Char}
    (white : gap.all isWhiteSpace = true) (nonempty : gap ≠ []) (settled : Settled rest)
    (behindWord : Bool) :
    compact behindWord (gap ++ rest) =
      (if behindWord && rest.head?.any isWordy then [' '] else []) ++ compact false rest := by
  induction gap with
  | nil => contradiction
  | cons c gap inductionHypothesis =>
    rw [List.all_cons, Bool.and_eq_true] at white
    rw [List.cons_append, compact, if_pos white.1]
    cases gap with
    | nil =>
      rw [List.nil_append]
      split
      · rfl
      · exact compact_settled settled behindWord false
    | cons next gap =>
      have nextWhite := white.2
      rw [List.all_cons, Bool.and_eq_true] at nextWhite
      have notWordy : isWordy next = false := by rw [isWordy, nextWhite.1]; rfl
      rw [if_neg (by simp [notWordy])]
      exact inductionHypothesis white.2 (List.cons_ne_nil next gap)

/-- White space at the beginning is skipped on both sides. -/
theorem dropWhile_compact (behindWord : Bool) (text : List Char) :
    (compact behindWord text).dropWhile isWhiteSpace =
      compact false (text.dropWhile isWhiteSpace) := by
  obtain ⟨gap, rest, rfl, white, settled⟩ := exists_run isWhiteSpace text
  rw [dropWhile_run white settled]
  by_cases empty : gap = []
  · rw [empty, List.nil_append, compact_settled settled behindWord false]
    exact dropWhile_run List.all_nil (settled_compact settled false)
  · rw [compact_append_of_isWhiteSpace white empty settled]
    refine dropWhile_run ?_ (settled_compact settled false)
    split <;> rfl

/-- Words stand as they are. -/
theorem compact_run {run : List Char} (parts : run.all isTokenPart = true) (rest : List Char) :
    compact true (run ++ rest) = run ++ compact true rest := by
  induction run with
  | nil => rfl
  | cons c run inductionHypothesis =>
    rw [List.all_cons, Bool.and_eq_true] at parts
    rw [List.cons_append, compact_solid true (isWhiteSpace_false_of_isTokenPart parts.1),
      isWordy_of_isTokenPart parts.1, inductionHypothesis parts.2]
    rfl

/-- A word is kept as a whole, and the rest is compact behind a word. -/
theorem compact_word (behindWord : Bool) {word : List Char} (nonempty : word ≠ [])
    (parts : word.all isTokenPart = true) (rest : List Char) :
    compact behindWord (word ++ rest) = word ++ compact true rest := by
  obtain ⟨c, others, rfl⟩ := List.exists_cons_of_ne_nil nonempty
  rw [List.all_cons, Bool.and_eq_true] at parts
  rw [List.cons_append, compact_solid behindWord (isWhiteSpace_false_of_isTokenPart parts.1),
    isWordy_of_isTokenPart parts.1, compact_run parts.2]
  rfl

/-- A word that ends in the text ends in the compact text. -/
theorem head_compact {text : List Char}
    (stops : ∀ c ∈ text.head?, isTokenPart c = false) :
    ∀ c ∈ (compact true text).head?, isTokenPart c = false := by
  obtain ⟨gap, rest, rfl, white, settled⟩ := exists_run isWhiteSpace text
  have head_rest (behindWord : Bool) : (compact behindWord rest).head? = rest.head? := by
    cases rest with
    | nil => rfl
    | cons c rest => rw [compact_solid behindWord (settled c rfl)]; rfl
  by_cases empty : gap = []
  · rw [empty, List.nil_append] at stops ⊢
    rw [head_rest]
    exact stops
  · rw [compact_append_of_isWhiteSpace white empty settled, Bool.true_and]
    split
    · rintro _ ⟨rfl⟩
      decide
    · next notWordy =>
      rw [List.nil_append, head_rest]
      exact stops_of_not_wordy notWordy

/-- Compaction brings no characters but spaces. -/
theorem mem_compact {behindWord : Bool} {text : List Char} {c : Char}
    (member : c ∈ compact behindWord text) : c ∈ text ∨ c = ' ' := by
  induction text generalizing behindWord with
  | nil => contradiction
  | cons d rest inductionHypothesis =>
    rw [compact] at member
    split at member
    · split at member
      · rcases List.mem_cons.mp member with rfl | inRest
        · exact .inr rfl
        · exact (inductionHypothesis inRest).imp_left (List.mem_cons_of_mem d)
      · exact (inductionHypothesis member).imp_left (List.mem_cons_of_mem d)
    · rcases List.mem_cons.mp member with rfl | inRest
      · exact .inl (List.mem_cons_self ..)
      · exact (inductionHypothesis inRest).imp_left (List.mem_cons_of_mem d)

/-- Only white space is left out. -/
theorem mem_compact_of_solid {behindWord : Bool} {text : List Char} {c : Char}
    (solid : isWhiteSpace c = false) (member : c ∈ text) : c ∈ compact behindWord text := by
  induction text generalizing behindWord with
  | nil => contradiction
  | cons d rest inductionHypothesis =>
    rw [compact]
    rcases List.mem_cons.mp member with rfl | inRest
    · rw [solid]
      exact List.mem_cons_self ..
    · split
      · split
        · exact List.mem_cons_of_mem ' ' (inductionHypothesis inRest)
        · exact inductionHypothesis inRest
      · exact List.mem_cons_of_mem d (inductionHypothesis inRest)

/-- Only white space is compacted to nothing. -/
theorem all_isWhiteSpace_of_compact {behindWord : Bool} {text : List Char}
    (empty : compact behindWord text = []) : text.all isWhiteSpace = true := by
  induction text generalizing behindWord with
  | nil => rfl
  | cons c rest inductionHypothesis =>
    rw [compact] at empty
    split at empty
    · next space =>
      split at empty
      · contradiction
      · rw [List.all_cons, space, inductionHypothesis empty]
        rfl
    · contradiction

end InterfaceAudit.Idl
