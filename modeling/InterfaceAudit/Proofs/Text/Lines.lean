import InterfaceAudit.Text.Lines
import Mathlib.Data.List.Basic

/-!
Lines of a text, and the line ends that stand in front of them.
A line feed is one line end among others, so the number of a line can be greater than the number of
line feeds tells.
-/

namespace InterfaceAudit.Text

/-- The line ends without a line feed. -/
def strayEnds : List Char → Nat
  | [] => 0
  | '\r' :: '\n' :: rest => strayEnds rest
  | c :: rest => strayEnds rest + if isLineBreak c && c != '\n' then 1 else 0

/-- All line ends of a text, each counted once. -/
def lineEnds (text : List Char) : Nat := newlines text + strayEnds text

/-- A text does not cut the line end that its first character begins. -/
def Uncut (c : Char) (rest : List Char) : Prop := c = '\r' → rest.head? ≠ some '\n'

/-- A return and a line feed are one line end. -/
theorem lineEnds_joined (rest : List Char) :
    lineEnds ('\r' :: '\n' :: rest) = lineEnds rest + 1 := by
  simp only [lineEnds, newlines, strayEnds, List.count_cons]
  simp
  omega

/-- A character that is not joined to the next one ends a line by itself or not at all. -/
theorem lineEnds_cons {c : Char} {rest : List Char} (uncut : Uncut c rest) :
    lineEnds (c :: rest) = lineEnds rest + if isLineBreak c then 1 else 0 := by
  have alone : strayEnds (c :: rest) =
      strayEnds rest + if isLineBreak c && c != '\n' then 1 else 0 :=
    strayEnds.eq_3 c rest fun others isReturn split => uncut isReturn (by rw [split]; rfl)
  simp only [lineEnds, newlines, alone, List.count_cons]
  by_cases feed : c = '\n'
  · subst feed
    have breaks : isLineBreak '\n' = true := by decide
    simp [breaks]
    omega
  · simp [feed, Nat.add_assoc]

/-- A character that ends no line is joined to nothing. -/
theorem uncut_of_plain {c : Char} (plain : isLineBreak c = false) (rest : List Char) :
    Uncut c rest := by
  rintro rfl
  exact absurd plain (by decide)

/-- A line has no line ends in it. -/
theorem lineEnds_append_of_plain {line : List Char} (plain : ∀ c ∈ line, isLineBreak c = false)
    (rest : List Char) : lineEnds (line ++ rest) = lineEnds rest := by
  induction line with
  | nil => rfl
  | cons c line inductionHypothesis =>
    obtain ⟨first, others⟩ := List.forall_mem_cons.mp plain
    rw [List.cons_append, lineEnds_cons (uncut_of_plain first _), inductionHypothesis others, first]
    simp

/-- A line stands between two parts of a text: a whole line end is the last thing in front of it,
and a line end is the first thing behind it. -/
structure LineBetween (front line back : List Char) : Prop where
  plain : ∀ c ∈ line, isLineBreak c = false
  starts : ∀ c ∈ front.getLast?, isLineBreak c = true ∧ Uncut c (line ++ back)
  ends : ∀ c ∈ back.head?, isLineBreak c = true

theorem LineBetween.first {line back : List Char} (plain : ∀ c ∈ line, isLineBreak c = false)
    (ends : ∀ c ∈ back.head?, isLineBreak c = true) : LineBetween [] line back :=
  ⟨plain, by simp, ends⟩

/-- A line of a text is a line of every text that puts a whole line end in front of it. -/
theorem LineBetween.behind {front line back earlier : List Char} {c : Char}
    (between : LineBetween front line back) (breaks : isLineBreak c = true)
    (uncut : Uncut c (front ++ (line ++ back))) :
    LineBetween (earlier ++ c :: front) line back := by
  refine ⟨between.plain, fun last isLast => ?_, between.ends⟩
  cases front with
  | nil =>
    obtain rfl : c = last := by simpa using isLast
    exact ⟨breaks, uncut⟩
  | cons d front =>
    refine between.starts last ?_
    simpa [List.getLast?_append, List.getLast?_cons_cons] using isLast

/-- Every line of a text has as many line ends in front of it as there are lines before it. -/
theorem exists_lineBetween_after {current text line : List Char} {index : Nat}
    (plain : ∀ c ∈ current.reverse, isLineBreak c = false)
    (found : (linesAfter current text)[index]? = some line) :
    ∃ front back, current.reverse ++ text = front ++ (line ++ back) ∧
      LineBetween front line back ∧ lineEnds front = index := by
  fun_induction linesAfter current text generalizing index with
  | case1 => simp at found
  | case2 current =>
    obtain ⟨rfl, rfl⟩ : index = 0 ∧ current.reverse = line := by
      simpa [List.getElem?_singleton] using found
    exact ⟨[], [], rfl, .first plain (by simp), rfl⟩
  | case3 current rest inductionHypothesis =>
    cases index with
    | zero =>
      obtain rfl : current.reverse = line := by simpa using found
      exact ⟨[], '\r' :: '\n' :: rest, rfl, .first plain (by simp; decide), rfl⟩
    | succ index =>
      obtain ⟨front, back, split, between, counted⟩ :=
        inductionHypothesis (by simp) (by simpa using found)
      refine ⟨current.reverse ++ ['\r'] ++ '\n' :: front, back, ?_,
        between.behind (by decide) (fun isReturn => absurd isReturn (by decide)), ?_⟩
      · simp [← split]
      · rw [List.append_assoc, List.singleton_append, lineEnds_append_of_plain plain,
          lineEnds_joined, counted]
  | case4 current c rest apart breaks inductionHypothesis =>
    have uncut : Uncut c rest := fun isReturn feeds => by
      cases rest with
      | nil => contradiction
      | cons d rest => exact apart rest isReturn (by rw [Option.some.inj feeds])
    cases index with
    | zero =>
      obtain rfl : current.reverse = line := by simpa using found
      exact ⟨[], c :: rest, rfl, .first plain (by simpa using breaks), rfl⟩
    | succ index =>
      obtain ⟨front, back, split, between, counted⟩ :=
        inductionHypothesis (by simp) (by simpa using found)
      rw [List.reverse_nil, List.nil_append] at split
      refine ⟨current.reverse ++ c :: front, back, by simp [split],
        between.behind breaks (split ▸ uncut), ?_⟩
      have uncutFront : Uncut c front := fun isReturn feeds => uncut isReturn <| by
        rw [split, List.head?_append, feeds]
        rfl
      rw [lineEnds_append_of_plain plain, lineEnds_cons uncutFront, counted, if_pos breaks]
  | case5 current c rest apart unbroken inductionHypothesis =>
    obtain ⟨front, back, split, between, counted⟩ :=
      inductionHypothesis (by simpa [or_imp, forall_and, unbroken] using plain) found
    exact ⟨front, back, by simpa using split, between, counted⟩

/-- Every line stands behind as many line ends as there are lines in front of it. -/
theorem exists_lineBetween {text line : List Char} {index : Nat}
    (found : (lines text)[index]? = some line) :
    ∃ front back, text = front ++ (line ++ back) ∧ LineBetween front line back ∧
      lineEnds front = index := by
  have plain : ∀ c ∈ ([] : List Char).reverse, isLineBreak c = false := by simp
  simpa using exists_lineBetween_after plain found

/-! ### Numbers of lines -/

/-- A numbered line stands at the position of its number. -/
theorem mem_numbered {start number : Nat} {lines : List (List Char)} {line : List Char}
    (member : (number, line) ∈ numbered start lines) :
    start ≤ number ∧ lines[number - start]? = some line := by
  induction lines generalizing start with
  | nil => contradiction
  | cons first lines inductionHypothesis =>
    rcases List.mem_cons.mp member with here | later
    · obtain ⟨rfl, rfl⟩ := Prod.mk.inj here
      simp
    · obtain ⟨above, found⟩ := inductionHypothesis later
      rw [show number - start = number - (start + 1) + 1 by omega, List.getElem?_cons_succ]
      exact ⟨Nat.le_of_succ_le above, found⟩

/-- Numbering changes no line. -/
theorem map_snd_numbered (start : Nat) (lines : List (List Char)) :
    (numbered start lines).map Prod.snd = lines := by
  induction lines generalizing start with
  | nil => rfl
  | cons line lines inductionHypothesis =>
    rw [numbered, List.map_cons, inductionHypothesis]

end InterfaceAudit.Text
