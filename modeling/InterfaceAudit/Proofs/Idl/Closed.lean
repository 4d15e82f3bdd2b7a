import InterfaceAudit.Proofs.Idl.Landmark

/-!
Closed texts: every quoted text and every comment that begins in them ends in them.
What follows a closed text does not change how it is divided into quoted texts, comments and the
rest, so a blank behind it is skipped as if it stood alone.
-/

namespace InterfaceAudit.Idl

/-! ### Spots -/

/-- Where a place in a text lies: behind a slash that may begin a comment, in a quoted text, in a
line comment, in a block comment or behind a star in it; or in none of these. -/
inductive Spot where
  | plain | slash | quoted | line | block | star
  deriving DecidableEq, Repr

/-- The spot behind one more character; a slash has to begin a comment. -/
def Spot.next : Spot → Char → Option Spot
  | .plain, c => some (if c = '\x22' then .quoted else if c = '/' then .slash else .plain)
  | .slash, c => if c = '/' then some .line else if c = '*' then some .block else none
  | .quoted, c => some (if c = '\x22' then .plain else .quoted)
  | .line, c => some (if c = '\n' then .plain else .line)
  | .block, c => some (if c = '*' then .star else .block)
  | .star, c => some (if c = '/' then .plain else if c = '*' then .star else .block)

def Spot.after (spot : Spot) : List Char → Option Spot
  | [] => some spot
  | c :: rest => (spot.next c).bind fun next => next.after rest

/-- The spot behind two texts is reached over the spot between them. -/
theorem Spot.after_append (spot : Spot) (first second : List Char) :
    spot.after (first ++ second) =
      (spot.after first).bind fun middle => middle.after second := by
  induction first generalizing spot with
  | nil => rfl
  | cons c first inductionHypothesis =>
    rw [List.cons_append, after, after, Option.bind_assoc]
    congr 1
    funext next
    exact inductionHypothesis next

/-- A closed text begins and ends outside of quoted texts and comments. -/
def Closed (text : List Char) : Prop := Spot.plain.after text = some .plain

instance (text : List Char) : Decidable (Closed text) :=
  inferInstanceAs (Decidable (_ = _))

namespace Closed

variable {text first second rest : List Char}

theorem nil : Closed [] := rfl

/-- What follows a closed text is closed when both together are. -/
theorem of_append (firstClosed : Closed first) (closed : Closed (first ++ second)) :
    Closed second := by
  unfold Closed at firstClosed closed ⊢
  rwa [Spot.after_append, firstClosed] at closed

/-- Closed texts in a row are closed. -/
theorem append (firstClosed : Closed first) (secondClosed : Closed second) :
    Closed (first ++ second) := by
  unfold Closed at firstClosed secondClosed ⊢
  rw [Spot.after_append, firstClosed]
  exact secondClosed

/-- Characters that begin neither a quoted text nor a comment are closed. -/
theorem of_inert (inert : ∀ c ∈ text, c ≠ '\x22' ∧ c ≠ '/') : Closed text := by
  induction text with
  | nil => exact nil
  | cons c text inductionHypothesis =>
    obtain ⟨⟨notQuote, notSlash⟩, others⟩ := List.forall_mem_cons.mp inert
    unfold Closed
    simp only [Spot.after, Spot.next, notQuote, notSlash, if_false]
    exact inductionHypothesis others

/-- A text that opens nothing is closed. -/
theorem of_isInert (inert : ∀ c ∈ text, isInert c = true) : Closed text := by
  apply of_inert
  intro c member
  have isInert := inert c member
  simp only [Idl.isInert, Bool.and_eq_true, bne_iff_ne] at isInert
  exact ⟨isInert.1.2, isInert.2⟩

theorem of_isWhiteSpace {c : Char} (isSpace : Text.isWhiteSpace c = true) : Closed [c] :=
  of_isInert fun _ member => List.mem_singleton.mp member ▸ isInert_of_isWhiteSpace c isSpace

/-! ### Quoted texts and comments -/

/-- A quoted text that ends leaves a closed text behind its quote. -/
theorem of_quoted (closed : Spot.quoted.after text = some .plain) :
    ∃ rest, text.dropWhile (· != '\x22') = '\x22' :: rest ∧ Closed rest := by
  induction text with
  | nil => contradiction
  | cons c text inductionHypothesis =>
    simp only [Spot.after, Spot.next, Option.bind_some] at closed
    by_cases isQuote : c = '\x22'
    · subst isQuote
      exact ⟨text, rfl, closed⟩
    · rw [if_neg isQuote] at closed
      obtain ⟨rest, dropped, restClosed⟩ := inductionHypothesis closed
      exact ⟨rest, by simpa [isQuote] using dropped, restClosed⟩

/-- A line comment that ends leaves a closed text from its line feed on. -/
theorem of_line (closed : Spot.line.after text = some .plain) :
    text.dropWhile (· != '\n') ≠ [] ∧ Closed (text.dropWhile (· != '\n')) := by
  induction text with
  | nil => contradiction
  | cons c text inductionHypothesis =>
    simp only [Spot.after, Spot.next, Option.bind_some] at closed
    by_cases isLineFeed : c = '\n'
    · subst isLineFeed
      exact ⟨List.cons_ne_nil _ _, closed⟩
    · rw [if_neg isLineFeed] at closed
      simpa [isLineFeed] using inductionHypothesis closed

/-- A block comment that ends leaves a closed text, and so it does when its star was read. -/
theorem of_block :
    (Spot.block.after text = some .plain →
      ∃ rest, afterBlockComment text = some rest ∧ Closed rest) ∧
    (Spot.star.after text = some .plain →
      ∃ rest, afterBlockComment ('*' :: text) = some rest ∧ Closed rest) := by
  induction text with
  | nil => exact ⟨nofun, nofun⟩
  | cons c text inductionHypothesis =>
    obtain ⟨block, star⟩ := inductionHypothesis
    simp only [Spot.after, Spot.next, Option.bind_some]
    constructor
    · intro closed
      by_cases isStar : c = '*'
      · subst isStar
        exact star closed
      · rw [if_neg isStar] at closed
        rw [afterBlockComment]
        · exact block closed
        · exact fun _ same _ => isStar same
    · intro closed
      by_cases isSlash : c = '/'
      · subst isSlash
        exact ⟨text, rfl, closed⟩
      · rw [if_neg isSlash] at closed
        have goesOn : afterBlockComment ('*' :: c :: text) = afterBlockComment (c :: text) := by
          rw [afterBlockComment]
          intro _ _ same
          exact isSlash (List.cons.inj same).1
        rw [goesOn]
        by_cases isStar : c = '*'
        · subst isStar
          exact star closed
        · rw [if_neg isStar] at closed
          rw [afterBlockComment]
          · exact block closed
          · exact fun _ same _ => isStar same

/-! ### Blanks -/

/-- A blank item in a closed text ends there, and where there is none, none begins with what follows
either. -/
theorem afterBlankItem_append (closed : Closed text) (extension : List Char) :
    (∃ rest, afterBlankItem text = some rest ∧ Closed rest ∧
        afterBlankItem (text ++ extension) = some (rest ++ extension)) ∨
      afterBlankItem text = none ∧
        (text ≠ [] → afterBlankItem (text ++ extension) = none) := by
  cases text with
  | nil => exact .inr ⟨rfl, fun nonempty => absurd rfl nonempty⟩
  | cons c text =>
    by_cases isSlash : c = '/'
    · subst isSlash
      cases text with
      | nil => contradiction
      | cons mark text =>
        unfold Closed at closed
        simp only [Spot.after, Spot.next, Char.reduceEq, if_false, if_true,
          Option.bind_some] at closed
        by_cases isLine : mark = '/'
        · subst isLine
          obtain ⟨ends, restClosed⟩ := of_line closed
          refine .inl ⟨_, rfl, restClosed, ?_⟩
          change some ((text ++ extension).dropWhile (· != '\n')) = _
          rw [(takeWhile_append_of_stop extension ends).2]
        · by_cases isBlock : mark = '*'
          · subst isBlock
            obtain ⟨rest, found, restClosed⟩ := of_block.1 closed
            exact .inl ⟨rest, found, restClosed, afterBlockComment_append extension found⟩
          · simp only [isLine, isBlock, if_false, Option.bind_none, reduceCtorEq] at closed
    · rw [List.cons_append, afterBlankItem_of_ne_slash isSlash, afterBlankItem_of_ne_slash isSlash]
      by_cases isSpace : Text.isWhiteSpace c = true
      · simp only [isSpace, if_true]
        exact .inl ⟨text, rfl, (of_isWhiteSpace isSpace).of_append closed, rfl⟩
      · simp only [isSpace, Bool.false_eq_true, if_false]
        exact .inr ⟨trivial, fun _ => trivial⟩

/-- A blank ends in a closed text, or it goes on behind it. -/
theorem afterBlank_append (closed : Closed text) (extension : List Char) :
    Closed (afterBlank text) ∧
      afterBlank (text ++ extension) =
        if afterBlank text = [] then afterBlank extension else afterBlank text ++ extension := by
  induction text using afterBlank.induct with
  | case1 text rest found inductionHypothesis =>
    rcases closed.afterBlankItem_append extension with
      ⟨other, otherFound, restClosed, longer⟩ | ⟨missing, -⟩
    · rw [found] at otherFound
      obtain rfl := Option.some.inj otherFound
      rw [afterBlank_of_some found, afterBlank_of_some longer]
      exact inductionHypothesis restClosed
    · rw [found] at missing
      contradiction
  | case2 text missing =>
    rw [afterBlank_of_none missing]
    refine ⟨closed, ?_⟩
    by_cases empty : text = []
    · rw [if_pos empty, empty, List.nil_append]
    · rw [if_neg empty]
      rcases closed.afterBlankItem_append extension with ⟨_, found, -⟩ | ⟨-, longer⟩
      · rw [missing] at found
        contradiction
      · exact afterBlank_of_none (longer empty)

end Closed

/-- A run of white space and complete comments; a line comment is complete with its line feed. -/
structure IsBlank (run : List Char) : Prop where
  closed : Closed run
  skipped : afterBlank run = []

namespace IsBlank

variable {run : List Char}

theorem afterBlank_append (isBlank : IsBlank run) (extension : List Char) :
    afterBlank (run ++ extension) = afterBlank extension := by
  rw [(isBlank.closed.afterBlank_append extension).2, if_pos isBlank.skipped]

/-- A blank begins with white space or with the slash of a comment. -/
theorem head (isBlank : IsBlank run) {c : Char} {rest : List Char} (split : run = c :: rest) :
    Text.isWhiteSpace c = true ∨ c = '/' := by
  by_contra neither
  obtain ⟨notSpace, notSlash⟩ := not_or.mp neither
  have skipped := isBlank.skipped
  have missing : afterBlankItem (c :: rest) = none := by
    rw [afterBlankItem_of_ne_slash notSlash, if_neg notSpace]
  rw [split, afterBlank_of_none missing] at skipped
  contradiction

/-- A blank run without its first white space is a blank run. -/
theorem tail_of_isWhiteSpace {c : Char} {rest : List Char} (isBlank : IsBlank (c :: rest))
    (isSpace : Text.isWhiteSpace c = true) : IsBlank rest := by
  have notSlash : c ≠ '/' := by
    rintro rfl
    contradiction
  have found : afterBlankItem (c :: rest) = some rest := by
    rw [afterBlankItem_of_ne_slash notSlash, if_pos isSpace]
  refine ⟨(Closed.of_isWhiteSpace isSpace).of_append isBlank.closed, ?_⟩
  rw [← afterBlank_of_some found]
  exact isBlank.skipped

/-- Behind its white space a blank is at its end or at a comment. -/
theorem dropWhile (isBlank : IsBlank run) :
    run.dropWhile Text.isWhiteSpace = [] ∨
      ∃ rest, run.dropWhile Text.isWhiteSpace = '/' :: rest := by
  induction run with
  | nil => exact .inl rfl
  | cons c run inductionHypothesis =>
    by_cases isSpace : Text.isWhiteSpace c = true
    · rw [List.dropWhile_cons_of_pos isSpace]
      exact inductionHypothesis (isBlank.tail_of_isWhiteSpace isSpace)
    · rw [List.dropWhile_cons_of_neg isSpace]
      rcases isBlank.head rfl with space | rfl
      · exact absurd space isSpace
      · exact .inr ⟨run, rfl⟩

end IsBlank

end InterfaceAudit.Idl
