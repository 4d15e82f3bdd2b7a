import InterfaceAudit.Idl.Document
import InterfaceAudit.Proofs.Grammar.Kept
import InterfaceAudit.Proofs.Idl.Landmark

/-!
Statements: phrases that a semicolon closes.
What follows a statement has no influence on how it is read, since its last semicolon bounds every
alternative that is tried in front of it.
-/

namespace InterfaceAudit.Idl

open Grammar
open Grammar.Expression (skipThen thenSkip firstOf)

/-- Only a blank is empty, and both rules take a token before they enter a rule. -/
def progressive : Progressive grammar where
  emptyToken kind := kind == .blank
  scan_le found := by
    have split := (Token.scan_split found).1
    rw [← split, List.length_append]
    exact Nat.le_add_left _ _
  scan_lt {kind text taken rest} takes found := by
    obtain ⟨split, nonempty⟩ := Token.scan_split found
    have positive := List.length_pos_iff.mpr (nonempty (by simpa using takes))
    rw [← split, List.length_append]
    omega
  body_takes rule := by cases rule <;> rfl
  body_startsWithToken rule := by cases rule <;> rfl

def IsSemicolon (kind : Token) : Prop := kind = .symbol ';'

instance : DecidablePred IsSemicolon := fun kind => inferInstanceAs (Decidable (kind = _))

/-- Readings with a semicolon ahead are bounded by it. -/
def statementBoundary : Boundary grammar where
  inside := SemicolonAhead
  allowed := Token.Quiet isSemicolon
  closing := IsSemicolon
  bodies rule := by cases rule <;> decide
  inside_iff quiet found := by
    unfold SemicolonAhead
    rw [landmark_scan isLandmark_of_isSemicolon quiet found]
  inside_of_closing {kind text taken rest} isSymbol found := by
    obtain rfl := isSymbol
    rw [scan_symbol found]
    unfold SemicolonAhead
    rw [landmark_of_stops (by decide)]
    rfl
  scan_append extension _ ahead := scan_append _ extension ahead

/-- A statement reads a semicolon, and its tokens do not stop short of one. -/
structure Statement {Value : Type} (phrase : Phrase Value) : Prop where
  closes : phrase.Closes IsSemicolon
  within : phrase.Within (fun kind => kind.Quiet isSemicolon ∨ IsSemicolon kind) True

instance {Value : Type} (phrase : Phrase Value) : Decidable (Statement phrase) :=
  decidable_of_iff (phrase.Closes IsSemicolon ∧
      phrase.Within (fun kind => kind.Quiet isSemicolon ∨ IsSemicolon kind) True)
    ⟨fun facts => ⟨facts.1, facts.2⟩, fun statement => ⟨statement.closes, statement.within⟩⟩

/-- Where a statement is read, its semicolon stands ahead. -/
theorem Statement.ahead {Value : Type} {phrase : Phrase Value} (statement : Statement phrase)
    {text : List Char} (present : (grammar.read phrase text).isSome = true) :
    SemicolonAhead text := by
  obtain ⟨⟨value, rest⟩, found⟩ := Option.isSome_iff_exists.mp present
  exact statementBoundary.inside_of_closes phrase statement.closes statement.within found

/-- A statement that ends in its semicolon is kept on longer texts. -/
theorem Statement.kept {Value : Type} {phrase : Phrase Value} (statement : Statement phrase)
    (ends : phrase.EndsIn (Token.Quiet isSemicolon) IsSemicolon) : Kept grammar phrase :=
  statementBoundary.kept_of_endsIn ends statement.ahead

theorem scan_blank_isSome (text : List Char) : (grammar.read blank text).isSome = true := rfl

/-- A body is kept when its items are statements with nothing behind the semicolon. -/
theorem kept_body {Value : Type} {item : Phrase Value} (statement : Statement item)
    (ends : item.EndsIn (Token.Quiet isSemicolon) IsSemicolon)
    (takes : item.mayBeEmpty progressive.emptyToken = false) :
    Kept grammar (body (.many (spaced item))) := by
  let last : Phrase (List Char × List Char) := .seq (spaced (symbol '\x7d')) semicolon
  have closing : Statement last := by decide
  have blankWithin : blank.Within (Token.Quiet isSemicolon) True := by decide
  have opening : (spaced (symbol '\x7b')).Within (Token.Quiet isSemicolon) True := by decide
  have items : Kept grammar (.seq (.many (spaced item)) last) :=
    statementBoundary.kept_many_seq progressive ends statement.within takes blankWithin
      scan_blank_isSome (closing.kept (by decide)) closing.ahead
  have itemsStatement : Statement (.seq (.many (spaced item)) last) :=
    ⟨.inr closing.closes, ⟨statement.within, blankWithin.mono fun _ => .inl⟩, closing.within⟩
  have whole := statementBoundary.kept_seq opening (items.map Prod.fst) fun {text} present => by
    rw [read_map, Option.isSome_map] at present
    exact itemsStatement.ahead present
  exact whole.map Prod.snd

theorem kept_members : Kept grammar members := by
  have statement : Statement member := by decide
  exact (kept_body statement (by decide) (by decide)).map _

theorem kept_fields : Kept grammar (body (.many (spaced field))) := by
  have statement : Statement field := by decide
  exact kept_body statement (by decide) (by decide)

/-- A phrase with a kept statement behind it is kept. -/
theorem kept_seq_statement {First Second : Type} {first : Phrase First} {second : Phrase Second}
    (kept : Kept grammar second) (statement : Statement second)
    (within : first.Within (Token.Quiet isSemicolon) True) : Kept grammar (.seq first second) :=
  statementBoundary.kept_seq within kept statement.ahead

end InterfaceAudit.Idl
