import InterfaceAudit.Proofs.Grammar.Trace
import InterfaceAudit.Proofs.Idl.Words

/-!
Ends of keywords.
A keyword ends where no token character follows, and the hyphen of a name is no token character. So
a name that goes on with a hyphen behind a keyword is split there, and no other name is split.
-/

namespace InterfaceAudit.Idl

open Grammar

/-- The words of the keywords and of the primitive types. -/
def grammarWords : List (List Char) := Keyword.all.map Keyword.spelling ++ primitiveWords

/-- A keyword or the words of a primitive type. -/
def Token.IsWords : Token → Prop
  | .keyword _ | .primitive => True
  | _ => False

/-- A word of a text stands between white space or ends of the text. -/
structure IsWordOf (text front word back : List Char) : Prop where
  append : text = front ++ (word ++ back)
  nonempty : word ≠ []
  solid : ∀ c ∈ word, Text.isWhiteSpace c = false
  starts : ∀ c ∈ front.getLast?, Text.isWhiteSpace c = true
  ends : ∀ c ∈ back.head?, Text.isWhiteSpace c = true

/-! ### What the words of the grammar take -/

/-- Words of the grammar are taken up to the end of a word. -/
structure TakesWords (taken rest : List Char) : Prop where
  begins : ∃ word ∈ grammarWords, ∃ back, taken = word ++ back ∧
    ∀ c ∈ back.head?, Text.isWhiteSpace c = true
  chars : ∀ c ∈ taken, Text.isLower c = true ∨ Text.isWhiteSpace c = true
  ends : endsWord rest = true

/-- All words of the grammar are spelled in small letters. -/
theorem grammarWords_lower :
    ∀ word ∈ grammarWords, word ≠ [] ∧ ∀ c ∈ word, Text.isLower c = true := by
  have all : ∀ word ∈ grammarWords, word ≠ [] ∧ word.all Text.isLower = true := by decide +kernel
  exact fun word member => ⟨(all word member).1, List.all_eq_true.mp (all word member).2⟩

/-- No word of the grammar has white space in it. -/
theorem grammarWords_solid {word : List Char} (member : word ∈ grammarWords) :
    ∀ c ∈ word, Text.isWhiteSpace c = false := fun c inWord =>
  isWhiteSpace_false_of_isTokenPart
    (isTokenPart_of_isAsciiLetter c
      (isAsciiLetter_of_isLower ((grammarWords_lower word member).2 c inWord)))

def ScansToEnd (scan : List Char → Scan) : Prop :=
  ∀ ⦃text taken rest⦄, scan text = some (taken, rest) → TakesWords taken rest

namespace ScansToEnd

variable {first second scan : List Char → Scan} {word : List Char}

/-- Whichever of two scans succeeds takes words of the grammar. -/
theorem orElse (firstScans : ScansToEnd first) (secondScans : ScansToEnd second) :
    ScansToEnd fun text => (first text).or (second text) := by
  intro text taken rest found
  rcases Option.or_eq_some_iff.mp found with firstFound | ⟨-, secondFound⟩
  · exact firstScans firstFound
  · exact secondScans secondFound

/-- A word of the grammar is taken up to its end. -/
theorem spelled (member : word ∈ grammarWords) : ScansToEnd (scanKeyword word) := by
  intro text taken rest found
  unfold scanKeyword Scan.wholeWord at found
  split at found <;> try contradiction
  next spelled =>
    split at found <;> try contradiction
    next ends =>
      obtain ⟨rfl, rfl⟩ := Prod.mk.inj (Option.some.inj found)
      obtain ⟨rfl, -⟩ := scanSpelling_eq_some spelled
      exact
        { begins := ⟨_, member, [], (List.append_nil _).symm, by simp⟩
          chars := fun c inWord => .inl ((grammarWords_lower _ member).2 c inWord)
          ends := ends }

/-- A word and more words behind white space begin with a word of the grammar. -/
theorem spaced (member : word ∈ grammarWords) (scans : ScansToEnd scan) :
    ScansToEnd fun text => ((scanSpelling word text).andThen scanSpaces).andThen scan := by
  intro text taken rest found
  obtain ⟨gap, others, last, rfl, nonempty, white, scanned⟩ := spaced_eq_some found
  obtain ⟨c, gap, rfl⟩ := List.exists_cons_of_ne_nil nonempty
  have takes := scans scanned
  refine
    { begins := ⟨word, member, _, rfl, ?_⟩
      chars := ?_
      ends := takes.ends }
  · simpa using white c List.mem_cons_self
  · intro other inTaken
    rcases List.mem_append.mp inTaken with inWord | behind
    · exact .inl ((grammarWords_lower _ member).2 other inWord)
    · rcases List.mem_append.mp behind with inGap | inOthers
      · exact .inr (white other inGap)
      · exact takes.chars other inOthers

/-- With its modifier or without it, a scan takes words of the grammar. -/
theorem modified (member : word ∈ grammarWords) (scans : ScansToEnd scan) :
    ScansToEnd (scanModified word scan) := by
  rw [funext (scanModified_eq word scan)]
  exact (scans.spaced member).orElse scans

/-- A primitive type takes words of the grammar. -/
theorem primitive : ScansToEnd scanPrimitive := by
  have twice : ScansToEnd fun text => (((scanSpelling Word.long.chars text).andThen
      scanSpaces).andThen (scanSpelling Word.long.chars)).wholeWord := by
    simp only [wholeWord_andThen]
    exact (spelled (by decide)).spaced (by decide)
  have integer : ScansToEnd scanInteger := by
    rw [funext scanInteger_eq]
    exact twice.orElse ((spelled (by decide)).orElse (spelled (by decide)))
  have real : ScansToEnd scanReal := by
    rw [funext scanReal_eq]
    exact (spelled (by decide)).orElse (spelled (by decide))
  rw [funext scanPrimitive_eq]
  exact (integer.modified (by decide)).orElse (real.modified (by decide))

end ScansToEnd

/-- Keywords and primitive types take words of the grammar up to the end of a word. -/
theorem takesWords_of_scan {kind : Token} (isWords : kind.IsWords) {text taken rest : List Char}
    (found : kind.scan text = some (taken, rest)) : TakesWords taken rest := by
  cases kind with
  | keyword word =>
    have member : word.spelling ∈ grammarWords := by cases word <;> decide
    exact ScansToEnd.spelled member found
  | primitive => exact ScansToEnd.primitive found
  | blank | symbol | ellipsis | name | number | quoted => exact isWords.elim

/-! ### Names that begin with a word -/

/-- A name that begins with small letters takes them and what follows them in a name. -/
theorem scanName_append {word : List Char} (nonempty : word ≠ [])
    (small : ∀ c ∈ word, Text.isLower c = true) (behind : List Char) :
    scanName (word ++ behind) =
      some (word ++ behind.takeWhile isNameChar, behind.dropWhile isNameChar) := by
  obtain ⟨first, rest, rfl⟩ := List.exists_cons_of_ne_nil nonempty
  obtain ⟨isFirst, others⟩ := List.forall_mem_cons.mp small
  have letter := isAsciiLetter_of_isLower isFirst
  have inName : ∀ c ∈ rest, isNameChar c = true := fun c member =>
    isNameChar_of_isAsciiLetter (isAsciiLetter_of_isLower (others c member))
  simp only [List.cons_append, scanName, letter, if_true, List.takeWhile_append_of_pos inName,
    List.dropWhile_append_of_pos inName]

/-- A name and the rest make up the text. -/
theorem scanName_split {text taken rest : List Char}
    (found : scanName text = some (taken, rest)) : taken ++ rest = text := by
  have scanned : Token.name.scan text = some (taken, rest) := found
  exact (Token.scan_split scanned).1

/-- Behind the end of a word a name goes on with a hyphen only. -/
theorem takeWhile_isNameChar_eq_nil {rest : List Char} (ends : endsWord rest = true) :
    rest.takeWhile isNameChar = [] ↔ rest.head? ≠ some '-' := by
  cases rest with
  | nil => simp
  | cons c rest =>
    have notToken : Text.isTokenChar c = false := by simpa [endsWord] using ends
    by_cases hyphen : c = '-'
    · subst hyphen
      simp [show isNameChar '-' = true by decide]
    · have notName : isNameChar c = false := by
        by_contra held
        have isToken := isTokenChar_eq_of_isNameChar (Bool.not_eq_false _ ▸ held)
        rw [notToken] at isToken
        exact hyphen (by simpa using isToken.symm)
      simp [notName, hyphen]

/-- A name goes on behind a word of the grammar only where a hyphen does. -/
theorem TakesWords.exists_name {taken rest front word back : List Char}
    (takes : TakesWords taken rest) (isWord : IsWordOf taken front word back) :
    ∃ identifier after, scanName (word ++ (back ++ rest)) = some (identifier, after) ∧
      word <+: identifier ∧ (identifier ≠ word ↔ back = [] ∧ rest.head? = some '-') := by
  have small : ∀ c ∈ word, Text.isLower c = true := by
    intro c member
    rcases takes.chars c (by rw [isWord.append]; simp [member]) with small | white
    · exact small
    · rw [isWord.solid c member] at white
      contradiction
  refine ⟨_, _, scanName_append isWord.nonempty small _, List.prefix_append .., ?_⟩
  rw [ne_eq, List.append_right_eq_self]
  cases back with
  | nil =>
    rw [List.nil_append, takeWhile_isNameChar_eq_nil takes.ends, not_not]
    simp
  | cons c back =>
    have white := isWord.ends c rfl
    have notName : isNameChar c = false := by
      by_contra held
      have solid := isWhiteSpace_false_of_isTokenPart
        (isTokenPart_of_isNameChar c (Bool.not_eq_false _ ▸ held))
      rw [white] at solid
      contradiction
    simp [notName]

/-- Where words of the grammar are taken, a name is the first of them or goes on with a hyphen
behind it. -/
theorem TakesWords.eq_or_hyphen {taken rest identifier after : List Char}
    (takes : TakesWords taken rest)
    (named : scanName (taken ++ rest) = some (identifier, after)) :
    ∃ word ∈ grammarWords, identifier = word ∨ word ++ ['-'] <+: identifier := by
  obtain ⟨word, member, back, rfl, ends⟩ := takes.begins
  have isWord : IsWordOf (word ++ back) [] word back :=
    { append := rfl
      nonempty := (grammarWords_lower word member).1
      solid := grammarWords_solid member
      starts := by simp
      ends }
  obtain ⟨other, otherAfter, otherNamed, begins, goesOn⟩ := takes.exists_name isWord
  rw [List.append_assoc, otherNamed] at named
  obtain ⟨rfl, rfl⟩ := Prod.mk.inj (Option.some.inj named)
  refine ⟨word, member, or_iff_not_imp_left.mpr fun longer => ?_⟩
  obtain ⟨rfl, hyphen⟩ := goesOn.mp longer
  obtain ⟨more, rfl⟩ := begins
  have whole := scanName_split otherNamed
  rw [List.append_assoc, List.nil_append, List.append_cancel_left_eq] at whole
  subst whole
  cases more with
  | nil => exact absurd (List.append_nil word) longer
  | cons c more =>
    obtain rfl := Option.some.inj hyphen
    exact ⟨more, by rw [List.append_assoc, List.singleton_append]⟩

/-- A name that begins with a word of the grammar but is none, nor goes on with a hyphen behind one,
is taken as a whole. -/
theorem name_of_scan {kind : Token} (quiet : kind.Quiet isNameChar)
    {taken rest identifier after word : List Char}
    (scanned : kind.scan (taken ++ rest) = some (taken, rest)) (nonempty : taken ≠ [])
    (named : scanName (taken ++ rest) = some (identifier, after)) (member : word ∈ grammarWords)
    (begins : word <+: identifier)
    (free : ∀ other ∈ grammarWords, identifier ≠ other ∧ ¬ other ++ ['-'] <+: identifier) :
    kind = .name ∧ taken = identifier := by
  have notWords : ¬ kind.IsWords := by
    intro isWords
    obtain ⟨other, isOther, same | hyphen⟩ :=
      (takesWords_of_scan isWords scanned).eq_or_hyphen named
    · exact (free other isOther).1 same
    · exact (free other isOther).2 hyphen
  obtain ⟨first, others, split, small⟩ : ∃ first others, taken ++ rest = first :: others ∧
      Text.isLower first = true := by
    obtain ⟨wordNonempty, small⟩ := grammarWords_lower word member
    obtain ⟨first, wordRest, rfl⟩ := List.exists_cons_of_ne_nil wordNonempty
    obtain ⟨behind, rfl⟩ := begins
    have whole := scanName_split named
    exact ⟨first, _, whole.symm, small first List.mem_cons_self⟩
  have letter := isAsciiLetter_of_isLower small
  have apart {c : Char} (other : Text.isLower c = false) : first ≠ c := by
    rintro rfl
    rw [small] at other
    contradiction
  rw [split] at scanned named
  cases kind with
  | name =>
    exact ⟨rfl, (Prod.mk.inj (Option.some.inj (scanned.symm.trans named))).1⟩
  | keyword | primitive => exact absurd trivial notWords
  | blank =>
    have solid := isWhiteSpace_false_of_isTokenPart (isTokenPart_of_isAsciiLetter first letter)
    have stays := afterBlank_of_first others solid (apart (by decide))
    simp only [Token.scan, scanBlank, stays, Nat.sub_self, List.take_zero] at scanned
    exact absurd (Prod.mk.inj (Option.some.inj scanned)).1.symm nonempty
  | symbol mark =>
    obtain ⟨rfl, -⟩ := List.cons.inj (scan_symbol scanned)
    exact absurd ((isNameChar_of_isAsciiLetter letter).symm.trans quiet.1) (by decide)
  | ellipsis =>
    obtain ⟨isPoint, -⟩ := List.cons.inj (scanSpelling_eq_some scanned).2
    exact absurd isPoint (apart (by decide))
  | number =>
    rw [show Token.scan .number (first :: others) = none from scanNumber_none small others]
      at scanned
    contradiction
  | quoted =>
    have notQuote : first ≠ '\x22' := apart (by decide)
    simp [Token.scan, scanQuoted, notQuote] at scanned

/-! ### Accepted texts -/

/-- An accepted text is read to its end by the grammar. -/
theorem read_file_of_parse {text : List Char} {document : Document}
    (accepted : Document.parse text = .ok document) :
    ∃ value, grammar.read file text = some (value, []) := by
  unfold Document.parse at accepted
  split at accepted <;> try contradiction
  next value rest read =>
    split at accepted <;> try contradiction
    next atEnd =>
      rw [List.isEmpty_iff.mp atEnd] at read
      exact ⟨_, read⟩

/-- The tokens of an accepted text tile it from its start to its end. -/
theorem exists_trace_of_parse {text : List Char} {document : Document}
    (accepted : Document.parse text = .ok document) :
    ∃ leaves, grammar.trace file text = some (leaves, []) ∧ Tiles grammar.scan text leaves [] ∧
      ∀ leaf ∈ leaves, leaf.kind.Quiet isNameChar := by
  obtain ⟨value, read⟩ := read_file_of_parse accepted
  have bodies : ∀ {Result : Type} (rule : Rule Result),
      (grammar.body rule).Within (Token.Quiet isNameChar) True := by
    intro _ rule
    cases rule <;> decide
  exact exists_trace_of_read grammar bodies file (by decide) read

/-- The tokens of an accepted text follow one another from its start to its end. A name begins where
a word of a keyword or of a primitive type is taken and is longer than the word exactly where a
hyphen follows the word. Every other name that begins with such a word is taken as a whole. -/
theorem parse_splits_at_hyphens {text : List Char} {document : Document}
    (accepted : Document.parse text = .ok document) :
    ∃ leaves, grammar.trace file text = some (leaves, []) ∧ Tiles grammar.scan text leaves [] ∧
      (∀ leaf ∈ leaves, leaf.kind.IsWords → ∀ front word back,
        IsWordOf leaf.taken front word back →
          ∃ identifier after, scanName (word ++ (back ++ leaf.rest)) = some (identifier, after) ∧
            word <+: identifier ∧
            (identifier ≠ word ↔ back = [] ∧ leaf.rest.head? = some '-')) ∧
      ∀ leaf ∈ leaves, leaf.taken ≠ [] → ∀ identifier after,
        scanName (leaf.taken ++ leaf.rest) = some (identifier, after) →
          (∃ word ∈ grammarWords, word <+: identifier) →
          (∀ word ∈ grammarWords, identifier ≠ word ∧ ¬ word ++ ['-'] <+: identifier) →
            leaf.kind = .name ∧ leaf.taken = identifier := by
  obtain ⟨leaves, traced, tiles, quiet⟩ := exists_trace_of_parse accepted
  have scanned {leaf : Leaf Token} (member : leaf ∈ leaves) :
      leaf.kind.scan (leaf.taken ++ leaf.rest) = some (leaf.taken, leaf.rest) := by
    obtain ⟨start, found⟩ := tiles.exists_scan member
    rw [(Token.scan_split found).1]
    exact found
  refine ⟨leaves, traced, tiles, fun leaf member isWords front word back isWord => ?_,
    fun leaf member nonempty identifier after named ⟨word, isWord, begins⟩ free => ?_⟩
  · exact (takesWords_of_scan isWords (scanned member)).exists_name isWord
  · exact name_of_scan (quiet leaf member) (scanned member) nonempty named isWord begins free

/-- An operation whose return type begins with the word for a static one. -/
def staticTypeIdl : List Char := "interface A \x7b static-type run(); \x7d;".toList

def staticLeaf : Leaf Token where
  kind := .keyword .static
  taken := "static".toList
  rest := "-type run(); \x7d;".toList

/-- A name that begins with a qualifier and a hyphen loses its first part. -/
theorem parse_splits_at_hyphens_static :
    ∃ leaves, grammar.trace file staticTypeIdl = some (leaves, []) ∧ staticLeaf ∈ leaves ∧
      ∃ identifier after,
        scanName (staticLeaf.taken ++ staticLeaf.rest) = some (identifier, after) ∧
          staticLeaf.taken <+: identifier ∧ identifier ≠ staticLeaf.taken := by
  have isOk : (Document.parse staticTypeIdl).toOption.isSome := by decide +kernel
  have traced : ((grammar.trace file staticTypeIdl).map fun traced =>
      traced.1.contains staticLeaf) = some true := by decide +kernel
  cases parsed : Document.parse staticTypeIdl with
  | error error =>
    rw [parsed] at isOk
    contradiction
  | ok document =>
    obtain ⟨leaves, isTrace, -, names, -⟩ := parse_splits_at_hyphens parsed
    rw [isTrace, Option.map_some, Option.some_inj, List.contains_iff_mem] at traced
    obtain ⟨identifier, after, named, begins, longer⟩ :=
      names staticLeaf traced trivial [] staticLeaf.taken []
        { append := rfl
          nonempty := by decide
          solid := grammarWords_solid (by decide)
          starts := by simp
          ends := by simp }
    exact ⟨leaves, isTrace, traced, identifier, after, named, begins, longer.mpr ⟨rfl, rfl⟩⟩

/-- The keyword is cut off the type, so the operation is static and its type begins with a
hyphen. -/
theorem parse_splits_static :
    Document.parse staticTypeIdl = .ok
      { definitions :=
          [.interface
            { name := "A"
              members :=
                [.operation { name := some "run", returnType := "-type", isStatic := true }]
              span := some ⟨1, 1⟩ }] } := by
  decide +kernel

end InterfaceAudit.Idl
