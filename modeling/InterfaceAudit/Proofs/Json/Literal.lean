import InterfaceAudit.Json.Printer
import InterfaceAudit.Json.Reader
import InterfaceAudit.Proofs.Text.Digits
import InterfaceAudit.Proofs.Text.Mark

/-!
Printed texts and numbers.
Each of them is read again, whatever stands behind it. A text ends at its quote; a number has no end
of its own, so what stands behind it must not continue it.
-/

namespace InterfaceAudit.Json

open Text (isAsciiDigit hexDigit isAsciiDigit_of_mem_toDigits ne_of_digit exists_digit
  head_toDigits_ne_zero)

/-! ### Spaces -/

theorem skip_append {blanks : List Char} (areSpaces : ∀ c ∈ blanks, isSpace c = true)
    (text : List Char) : skip (blanks ++ text) = skip text :=
  List.dropWhile_append_of_pos areSpaces

theorem skip_cons {c : Char} (notSpace : isSpace c = false) (text : List Char) :
    skip (c :: text) = c :: text := by
  rw [skip, List.dropWhile_cons_of_neg (by simp [notSpace])]

/-- A line break of the layout is white space, whatever its indent. -/
theorem isSpace_of_mem_lineBreak {layout : Layout} {level : Nat} {c : Char}
    (member : c ∈ layout.lineBreak level) : isSpace c = true := by
  unfold Layout.lineBreak at member
  split at member
  · rcases List.mem_cons.mp member with rfl | inIndent
    · decide
    · rw [List.eq_of_mem_replicate inIndent]
      decide
  · contradiction

/-! ### Quoted texts -/

/-- A hexadecimal digit has the value that it was written for. -/
theorem hexValue?_hexDigit {value : Nat} (small : value < 16) :
    hexValue? (hexDigit value) = some value := by
  revert value
  decide

/-- The escape of a control character has its value. -/
theorem readUnit_control {value : Nat} (small : value < 0x20) (rest : List Char) :
    readUnit ([value / 4096 % 16, value / 256 % 16, value / 16 % 16, value % 16].map hexDigit ++
      rest) = some (value, rest) := by
  simp only [List.map_cons, List.map_nil, List.cons_append, List.nil_append, readUnit]
  rw [hexValue?_hexDigit (by omega), hexValue?_hexDigit (by omega), hexValue?_hexDigit (by omega),
    hexValue?_hexDigit (by omega)]
  simp
  omega

section Quoted

variable {fuel : Nat} {output rest : List Char} {c : Char}

/-- A simple escape stands for its character. -/
theorem readQuoted_simple {letter : Char} (notUnit : letter ≠ 'u')
    (isEscape : simpleEscape? letter = some c) :
    readQuoted (fuel + 1) output ('\\' :: letter :: rest) = readQuoted fuel (c :: output) rest := by
  rw [readQuoted]
  · rw [isEscape]
    rfl
  · exact notUnit

/-- An escaped code unit stands for its character. -/
theorem readQuoted_unit {text : List Char} (isUnit : readEscapedUnit text = some (c, rest)) :
    readQuoted (fuel + 1) output ('\\' :: 'u' :: text) = readQuoted fuel (c :: output) rest := by
  rw [readQuoted, isUnit]
  rfl

/-- A plain character stands for itself. -/
theorem readQuoted_plain (notQuote : c ≠ '\x22') (notBackslash : c ≠ '\\')
    (notControl : 0x20 ≤ c.toNat) :
    readQuoted (fuel + 1) output (c :: rest) = readQuoted fuel (c :: output) rest := by
  rw [readQuoted]
  · simp only [beq_false_of_ne notQuote, beq_false_of_ne notBackslash, Bool.or_false,
      decide_eq_true_eq, Bool.false_eq_true, if_false, if_neg (Nat.not_lt.mpr notControl)]
  · exact fun _ isBackslash _ => notBackslash isBackslash
  · exact fun _ _ isBackslash _ => notBackslash isBackslash

theorem readQuoted_quote :
    readQuoted (fuel + 1) output ('\x22' :: rest) = some (output.reverse, rest) := rfl

/-- A control character has its own number in its escape. -/
theorem readQuoted_hexUnit (control : c.toNat < 0x20) :
    readQuoted (fuel + 1) output (hexUnit c.toNat ++ rest) =
      readQuoted fuel (c :: output) rest := by
  have notHigh : isHighSurrogate c.toNat = false := by
    simp [isHighSurrogate]
    omega
  have notLow : isLowSurrogate c.toNat = false := by
    simp [isLowSurrogate]
    omega
  have isChar : unitChar c.toNat = c := by
    rw [unitChar, notHigh, notLow]
    exact Char.ofNat_toNat c
  have isUnit : readEscapedUnit ([c.toNat / 4096 % 16, c.toNat / 256 % 16, c.toNat / 16 % 16,
      c.toNat % 16].map hexDigit ++ rest) = some (c, rest) := by
    rw [readEscapedUnit, readUnit_control control rest]
    simp [notHigh, isChar]
  exact readQuoted_unit isUnit

/-- A character is escaped by one letter or by its number, or it stands for itself. -/
theorem escapeChar_cases (c : Char) :
    (∃ letter, escapeChar false c = ['\\', letter] ∧ letter ≠ 'u' ∧
        simpleEscape? letter = some c) ∨
      (escapeChar false c = hexUnit c.toNat ∧ c.toNat < 0x20) ∨
      (escapeChar false c = [c] ∧ c ≠ '\x22' ∧ c ≠ '\\' ∧ 0x20 ≤ c.toNat) := by
  by_cases special : c ∈ ['\x22', '\\', '\n', '\r', '\t', '\x08', '\x0c']
  · have escaped : ∀ c ∈ ['\x22', '\\', '\n', '\r', '\t', '\x08', '\x0c'],
        ∃ letter ∈ ['\x22', '\\', 'n', 'r', 't', 'b', 'f'], escapeChar false c = ['\\', letter] ∧
          letter ≠ 'u' ∧ simpleEscape? letter = some c := by
      simp [escapeChar, simpleEscape?]
    obtain ⟨letter, -, isEscape⟩ := escaped c special
    exact .inl ⟨letter, isEscape⟩
  · simp only [List.mem_cons, List.not_mem_nil, or_false, not_or] at special
    have others : escapeChar false c = if c.toNat < 0x20 then hexEscape c else [c] := by
      simp [escapeChar, special]
    by_cases control : c.toNat < 0x20
    · refine .inr (.inl ⟨?_, control⟩)
      rw [others, if_pos control, hexEscape, if_pos (by omega)]
    · refine .inr (.inr ⟨?_, special.1, special.2.1, Nat.not_lt.mp control⟩)
      rw [others, if_neg control]

/-- Whatever way a character is written, it is read as itself. -/
theorem readQuoted_escapeChar (c : Char) (fuel : Nat) (output rest : List Char) :
    readQuoted (fuel + 1) output (escapeChar false c ++ rest) =
      readQuoted fuel (c :: output) rest := by
  rcases escapeChar_cases c with
    ⟨letter, written, notUnit, isEscape⟩ | ⟨written, control⟩ |
      ⟨written, notQuote, notBackslash, notControl⟩
  · rw [written]
    exact readQuoted_simple notUnit isEscape
  · rw [written, readQuoted_hexUnit control]
  · rw [written]
    exact readQuoted_plain notQuote notBackslash notControl

end Quoted

/-- The fuel of a quoted text is one step for each character and one for the quote. -/
theorem readQuoted_append (text : List Char) {fuel : Nat} (enough : text.length < fuel)
    (output rest : List Char) :
    readQuoted fuel output (text.flatMap (escapeChar false) ++ '\x22' :: rest) =
      some (output.reverse ++ text, rest) := by
  induction text generalizing output fuel with
  | nil =>
    obtain ⟨fuel, rfl⟩ := Nat.exists_eq_succ_of_ne_zero (Nat.ne_of_gt enough)
    rw [List.append_nil]
    exact readQuoted_quote
  | cons c text inductionHypothesis =>
    obtain ⟨fuel, rfl⟩ := Nat.exists_eq_succ_of_ne_zero (Nat.ne_of_gt (Nat.zero_lt_of_lt enough))
    rw [List.flatMap_cons, List.append_assoc, Nat.succ_eq_add_one, readQuoted_escapeChar,
      inductionHypothesis (Nat.lt_of_succ_lt_succ enough), List.reverse_cons, List.append_assoc,
      List.singleton_append]

/-- A text of parts that are not empty is as long as each of them, and as their number. -/
theorem length_flatMap_bounds {Item : Type} {part : Item → List Char}
    (nonempty : ∀ item, 0 < (part item).length) (items : List Item) :
    items.length ≤ (items.flatMap part).length ∧
      ∀ item ∈ items, (part item).length ≤ (items.flatMap part).length := by
  induction items with
  | nil => exact ⟨Nat.le_refl 0, nofun⟩
  | cons item items inductionHypothesis =>
    obtain ⟨counted, bounded⟩ := inductionHypothesis
    have := nonempty item
    rw [List.flatMap_cons, List.length_append, List.length_cons]
    refine ⟨by omega, List.forall_mem_cons.mpr ⟨by omega, fun other member => ?_⟩⟩
    have := bounded other member
    omega

/-- A written character takes at least one place. -/
theorem length_escapeChar_pos (c : Char) : 0 < (escapeChar false c).length := by
  rcases escapeChar_cases c with ⟨letter, isEscape, -⟩ | ⟨isEscape, -⟩ | ⟨isEscape, -⟩
  all_goals
    rw [isEscape]
    exact Nat.zero_lt_succ _

/-- A quoted text is read up to its own quote. -/
theorem readQuoted_quoted (text rest : List Char) :
    ∃ after, quoted false text ++ rest = '\x22' :: after ∧
      readQuoted (after.length + 1) [] after = some (text, rest) := by
  refine ⟨text.flatMap (escapeChar false) ++ '\x22' :: rest, by simp [quoted], ?_⟩
  have longEnough := (length_flatMap_bounds length_escapeChar_pos text).1
  apply readQuoted_append
  simp only [List.length_append, List.length_cons]
  omega

/-! ### Numbers -/

/-- What may stand behind a value. -/
def EndsValue (rest : List Char) : Prop := ∀ c ∈ rest.head?, c ∈ [',', '\n', ']', '\x7d']

/-- The digits of a number have its value. -/
theorem digitsValue_toDigits (number : Nat) : digitsValue (Nat.toDigits 10 number) = number := by
  have sameFold : digitsValue (Nat.toDigits 10 number) =
      Nat.ofDigitChars 10 (Nat.toDigits 10 number) 0 := by
    simp only [digitsValue, Nat.ofDigitChars, Nat.mul_comm]
    rfl
  rw [sameFold, Nat.ofDigitChars_ten_toDigits]

section Numbers

variable {rest : List Char}

/-- What ends a value does not continue a number. -/
theorem EndsValue.notDigit (ends : EndsValue rest) : ∀ c ∈ rest.head?, isAsciiDigit c = false := by
  have apart : ∀ c ∈ [',', '\n', ']', '\x7d'], isAsciiDigit c = false := by
    simp [isAsciiDigit]
  exact fun c isFirst => apart c (ends c isFirst)

/-- All digits of a number are read. -/
theorem readWhole_toDigits (number : Nat) (ends : EndsValue rest) :
    readWhole (Nat.toDigits 10 number ++ rest) = some (Nat.toDigits 10 number, rest) := by
  have inside : ∀ c ∈ Nat.toDigits 10 number, isAsciiDigit c = true :=
    fun _ => isAsciiDigit_of_mem_toDigits
  obtain ⟨taken, left⟩ := Text.run_append_of_head inside ends.notDigit
  rcases Nat.eq_zero_or_pos number with rfl | positive
  · rfl
  · have notZero := head_toDigits_ne_zero positive
    obtain ⟨first, others, digits, -⟩ := exists_digit number
    rw [digits] at taken left notZero ⊢
    unfold readWhole
    split
    · next isZero => exact absurd (congrArg some (List.cons.inj isZero).1) notZero
    · rw [taken, left]

/-- A whole number has no fraction behind it. -/
theorem readFraction_of_endsValue (ends : EndsValue rest) : readFraction rest = ([], rest) := by
  unfold readFraction
  split
  · next digits => exact absurd (ends '.' rfl) (by decide)
  · rfl

/-- A whole number has no exponent behind it. -/
theorem readExponent_of_endsValue (ends : EndsValue rest) : readExponent rest = (none, rest) := by
  unfold readExponent
  cases rest with
  | nil => rfl
  | cons c rest =>
    have apart : ∀ c ∈ [',', '\n', ']', '\x7d'], (c == 'e' || c == 'E') = false := by simp
    simp only [apart c (ends c rfl), Bool.false_eq_true, if_false]

/-- A digit is not skipped as white space. -/
theorem isSpace_of_digit {c : Char} (digit : isAsciiDigit c = true) : isSpace c = false := by
  have apart (space : Char) (notDigit : isAsciiDigit space = false) : (c == space) = false :=
    beq_false_of_ne (ne_of_digit digit notDigit).symm
  rw [isSpace, apart ' ' (by decide), apart '\t' (by decide), apart '\n' (by decide),
    apart '\r' (by decide)]
  rfl

/-- A name does not begin with a digit. -/
theorem readName_of_digit {c : Char} (digit : isAsciiDigit c = true) :
    readName (c :: rest) = none ∧ readName ('-' :: c :: rest) = none := by
  have letters : ∀ letter ∈ ['n', 't', 'f', 'N', 'I', '-'], letter ≠ c := by
    have notDigits : ∀ letter ∈ ['n', 't', 'f', 'N', 'I', '-'], isAsciiDigit letter = false := by
      simp [isAsciiDigit]
    exact fun letter member => ne_of_digit digit (notDigits letter member)
  simp only [List.forall_mem_cons] at letters
  constructor
  · simp [readName, letters]
  · simp [readName, letters]

/-- A whole number is read with its sign. -/
theorem readNumber_toDigits (number : Nat) (ends : EndsValue rest) :
    readNumber (Nat.toDigits 10 number ++ rest) = some (int number, rest) ∧
      readNumber ('-' :: (Nat.toDigits 10 number ++ rest)) = some (int (-number), rest) := by
  have whole := readWhole_toDigits number ends
  have fraction := readFraction_of_endsValue ends
  have exponent := readExponent_of_endsValue ends
  have value := digitsValue_toDigits number
  refine ⟨?_, by simp [readNumber, whole, fraction, exponent, value]⟩
  unfold readNumber
  split
  next negative start sign =>
    obtain ⟨rfl, rfl⟩ : false = negative ∧ Nat.toDigits 10 number ++ rest = start := by
      split at sign
      · next isMinus =>
        obtain ⟨first, others, digits, isDigit⟩ := exists_digit number
        rw [digits] at isMinus
        rw [(List.cons.inj isMinus).1] at isDigit
        contradiction
      · exact Prod.mk.inj sign
    simp [whole, fraction, exponent, value]

/-- An integer is printed as its digits, with a sign when it is negative. -/
theorem toList_toString (value : Int) :
    (∃ number : Nat, value = number ∧ (toString value).toList = Nat.toDigits 10 number) ∨
      ∃ number : Nat, value = -number ∧
        (toString value).toList = '-' :: Nat.toDigits 10 number := by
  cases value with
  | ofNat number => exact .inl ⟨number, rfl, Nat.toList_repr⟩
  | negSucc number =>
    refine .inr ⟨number + 1, rfl, ?_⟩
    have split : toString (Int.negSucc number) = "-" ++ (number + 1).repr := rfl
    rw [split, String.toList_append, Nat.toList_repr]
    rfl

/-- A whole number is read with its sign, and it is not mistaken for a name. -/
theorem readName_or_readNumber (value : Int) (ends : EndsValue rest) :
    (readName ((toString value).toList ++ rest)).or (readNumber ((toString value).toList ++ rest)) =
      some (int value, rest) := by
  rcases toList_toString value with ⟨number, rfl, written⟩ | ⟨number, rfl, written⟩
  · obtain ⟨first, others, digits, isDigit⟩ := exists_digit number
    have isRead := (readNumber_toDigits number ends).1
    rw [written]
    rw [digits] at isRead ⊢
    rw [List.cons_append, (readName_of_digit isDigit).1, Option.none_or, ← List.cons_append, isRead]
  · obtain ⟨first, others, digits, isDigit⟩ := exists_digit number
    have isRead := (readNumber_toDigits number ends).2
    rw [written, List.cons_append]
    rw [digits] at isRead ⊢
    rw [List.cons_append, (readName_of_digit isDigit).2, Option.none_or, ← List.cons_append, isRead]

end Numbers

end InterfaceAudit.Json
