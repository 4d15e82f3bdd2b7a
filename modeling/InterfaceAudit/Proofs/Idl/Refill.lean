import InterfaceAudit.Proofs.Idl.Interval
import Mathlib.Data.List.Infix

/-!
Refilled intervals: a text is read side by side with the text that has another run in its interval.
-/

namespace InterfaceAudit.Idl

open Grammar

/-- A run between two texts, and another run for its place. -/
structure Refill where
  before : List Char
  run : List Char
  other : List Char
  after : List Char

namespace Refill

variable (refill : Refill)

def text : List Char := refill.before ++ (refill.run ++ refill.after)

def otherText : List Char := refill.before ++ (refill.other ++ refill.after)

/-- Sources of a phrase in both texts: they are the same, or they begin in front of the interval and
reach over it. -/
inductive Sources : List Char → List Char → Prop
  | same (source : List Char) : Sources source source
  | across {front back : List Char} (nonempty : front ≠ []) (ends : front <:+ refill.before)
      (begins : back <+: refill.after) :
      Sources (front ++ (refill.run ++ back)) (front ++ (refill.other ++ back))

/-- Tokens are the same, and a blank may end with the run. -/
def Tokens (kind : Token) (text otherText : List Char) : Prop :=
  text = otherText ∨
    kind = .blank ∧ ∃ front, text = front ++ refill.run ∧ otherText = front ++ refill.other

/-- Places of both texts: behind the interval, or at the same distance in front of it. At a settled
place no blank is left to read, so there is text in front of the interval. -/
inductive Facing : Bool → List Char → List Char → Prop
  | behind {settled : Bool} {text : List Char} (suffix : text <:+ refill.after) :
      Facing settled text text
  | ahead {settled : Bool} {text : List Char} (suffix : text <:+ refill.before)
      (closed : Closed text) (nonempty : settled = true → text ≠ []) :
      Facing settled (text ++ (refill.run ++ refill.after))
        (text ++ (refill.other ++ refill.after))

end Refill

/-! ### Tokens in front of the interval -/

/-- An outright token begins with none of its characters a quoted text or a comment, unless it is a
quoted text as a whole. -/
def Token.isOutright : Token → Bool
  | .blank => false
  | .symbol mark => mark != '\x22' && mark != '/'
  | .ellipsis | .keyword _ | .name | .primitive | .number | .quoted => true

/-- A quoted text that begins in a closed text ends there. -/
theorem Closed.scanQuoted_append {text : List Char} (closed : Closed text) (nonempty : text ≠ [])
    (extension : List Char) :
    scanQuoted (text ++ extension) = extended extension (scanQuoted text) ∧
      ∀ {taken rest}, scanQuoted text = some (taken, rest) → Closed rest := by
  obtain ⟨c, text, rfl⟩ := List.exists_cons_of_ne_nil nonempty
  simp only [List.cons_append, scanQuoted, scanWhile, beq_iff_eq]
  by_cases isQuote : c = '\x22'
  · subst isQuote
    obtain ⟨rest, dropped, restClosed⟩ := Closed.of_quoted closed
    have stop : text.dropWhile (· != '\x22') ≠ [] := by simp [dropped]
    obtain ⟨taken, droppedLonger⟩ := takeWhile_append_of_stop extension stop
    simp only [taken, droppedLonger, dropped, if_true, List.cons_append, extended_some, true_and]
    intro _ _ found
    obtain ⟨-, rfl⟩ := Prod.mk.inj (Option.some.inj found)
    exact restClosed
  · simp only [isQuote, if_false, extended_none, true_and]
    intro _ _ found
    contradiction

/-- An outright token leaves a closed text closed. -/
theorem Closed.scan {text taken rest : List Char} (closed : Closed text) {kind : Token}
    (outright : kind.isOutright = true) (found : kind.scan text = some (taken, rest)) :
    Closed rest := by
  have ofInert {scan : List Char → Scan} (inert : Inert isInert scan)
      (found : scan text = some (taken, rest)) : Closed rest := by
    have split := inert.splits found
    exact (Closed.of_isInert split.inert).of_append (split.append ▸ closed)
  cases kind with
  | blank => contradiction
  | symbol mark =>
    have isMark : ∀ c ∈ [mark], c ≠ '\x22' ∧ c ≠ '/' := by
      simpa [Token.isOutright] using outright
    rw [scan_symbol found] at closed
    exact (Closed.of_inert isMark).of_append closed
  | ellipsis => exact ofInert (scanPart_inert isInert_of_isTokenPart (by decide) (by decide)) found
  | keyword word => exact ofInert (scanKeyword_inert isInert_of_isTokenPart word) found
  | name => exact ofInert (scanName_inert isInert_of_isTokenPart) found
  | primitive =>
    exact ofInert (scanPrimitive_inert isInert_of_isTokenPart isInert_of_isWhiteSpace) found
  | number => exact ofInert (scanNumber_inert isInert_of_isTokenPart) found
  | quoted =>
    have nonempty : text ≠ [] := by
      rintro rfl
      contradiction
    exact (closed.scanQuoted_append nonempty []).2 found

/-- A scan finds in front of a text what it finds without that text. -/
def Token.EndsBefore (kind : Token) (front behind : List Char) : Prop :=
  kind.scan (front ++ behind) = extended behind (kind.scan front)

instance (kind : Token) (front behind : List Char) : Decidable (kind.EndsBefore front behind) :=
  inferInstanceAs (Decidable (_ = _))

/-- Tokens end in front of a parted interval unless they are joined by white space alone. -/
theorem PartedInterval.endsBefore {before run after : List Char}
    (interval : PartedInterval before run after) {kind : Token}
    (apart : kind = .primitive → Joins before after → HasComment run)
    (outright : kind.isOutright = true) {text : List Char} (suffix : text <:+ before)
    (closed : Closed text) (nonempty : text ≠ []) : kind.EndsBefore text (run ++ after) := by
  have part (c : Char) (held : isTokenPart c = true) : isTokenPart c = true := held
  unfold Token.EndsBefore
  cases kind with
  | blank => exact absurd outright Bool.false_ne_true
  | symbol mark =>
    obtain ⟨c, text, rfl⟩ := List.exists_cons_of_ne_nil nonempty
    simp only [Token.scan, scanSpelling, List.cons_append, List.isPrefixOf_cons_cons,
      List.isPrefixOf_nil_left, Bool.and_true]
    split <;> rfl
  | ellipsis =>
    exact interval.inert_append (scanPart_inert part (by decide) (by decide)) suffix nonempty
  | keyword word => exact interval.inert_append (scanKeyword_inert part word) suffix nonempty
  | name => exact interval.inert_append (scanName_inert part) suffix nonempty
  | primitive => exact interval.scanPrimitive_append (apart rfl) suffix nonempty
  | number => exact interval.inert_append (scanNumber_inert part) suffix nonempty
  | quoted => exact (closed.scanQuoted_append nonempty _).1

/-! ### Places of both texts -/

namespace Refill

/-- Wherever the parse of a text looks for a token of these kinds in front of the interval, it would
find there what it finds without the interval, if the given run stood in it. -/
def Uncut (refill : Refill) (kinds : Token → Bool) (run : List Char) : Prop :=
  ∀ attempt ∈ grammar.attempts file refill.text, kinds attempt.kind = true →
    ∀ front ∈ refill.before.tails, attempt.text = front ++ (refill.run ++ refill.after) →
      Closed front → front ≠ [] → attempt.kind.EndsBefore front (run ++ refill.after)

instance (refill : Refill) (kinds : Token → Bool) (run : List Char) :
    Decidable (refill.Uncut kinds run) :=
  List.decidableBAll _ _

/-- Whatever the parse looks for, a parted interval is not reached over, unless white space alone
joins the words of a primitive type. -/
theorem uncut_of_parted {refill : Refill} {run : List Char}
    (interval : PartedInterval refill.before run refill.after)
    (apart : Joins refill.before refill.after → HasComment run) :
    refill.Uncut Token.isOutright run := by
  intro attempt _ outright front isTail _ closed nonempty
  exact interval.endsBefore (fun _ => apart) outright ((List.mem_tails _ _).mp isTail) closed
    nonempty

/-- Both runs may stand in the interval: no token reaches over either of them. -/
structure Sound (refill : Refill) : Prop where
  interval : Interval refill.before refill.run refill.after
  otherInterval : Interval refill.before refill.other refill.after
  uncut : refill.Uncut Token.isOutright refill.run
  otherUncut : refill.Uncut Token.isOutright refill.other

variable {refill : Refill} {text otherText : List Char}

/-- Texts that face each other do so whether or not they start solid. -/
theorem Facing.unsettle (facing : refill.Facing true text otherText) :
    refill.Facing false text otherText := by
  cases facing with
  | behind suffix => exact .behind suffix
  | ahead suffix closed _ => exact .ahead suffix closed nofun

/-- Behind an interval there is no room for the interval itself. -/
theorem eq_nil_of_no_room {text taken front run after : List Char}
    (split : text = taken ++ (front ++ (run ++ after))) (short : text.length ≤ after.length) :
    taken = [] := by
  apply List.eq_nil_of_length_eq_zero
  have length := congrArg List.length split
  simp only [List.length_append] at length
  omega

/-- What stands between two pairs of places reaches over the interval, or it is the same. -/
theorem Facing.taken {after : Bool} {taken otherTaken rest otherRest : List Char}
    (facing : refill.Facing true text otherText) (restFacing : refill.Facing after rest otherRest)
    (split : text = taken ++ rest) (otherSplit : otherText = otherTaken ++ otherRest) :
    refill.Sources taken otherTaken := by
  cases facing with
  | behind suffix =>
    cases restFacing with
    | behind _ =>
      rw [List.append_cancel_right (split.symm.trans otherSplit)]
      exact .same otherTaken
    | @ahead front _ _ _ =>
      have short := suffix.length_le
      rw [eq_nil_of_no_room split short, eq_nil_of_no_room otherSplit short]
      exact .same []
  | @ahead front suffix _ nonempty =>
    cases restFacing with
    | behind restSuffix =>
      obtain ⟨back, same⟩ := restSuffix
      have taken_eq : taken = front ++ (refill.run ++ back) := by
        apply (List.append_left_inj rest).mp
        rw [← split, ← same]
        simp only [List.append_assoc]
      have otherTaken_eq : otherTaken = front ++ (refill.other ++ back) := by
        apply (List.append_left_inj rest).mp
        rw [← otherSplit, ← same]
        simp only [List.append_assoc]
      rw [taken_eq, otherTaken_eq]
      exact .across (nonempty rfl) suffix ⟨rest, same⟩
    | @ahead restFront _ _ _ =>
      have same : front = taken ++ restFront := by
        apply (List.append_left_inj (refill.run ++ refill.after)).mp
        rw [split, List.append_assoc]
      have otherSame : front = otherTaken ++ restFront := by
        apply (List.append_left_inj (refill.other ++ refill.after)).mp
        rw [otherSplit, List.append_assoc]
      rw [List.append_cancel_right (same.symm.trans otherSame)]
      exact .same otherTaken

/-! ### Tokens in tandem -/

/-- Texts and values of a token in both texts. -/
abbrev TokenTwin (refill : Refill) (kind : Token) (one another : Taken (List Char)) : Prop :=
  refill.Tokens kind one.1 another.1 ∧ one.2 = one.1 ∧ another.2 = another.1

/-- A token that takes the same on both sides is read in tandem. -/
theorem tandem_same {settled : Bool} {kind : Token} {taken rest otherRest : List Char}
    (split : taken ++ rest = text) (otherSplit : taken ++ otherRest = otherText)
    (facing : refill.Facing settled rest otherRest) :
    Tandem (refill.Facing settled) (refill.TokenTwin kind) text otherText
      (some (taken, rest)) (some (taken, otherRest)) :=
  ⟨taken, taken, split.symm, otherSplit.symm, ⟨.inl rfl, rfl, rfl⟩, facing⟩

namespace Sound

variable (sound : refill.Sound)

include sound

/-- The parse looks for the token, so none of the runs is reached over. -/
theorem scan_token {kind : Token} (outright : kind.isOutright = true)
    (attempted : ⟨kind, text⟩ ∈ grammar.attempts file refill.text)
    (facing : refill.Facing true text otherText) :
    Tandem (refill.Facing false) (refill.TokenTwin kind) text otherText
      (kind.scan text) (kind.scan otherText) := by
  cases facing with
  | behind suffix =>
    cases found : kind.scan text with
    | none => trivial
    | some reading =>
      obtain ⟨taken, rest⟩ := reading
      have split := (Token.scan_split found).1
      have restSuffix := (List.suffix_append taken rest).trans (split ▸ suffix)
      exact tandem_same split split (.behind restSuffix)
  | @ahead front suffix closed nonempty =>
    have isTail : front ∈ refill.before.tails := (List.mem_tails _ _).mpr suffix
    have ends : kind.EndsBefore front (refill.run ++ refill.after) :=
      sound.uncut _ attempted outright front isTail rfl closed (nonempty rfl)
    have otherEnds : kind.EndsBefore front (refill.other ++ refill.after) :=
      sound.otherUncut _ attempted outright front isTail rfl closed (nonempty rfl)
    rw [ends, otherEnds]
    cases found : kind.scan front with
    | none => trivial
    | some reading =>
      obtain ⟨taken, rest⟩ := reading
      have split := (Token.scan_split found).1
      have restSuffix := (List.suffix_append taken rest).trans (split ▸ suffix)
      have restClosed := closed.scan outright found
      refine tandem_same ?_ ?_ (.ahead restSuffix restClosed nofun)
      · rw [← split, List.append_assoc]
      · rw [← split, List.append_assoc]

/-- A blank in front of the interval ends there, or it takes the run as well. -/
theorem scan_blank (facing : refill.Facing false text otherText) :
    Tandem (refill.Facing true) (refill.TokenTwin .blank) text otherText
      (scanBlank text) (scanBlank otherText) := by
  have split (text : List Char) :
      text.take (text.length - (afterBlank text).length) ++ afterBlank text = text :=
    List.suffix_iff_eq_append.mp (afterBlank_suffix text)
  cases facing with
  | behind suffix =>
    exact tandem_same (split text) (split text) (.behind ((afterBlank_suffix text).trans suffix))
  | @ahead front suffix closed _ =>
    obtain ⟨restClosed, longer⟩ := closed.afterBlank_append (refill.run ++ refill.after)
    obtain ⟨-, otherLonger⟩ := closed.afterBlank_append (refill.other ++ refill.after)
    rw [sound.interval.afterBlank_run] at longer
    rw [sound.otherInterval.afterBlank_run] at otherLonger
    unfold scanBlank
    by_cases ends : afterBlank front = []
    · rw [if_pos ends] at longer otherLonger
      rw [longer, otherLonger]
      refine ⟨front ++ refill.run, front ++ refill.other, ?_, ?_,
        ⟨.inr ⟨rfl, front, rfl, rfl⟩, ?_, ?_⟩, .behind (List.suffix_refl refill.after)⟩
      · rw [List.append_assoc]
      · rw [List.append_assoc]
      · rw [← List.append_assoc]
        exact consumed_of_append (front ++ refill.run) refill.after
      · rw [← List.append_assoc]
        exact consumed_of_append (front ++ refill.other) refill.after
    · rw [if_neg ends] at longer otherLonger
      rw [longer, otherLonger]
      have taken (extension : List Char) := consumed_append front (afterBlank front) extension
      unfold consumed at taken
      dsimp only
      rw [taken, taken]
      refine tandem_same ?_ ?_
        (.ahead ((afterBlank_suffix front).trans suffix) restClosed fun _ => ends)
      · rw [← List.append_assoc, split]
      · rw [← List.append_assoc, split]

end Sound

end Refill

end InterfaceAudit.Idl
