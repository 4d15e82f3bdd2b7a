import InterfaceAudit.Text.Case

/-!
Case of ASCII characters.
There the full case mapping takes one character to one character, and it looks at no other one.
-/

namespace InterfaceAudit.Text

/-- What holds of the characters at the first 128 code points holds of every ASCII character. -/
@[elab_as_elim]
theorem ascii_cases {motive : Char → Prop} (each : ∀ point < 128, motive (Char.ofNat point))
    (c : Char) (ascii : c.toNat < 128) : motive c :=
  Char.ofNat_toNat c ▸ each c.toNat ascii

theorem upperChar_of_lt {c : Char} (ascii : c.toNat < 128) : upperChar c = [c.toUpper] :=
  ascii_cases (by decide +kernel) c ascii

theorem lowerChar_of_lt {c : Char} (ascii : c.toNat < 128) : lowerChar c = [c.toLower] :=
  ascii_cases (by decide +kernel) c ascii

/-- The small letter of an ASCII character is one as well. -/
theorem toNat_toLower_lt {c : Char} (ascii : c.toNat < 128) : c.toLower.toNat < 128 :=
  ascii_cases (by decide +kernel) c ascii

/-- An ASCII text is lowered character by character, whatever stands in front. -/
theorem lowerAfter_eq_map {before text : List Char} (ascii : ∀ c ∈ text, c.toNat < 128) :
    lowerAfter before text = text.map Char.toLower := by
  induction text generalizing before with
  | nil => rfl
  | cons c rest inductionHypothesis =>
    obtain ⟨first, rest⟩ := List.forall_mem_cons.mp ascii
    have noSigma : (c.toNat == 0x3A3) = false := by
      rw [beq_eq_false_iff_ne]
      omega
    rw [lowerAfter, noSigma, lowerChar_of_lt first, inductionHypothesis rest]
    rfl

theorem lower_eq_map {text : List Char} (ascii : ∀ c ∈ text, c.toNat < 128) :
    lower text = text.map Char.toLower := lowerAfter_eq_map ascii

end InterfaceAudit.Text
