import Depot.Proofs.Decimal.Grammar
/-!
# The spelling of floors

One number has many texts: there may be blanks around it and underscores in it, its digits may be
those of any script, zeros may stand in front, and an exponent may make up for the place of the
point. Printing chooses one text among them. It drops what does not count and keeps what does, the
zeros at the end and the sign of a zero included, so that the number is read from its text as it was
(`toText_reads_back`).

Two notations take part in this, and the exponent of a number together with the place of its leading
digit decides between them (`Decimal.letter_mem_toText_iff`). No number that is ever read falls
outside: the numbers that are read from some text are those within the range of exponents, and each
of them has a text in one of the two notations.
-/

namespace Depot.Decimal

variable (d : Decimal)

/-- **The notation.** A number is printed with an exponent if its own exponent is positive, or if
its leading digit is more than six places behind the point. -/
theorem letter_mem_toText_iff :
    'E' ∈ d.toText.toList ↔ 0 < d.exponent ∨ d.adjusted < -6 := by
  have hsign : 'E' ∉ (if d.negative then ['-'] else []) := by
    cases d.negative <;> decide
  -- the letter is neither a digit nor the point
  have hpointed : ∀ places, 'E' ∉ pointed d.digitChars places := by
    intro places h
    exact absurd (d.mem_frontChars_of_mem_pointed h) (by decide)
  rw [toText, String.toList_ofList, List.mem_append, or_iff_right hsign, unsignedChars]
  split
  · next h => exact iff_of_false (hpointed _) (by omega)
  · next h => exact iff_of_true (List.mem_append_right _ List.mem_cons_self) (by omega)

end Depot.Decimal

namespace Depot.VersionFloor

/-- **Floors are printed exactly.** Of whatever text a floor is read, its own text is read as a
floor with the same sign, coefficient and exponent, and spells it by the rules. This holds for every
exponent that can be read, which are those of the range, and in both notations. -/
theorem toText_reads_back :
    (∀ text d, parse text = .ok d →
      parse d.toText = .ok d ∧ Decimal.IsNumeral d.toText d) ∧
    (∀ d : Decimal, (∃ text, parse text = .ok d) ↔ d.InRange) ∧
    ∀ d : Decimal, 'E' ∈ d.toText.toList ↔ 0 < d.exponent ∨ d.adjusted < -6 := by
  refine ⟨?_, ?_, Decimal.letter_mem_toText_iff⟩
  · intro text d h
    have hback : parse d.toText = .ok d := parse_toText (inRange_of_parse h)
    exact ⟨hback, parse_eq_ok_iff.1 hback⟩
  · intro d
    constructor
    · rintro ⟨text, h⟩
      exact inRange_of_parse h
    · intro h
      exact ⟨d.toText, parse_toText h⟩

/-- Digits of another script behind zeros and an underscore, with zeros at the end; then a zero with
a sign and the least exponent there is. -/
theorem toText_reads_back_zeros :
    parse " +0_0٣.500E-0009\t" = .ok ⟨false, 3500, -12⟩ ∧
      (⟨false, 3500, -12⟩ : Decimal).toText = "3.500E-9" ∧
      parse "3.500E-9" = .ok ⟨false, 3500, -12⟩ ∧
    parse "-00E-1999999999999999997" = .ok ⟨true, 0, -1999999999999999997⟩ ∧
      parse "-0E-1999999999999999997" = .ok ⟨true, 0, -1999999999999999997⟩ := by
  have hdigits : parse " +0_0٣.500E-0009\t" = .ok ⟨false, 3500, -12⟩ := by decide +kernel
  have hzero : parse "-00E-1999999999999999997" = .ok ⟨true, 0, -1999999999999999997⟩ := by
    decide +kernel
  have hprinted : (⟨false, 3500, -12⟩ : Decimal).toText = "3.500E-9" := by decide +kernel
  have hprinted' : (⟨true, 0, -1999999999999999997⟩ : Decimal).toText =
      "-0E-1999999999999999997" := by decide +kernel
  obtain ⟨hback, -⟩ := toText_reads_back.1 _ _ hdigits
  obtain ⟨hback', -⟩ := toText_reads_back.1 _ _ hzero
  exact ⟨hdigits, hprinted, hprinted ▸ hback, hzero, hprinted' ▸ hback'⟩

end Depot.VersionFloor
