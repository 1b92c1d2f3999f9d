import Depot.Decimal.Printer
import Depot.VersionFloor
import Mathlib.Data.Bool.AllAny
/-!
# Decimal numbers are read as they were written

A decimal number within the range of exponents is written in one of four shapes: with zeros before
its digits, with a point among them, as an integer, or with an exponent. All four are digits with a
point somewhere and a *tail*, which is empty or an exponent, and `digits?_pointed` reads every such
text: the digits give the coefficient back, and the place of the point together with the tail the
exponent. Around that there is only the sign, since a written number holds no blank and no
underscore, and starts with a digit once the sign is gone (`Decimal.numeral?_toText`).

A floor of a dependency map passes through its text when maps are merged or written; by
`VersionFloor.parse_toText` it comes back as the same sign, coefficient and exponent, not merely as
the same value.
-/

namespace Depot.Decimal

open Text (digitChar digitsOf NoDigitAhead ofDigits splitDigits splitDigits_map
  splitDigits_map_append splitSign)

/-! ### Digits, exponents and the point -/

/-- Digits behind a sign are read as the exponent that they give. -/
theorem exponent?_of_splitDigits {letter : Char} (hletter : letter = 'e' ∨ letter = 'E')
    {negative : Bool} {cs rest : List Char} {d : Nat} {ds : List Nat}
    (hsign : splitSign cs = (negative, rest))
    (hdigits : splitDigits rest = (d :: ds, [])) :
    exponent? (letter :: cs) =
      some (if negative then -(ofDigits (d :: ds) : Int) else ofDigits (d :: ds)) := by
  rw [exponent?, if_pos hletter, hsign]
  simp only [hdigits]

/-- A written exponent is read back. -/
theorem exponent?_exponentText (e : Int) : exponent? ('E' :: exponentText e) = some e := by
  have hdigits := splitDigits_map fun d (hd : d ∈ digitsOf e.natAbs) => Text.lt_of_mem_digitsOf hd
  have hvalue := Text.ofDigits_digitsOf e.natAbs
  unfold exponentText
  cases hds : digitsOf e.natAbs with
  | nil => exact absurd hds (Text.digitsOf_ne_nil _)
  | cons d ds =>
    rw [hds] at hdigits hvalue
    -- a sign is written in either case
    by_cases he : e < 0
    · have hneg : -(e.natAbs : Int) = e := by omega
      have hsign : splitSign ('-' :: (d :: ds).map digitChar) = (true, (d :: ds).map digitChar) :=
        rfl
      rw [if_pos he, exponent?_of_splitDigits (.inr rfl) hsign hdigits, if_pos rfl, hvalue, hneg]
    · have hpos : (e.natAbs : Int) = e := by omega
      have hsign : splitSign ('+' :: (d :: ds).map digitChar) = (false, (d :: ds).map digitChar) :=
        rfl
      rw [if_neg he, exponent?_of_splitDigits (.inr rfl) hsign hdigits, if_neg Bool.false_ne_true,
        hvalue, hpos]

/-- What may follow the digits and the point of a number: nothing that could be taken for one of
them, and something that is read as an exponent. -/
structure IsTail (tail : List Char) (e : Int) : Prop where
  noDigitAhead : NoDigitAhead tail
  head?_ne_point : tail.head? ≠ some '.'
  exponent?_eq : exponent? tail = some e

theorem IsTail.nil : IsTail [] 0 where
  noDigitAhead _ hc := nomatch hc
  head?_ne_point h := nomatch h
  exponent?_eq := rfl

theorem IsTail.exponentText (e : Int) : IsTail ('E' :: Decimal.exponentText e) e where
  noDigitAhead c hc := by
    obtain rfl := Option.some.inj hc
    decide
  head?_ne_point h := absurd (Option.some.inj h) (by decide)
  exponent?_eq := exponent?_exponentText e

/-- Digits without a point, and a tail. -/
theorem digits?_whole {whole : List Nat} (hwhole : ∀ d ∈ whole, d < 10) (hne : whole ≠ [])
    {tail : List Char} {e : Int} (htail : IsTail tail e) (negative : Bool) :
    digits? negative (whole.map digitChar ++ tail) = some ⟨negative, ofDigits whole, e⟩ := by
  have hempty : whole.isEmpty = false := List.isEmpty_eq_false_iff.2 hne
  -- the tail does not start with a point, so there is no fraction
  have hfraction : splitFraction tail = ([], tail) := by
    rw [splitFraction.eq_def]
    split
    · exact absurd rfl htail.head?_ne_point
    · rfl
  unfold digits?
  rw [splitDigits_map_append hwhole htail.noDigitAhead]
  simp only [hfraction, hempty, Bool.false_and, if_neg Bool.false_ne_true, htail.exponent?_eq,
    Option.map_some, List.append_nil, List.length_nil, Int.natCast_zero, Int.sub_zero]

/-- Digits with a point among them, at an end or inside, and a tail. -/
theorem digits?_fraction {whole fraction : List Nat} (hwhole : ∀ d ∈ whole, d < 10)
    (hfraction : ∀ d ∈ fraction, d < 10) (hne : whole ++ fraction ≠ []) {tail : List Char} {e : Int}
    (htail : IsTail tail e) (negative : Bool) :
    digits? negative (whole.map digitChar ++ '.' :: (fraction.map digitChar ++ tail)) =
      some ⟨negative, ofDigits (whole ++ fraction), e - (fraction.length : Nat)⟩ := by
  have hpoint : NoDigitAhead ('.' :: (fraction.map digitChar ++ tail)) := by
    intro c hc
    obtain rfl := Option.some.inj hc
    decide
  have hempty : (whole.isEmpty && fraction.isEmpty) = false :=
    Bool.eq_false_iff.2 fun h => hne (by simpa using h)
  unfold digits?
  rw [splitDigits_map_append hwhole hpoint]
  simp only [splitFraction, splitDigits_map_append hfraction htail.noDigitAhead, hempty,
    if_neg Bool.false_ne_true, htail.exponent?_eq, Option.map_some]

/-- Digits behind a zero, a point and more zeros, and a tail. The zeros in front do not count. -/
theorem digits?_zeros {ds : List Nat} (hds : ∀ d ∈ ds, d < 10) (n : Nat) {tail : List Char}
    {e : Int} (htail : IsTail tail e) (negative : Bool) :
    digits? negative ('0' :: '.' :: List.replicate n '0' ++ ds.map digitChar ++ tail) =
      some ⟨negative, ofDigits ds, e - (n + ds.length : Nat)⟩ := by
  -- the zeros are read as digits of the fraction and add nothing to the coefficient
  have hzeros : List.replicate n '0' = (List.replicate n 0).map digitChar := by
    rw [List.map_replicate]
    rfl
  have hwhole : ∀ d ∈ [0], d < 10 := by decide
  have hfraction : ∀ d ∈ List.replicate n 0 ++ ds, d < 10 := by
    intro d hd
    rcases List.mem_append.1 hd with hd | hd
    · obtain rfl := List.eq_of_mem_replicate hd
      decide
    · exact hds d hd
  have htext : '0' :: '.' :: List.replicate n '0' ++ ds.map digitChar ++ tail =
      [0].map digitChar ++ '.' :: ((List.replicate n 0 ++ ds).map digitChar ++ tail) := by
    rw [hzeros, List.map_append]
    rfl
  have hcoefficient : ofDigits ([0] ++ (List.replicate n 0 ++ ds)) = ofDigits ds :=
    Text.ofDigits_replicate_zero_append (n + 1) ds
  have hne : [0] ++ (List.replicate n 0 ++ ds) ≠ [] := List.cons_ne_nil _ _
  rw [htext, digits?_fraction hwhole hfraction hne htail negative, hcoefficient,
    List.length_append, List.length_replicate]

/-- **Reading digits with a point.** Wherever the point is put, before all digits, among them or
after the last, the digits are read as the same coefficient, and the digits behind the point lower
the exponent. -/
theorem digits?_pointed {ds : List Nat} (hds : ∀ d ∈ ds, d < 10) (hne : ds ≠ []) {places : Int}
    (hplaces : places ≤ ds.length) {tail : List Char} {e : Int} (htail : IsTail tail e)
    (negative : Bool) :
    digits? negative (pointed (ds.map digitChar) places ++ tail) =
      some ⟨negative, ofDigits ds, e - (ds.length - places)⟩ := by
  unfold pointed
  split
  · next hzero =>
    -- the whole part is a zero, and zeros fill the places up to the digits
    rw [digits?_zeros hds _ htail]
    congr 2
    omega
  · next hpos =>
    rw [List.length_map]
    split
    · next hall =>
      -- all digits are whole
      rw [digits?_whole hds hne htail]
      congr 2
      omega
    · next hinside =>
      -- the point stands among the digits
      have hwhole : ∀ d ∈ ds.take places.toNat, d < 10 :=
        fun d hd => hds d (List.mem_of_mem_take hd)
      have hfraction : ∀ d ∈ ds.drop places.toNat, d < 10 :=
        fun d hd => hds d (List.mem_of_mem_drop hd)
      have hsome : ds.take places.toNat ++ ds.drop places.toNat ≠ [] := by
        rwa [List.take_append_drop]
      have hread := digits?_fraction hwhole hfraction hsome htail negative
      rw [List.map_take, List.map_drop] at hread
      rw [List.append_assoc, List.cons_append, hread, List.take_append_drop, List.length_drop]
      congr 2
      omega

/-! ### The front of a number

A number without its sign starts with a digit or the point, and so neither with a sign nor with the
first letter of a word. -/

/-- What a number may start with, once its sign is gone. -/
def frontChars : List Char := "0123456789.".toList

theorem digitChar_mem_frontChars {n : Nat} (hn : n < 10) : digitChar n ∈ frontChars := by
  have hall : ∀ n < 10, digitChar n ∈ frontChars := by decide
  exact hall n hn

/-- There is no sign to split off. -/
theorem splitSign_cons {c : Char} (hc : c ∈ frontChars) (rest : List Char) :
    splitSign (c :: rest) = (false, c :: rest) := by
  have hall : ∀ c ∈ frontChars, c ≠ '-' ∧ c ≠ '+' := List.all_iff_forall_prop.1 (by decide)
  rw [Text.splitSign.eq_def]
  split
  · next heq => exact absurd (List.cons.inj heq).1 (hall c hc).1
  · next heq => exact absurd (List.cons.inj heq).1 (hall c hc).2
  · rfl

/-- The text is no word. -/
theorem no_word_cons {c : Char} (hc : c ∈ frontChars) (rest : List Char) :
    isInfinity (c :: rest) = false ∧ isNotANumber (c :: rest) = false := by
  have hall : ∀ c ∈ frontChars, c.toLower ≠ 'i' ∧ c.toLower ≠ 'n' ∧ c.toLower ≠ 's' :=
    List.all_iff_forall_prop.1 (by decide)
  obtain ⟨hi, hnan, hsnan⟩ := hall c hc
  constructor
  · simp [isInfinity, hi]
  · simp [isNotANumber, Ne.symm hnan, Ne.symm hsnan]

/-! ### The sign and the characters of a written number -/

variable (d : Decimal)

/-- The digits of a number without its sign are read back, and so is its exponent. -/
theorem digits?_unsignedChars (negative : Bool) :
    digits? negative d.unsignedChars = some ⟨negative, d.coefficient, d.exponent⟩ := by
  have hds : ∀ n ∈ d.digits, n < 10 := fun n hn => Text.lt_of_mem_digitsOf hn
  have hne : d.digits ≠ [] := Text.digitsOf_ne_nil d.coefficient
  have hlength : 0 < d.digits.length := List.length_pos_iff.2 hne
  have hadjusted : d.adjusted = d.exponent + (d.digits.length - 1 : Nat) := rfl
  have hcoefficient : ofDigits d.digits = d.coefficient := Text.ofDigits_digitsOf d.coefficient
  unfold unsignedChars digitChars
  -- without an exponent the point stands behind the digit of place zero, else behind the first
  split
  · next h =>
    have hplaces : d.adjusted + 1 ≤ d.digits.length := by omega
    have hread := digits?_pointed hds hne hplaces .nil negative
    rw [List.append_nil] at hread
    rw [hread, hcoefficient]
    congr 2
    omega
  · rw [digits?_pointed hds hne (by omega) (.exponentText d.adjusted), hcoefficient]
    congr 2
    omega

/-- A number without its sign starts with a digit. -/
theorem unsignedChars_eq_cons : ∃ n rest, n < 10 ∧ d.unsignedChars = digitChar n :: rest := by
  -- both notations start with the digits before the point, of which there is at least one
  have hpointed : ∀ places : Int, ∃ n rest, n < 10 ∧
      pointed d.digitChars places = digitChar n :: rest := by
    intro places
    cases hds : d.digits with
    | nil => exact absurd hds (Text.digitsOf_ne_nil d.coefficient)
    | cons n ds =>
      have hmem : n ∈ d.digits := hds ▸ List.mem_cons_self
      have hn : n < 10 := Text.lt_of_mem_digitsOf hmem
      unfold pointed digitChars
      rw [hds, List.map_cons]
      split
      · exact ⟨0, _, by decide, rfl⟩
      · next hpos =>
        split
        · exact ⟨n, _, hn, rfl⟩
        · obtain ⟨k, hk⟩ : ∃ k : Nat, places.toNat = k + 1 := ⟨places.toNat - 1, by omega⟩
          rw [hk, List.take_succ_cons]
          exact ⟨n, _, hn, rfl⟩
  unfold unsignedChars
  split
  · exact hpointed _
  · obtain ⟨n, rest, hn, h⟩ := hpointed 1
    exact ⟨n, rest ++ 'E' :: exponentText d.adjusted, hn, by rw [h, List.cons_append]⟩

/-- The characters of written numbers. -/
def writtenChars : List Char := "0123456789.E+-".toList

/-- No character of a written number is blank or needs to be brought to an ASCII form. -/
theorem isBlank_plainChar?_of_mem {c : Char} (h : c ∈ writtenChars) :
    Text.isBlank c = false ∧ plainChar? c = some [c] := by
  have hall : ∀ c ∈ writtenChars, Text.isBlank c = false ∧ plainChar? c = some [c] :=
    List.all_iff_forall_prop.1 (by decide)
  exact hall c h

/-- A digit is a character of written numbers. -/
theorem digitChar_mem_writtenChars (n : Nat) : digitChar n ∈ writtenChars := by
  have hall : ∀ n < 10, digitChar n ∈ writtenChars := by decide
  have hmod : digitChar n = digitChar (n % 10) := by rw [digitChar, digitChar, Nat.mod_mod]
  rw [hmod]
  exact hall (n % 10) (Nat.mod_lt n (by decide))

theorem mem_writtenChars_of_mem_map {ds : List Nat} {c : Char} (h : c ∈ ds.map digitChar) :
    c ∈ writtenChars := by
  obtain ⟨n, -, rfl⟩ := List.mem_map.1 h
  exact digitChar_mem_writtenChars n

/-- Around a point there are digits only. -/
theorem mem_frontChars_of_mem_pointed {places : Int} {c : Char}
    (h : c ∈ pointed d.digitChars places) : c ∈ frontChars := by
  have hdigit : ∀ c ∈ d.digitChars, c ∈ frontChars := by
    intro c hc
    obtain ⟨n, hn, rfl⟩ := List.mem_map.1 hc
    exact digitChar_mem_frontChars (Text.lt_of_mem_digitsOf hn)
  -- zeros and a point in front of the digits, no point at all, or one among the digits
  unfold pointed at h
  split at h
  · simp only [List.cons_append, List.mem_cons, List.mem_append] at h
    rcases h with rfl | rfl | h | h
    · decide
    · decide
    · obtain rfl := List.eq_of_mem_replicate h
      decide
    · exact hdigit c h
  · split at h
    · exact hdigit c h
    · rcases List.mem_append.1 h with h | h
      · exact hdigit c (List.mem_of_mem_take h)
      · rcases List.mem_cons.1 h with rfl | h
        · decide
        · exact hdigit c (List.mem_of_mem_drop h)

theorem mem_writtenChars_of_mem_frontChars {c : Char} (h : c ∈ frontChars) : c ∈ writtenChars :=
  List.mem_append_left "E+-".toList h

/-- A number is written in ASCII: with digits, the point, the signs and the letter of the
exponent. -/
theorem mem_writtenChars {c : Char} (h : c ∈ d.toText.toList) : c ∈ writtenChars := by
  rw [toText, String.toList_ofList] at h
  rcases List.mem_append.1 h with h | h
  · split at h
    · obtain rfl := List.mem_singleton.1 h
      decide
    · exact nomatch h
  · unfold unsignedChars at h
    split at h
    · exact mem_writtenChars_of_mem_frontChars (d.mem_frontChars_of_mem_pointed h)
    · rcases List.mem_append.1 h with h | h
      · exact mem_writtenChars_of_mem_frontChars (d.mem_frontChars_of_mem_pointed h)
      · rcases List.mem_cons.1 h with rfl | h
        · decide
        · unfold exponentText at h
          rcases List.mem_cons.1 h with rfl | h
          · split <;> decide
          · exact mem_writtenChars_of_mem_map h

/-- Characters of written numbers are their own ASCII form. -/
theorem plain?_eq_some {cs : List Char} (h : ∀ c ∈ cs, c ∈ writtenChars) : plain? cs = some cs := by
  induction cs with
  | nil => rfl
  | cons c cs ih =>
    have hc := (isBlank_plainChar?_of_mem (h c List.mem_cons_self)).2
    have hcs := ih fun b hb => h b (List.mem_cons_of_mem c hb)
    rw [plain?, hc, hcs]
    rfl

/-- The sign is split off a written number. -/
theorem splitSign_toList_toText : splitSign d.toText.toList = (d.negative, d.unsignedChars) := by
  rw [toText, String.toList_ofList]
  cases hnegative : d.negative with
  | true => rfl
  | false =>
    obtain ⟨n, rest, hn, h⟩ := d.unsignedChars_eq_cons
    show splitSign d.unsignedChars = _
    rw [h]
    exact splitSign_cons (digitChar_mem_frontChars hn) rest

/-- **Reading back a written number.** A number within the range of exponents is read from its text
with the same sign, coefficient and exponent. -/
theorem numeral?_toText (h : d.InRange) : numeral? d.toText = some (.number d) := by
  have hchars : ∀ c ∈ d.toText.toList, c ∈ writtenChars := fun _ hc => d.mem_writtenChars hc
  have hstrip : Text.stripChars d.toText.toList = d.toText.toList :=
    Text.stripChars_eq_self fun c hc => (isBlank_plainChar?_of_mem (hchars c hc)).1
  obtain ⟨n, rest, hn, hcons⟩ := d.unsignedChars_eq_cons
  have hword := no_word_cons (digitChar_mem_frontChars hn) rest
  rw [← hcons] at hword
  -- stripping, the ASCII form and the words change nothing, so the digits are read
  unfold numeral?
  rw [hstrip, plain?_eq_some hchars]
  simp only [Option.bind_eq_bind, Option.bind_some, splitSign_toList_toText, hword.1, hword.2,
    digits?_unsignedChars, if_neg Bool.false_ne_true]
  exact if_pos h

/-- A number that is read is within the range of exponents. -/
theorem inRange_of_numeral? {s : String} {d : Decimal} (h : numeral? s = some (.number d)) :
    d.InRange := by
  unfold numeral? at h
  simp only [Option.bind_eq_bind, Option.bind_eq_some_iff] at h
  obtain ⟨cs, -, h⟩ := h
  split at h
  · cases h
  · split at h
    · cases h
    · obtain ⟨e, -, h⟩ := Option.bind_eq_some_iff.1 h
      split at h
      · next he =>
        cases h
        exact he
      · cases h

/-- A written number has no blanks around it. -/
theorem strip_toText : Text.strip d.toText = d.toText := by
  rw [Text.strip, Text.stripChars_eq_self fun c hc =>
    (isBlank_plainChar?_of_mem (d.mem_writtenChars hc)).1, String.ofList_toList]

end Depot.Decimal

namespace Depot.VersionFloor

/-- **A floor is read back from its text** as the same decimal number. -/
theorem parse_toText {d : Decimal} (h : d.InRange) : parse d.toText = .ok d := by
  rw [parse, Decimal.numeral?_toText d h]

/-- A floor that is read is within the range of exponents. -/
theorem inRange_of_parse {s : String} {d : Decimal} (h : parse s = .ok d) : d.InRange := by
  unfold parse at h
  split at h
  · next heq =>
    cases h
    exact Decimal.inRange_of_numeral? heq
  · cases h
  · cases h

end Depot.VersionFloor
