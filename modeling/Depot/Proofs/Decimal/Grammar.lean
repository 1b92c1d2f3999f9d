import Depot.Proofs.Decimal.ReadBack
import Depot.Proofs.Outcome
/-!
# The grammar of decimal numbers

`Spells` says which ASCII texts spell which decimal number, one rule a part: a sign or none, digits
with at most one point among them and at least one digit, and an exponent or none. A numeral is such
a text with blanks around it, underscores anywhere, and digits of any script; it denotes a number if
that is within the range of exponents (`IsNumeral`).

The readers are compared with the rules part by part. Reading digits takes as many as there are, so
it agrees with the rules because no part starts with what the part before it may end with: an
exponent starts with its letter, and a number without its sign with a digit or the point. The latter
also tells numbers from the words for infinity and for "not a number". So a text is read as a number
exactly if the rules say so (`numeral?_eq_some_iff`), and the same texts are the version floors.
-/

namespace Depot.Decimal

open Text (asciiDigit? digitChar NoDigitAhead ofDigits splitDigits splitDigits_map
  splitDigits_map_append splitSign)

/-! ### The rules -/

/-- The text is a sign or none: a minus, or not. -/
inductive IsSign : List Char → Bool → Prop
  | none : IsSign [] false
  | plus : IsSign ['+'] false
  | minus : IsSign ['-'] true

/-- The text is made of ASCII digits of these values. -/
structure IsDigits (cs : List Char) (ds : List Nat) : Prop where
  eq_map : cs = ds.map digitChar
  lt_ten : ∀ d ∈ ds, d < 10

/-- The text is an exponent or none: its letter, a sign or none, and digits. -/
inductive IsExponent : List Char → Int → Prop
  | none : IsExponent [] 0
  | written {letter : Char} {sign cs : List Char} {negative : Bool} {ds : List Nat}
      (hletter : letter = 'e' ∨ letter = 'E') (hsign : IsSign sign negative)
      (hdigits : IsDigits cs ds) (hne : ds ≠ []) :
      IsExponent (letter :: (sign ++ cs)) (if negative then -(ofDigits ds : Int) else ofDigits ds)

/-- The text is made of digits, in front of a point and behind it, or of digits alone. -/
inductive IsPointed : List Char → List Nat → List Nat → Prop
  | whole {cs : List Char} {whole : List Nat} (h : IsDigits cs whole) : IsPointed cs whole []
  | fraction {cs bs : List Char} {whole fraction : List Nat} (hwhole : IsDigits cs whole)
      (hfraction : IsDigits bs fraction) : IsPointed (cs ++ '.' :: bs) whole fraction

/-- The text spells the number but for its sign. -/
inductive IsUnsigned (negative : Bool) : List Char → Decimal → Prop
  | mk {body tail : List Char} {whole fraction : List Nat} {e : Int}
      (hbody : IsPointed body whole fraction) (hne : whole ++ fraction ≠ [])
      (htail : IsExponent tail e) :
      IsUnsigned negative (body ++ tail)
        ⟨negative, ofDigits (whole ++ fraction), e - (fraction.length : Nat)⟩

/-- The text spells the number in ASCII, with nothing else in it. -/
inductive Spells : List Char → Decimal → Prop
  | mk {sign cs : List Char} {negative : Bool} {d : Decimal} (hsign : IsSign sign negative)
      (h : IsUnsigned negative cs d) : Spells (sign ++ cs) d

/-- The text is a numeral for the number: without the blanks around it, and brought to its ASCII
form, it spells the number, and that is within the range of exponents. -/
structure IsNumeral (s : String) (d : Decimal) : Prop where
  spells : ∃ cs, plain? (Text.stripChars s.toList) = some cs ∧ Spells cs d
  inRange : d.InRange

/-! ### Digits and signs -/

theorem asciiDigit?_eq_some_iff {c : Char} {d : Nat} :
    asciiDigit? c = some d ↔ d < 10 ∧ c = digitChar d := by
  constructor
  · intro h
    unfold asciiDigit? at h
    split at h
    · next hc =>
      have hlow : 48 ≤ c.toNat := hc.1
      have hhigh : c.toNat ≤ 57 := hc.2
      have hd : c.toNat - 48 = d := Option.some.inj h
      have hlt : d < 10 := by omega
      refine ⟨hlt, Char.toNat_inj.1 ?_⟩
      rw [digitChar, Nat.mod_eq_of_lt hlt, Nat.toNat_digitChar_of_lt_ten hlt]
      omega
    · cases h
  · rintro ⟨hd, rfl⟩
    exact Text.asciiDigit?_digitChar hd

/-- Digits are split off exactly up to where none stands. -/
theorem splitDigits_eq_iff {cs rest : List Char} {ds : List Nat} :
    splitDigits cs = (ds, rest) ↔
      ∃ front, IsDigits front ds ∧ NoDigitAhead rest ∧ cs = front ++ rest := by
  constructor
  · intro h
    -- the digits end at the first character that is none
    induction cs generalizing ds with
    | nil =>
      cases h
      exact ⟨[], ⟨rfl, fun _ hd => nomatch hd⟩, (fun _ hb => nomatch hb : NoDigitAhead []), rfl⟩
    | cons c cs ih =>
      rw [splitDigits] at h
      cases hc : asciiDigit? c with
      | none =>
        rw [hc] at h
        cases h
        have hrest : NoDigitAhead (c :: cs) := fun b hb => Option.some.inj hb ▸ hc
        exact ⟨[], ⟨rfl, fun _ hd => nomatch hd⟩, hrest, rfl⟩
      | some d =>
        rw [hc] at h
        cases h
        obtain ⟨hd, rfl⟩ := asciiDigit?_eq_some_iff.1 hc
        obtain ⟨front, hfront, hrest, hcs⟩ := ih rfl
        refine ⟨digitChar d :: front, ⟨?_, List.forall_mem_cons.2 ⟨hd, hfront.lt_ten⟩⟩, hrest, ?_⟩
        · rw [List.map_cons, ← hfront.eq_map]
        · rw [List.cons_append, ← hcs]
  · rintro ⟨front, ⟨rfl, hds⟩, hrest, rfl⟩
    exact splitDigits_map_append hds hrest

/-- Digits, if there are any, start with one. -/
theorem IsDigits.exists_cons {cs : List Char} {ds : List Nat} (h : IsDigits cs ds) (hne : ds ≠ []) :
    ∃ c rest, cs = c :: rest ∧ c ∈ frontChars := by
  obtain ⟨rfl, hds⟩ := h
  cases ds with
  | nil => exact absurd rfl hne
  | cons d ds => exact ⟨digitChar d, _, rfl, digitChar_mem_frontChars (hds d List.mem_cons_self)⟩

/-- A sign is split off what does not start with one itself. -/
theorem splitSign_append {sign cs : List Char} {negative : Bool} (hsign : IsSign sign negative)
    (hcs : ∃ c rest, cs = c :: rest ∧ c ∈ frontChars) :
    splitSign (sign ++ cs) = (negative, cs) := by
  obtain ⟨c, rest, rfl, hc⟩ := hcs
  cases hsign with
  | none => exact splitSign_cons hc rest
  | plus => rfl
  | minus => rfl

/-- What is split off is a sign. -/
theorem exists_of_splitSign {cs rest : List Char} {negative : Bool}
    (h : splitSign cs = (negative, rest)) : ∃ sign, IsSign sign negative ∧ cs = sign ++ rest := by
  rw [Text.splitSign.eq_def] at h
  split at h
  · cases h
    exact ⟨['-'], .minus, rfl⟩
  · cases h
    exact ⟨['+'], .plus, rfl⟩
  · cases h
    exact ⟨[], .none, rfl⟩

/-! ### Exponents -/

/-- **Exponents** are read by the rules. -/
theorem exponent?_eq_some_iff {cs : List Char} {e : Int} :
    exponent? cs = some e ↔ IsExponent cs e := by
  constructor
  · -- no exponent at all, or a letter, a sign and digits up to the end of the text
    intro h
    cases cs with
    | nil =>
      cases h
      exact .none
    | cons letter cs =>
      rw [exponent?] at h
      split at h
      · next hletter =>
        rcases hsplit : splitSign cs with ⟨negative, rest⟩
        rw [hsplit] at h
        obtain ⟨sign, hsign, rfl⟩ := exists_of_splitSign hsplit
        simp only at h
        split at h
        · cases h
        · next ds hne hds =>
          cases h
          obtain ⟨front, hfront, -, hrest⟩ := splitDigits_eq_iff.1 hds
          rw [List.append_nil] at hrest
          exact .written hletter hsign (hrest ▸ hfront) hne
        · cases h
      · cases h
  · rintro (_ | ⟨hletter, hsign, hdigits, hne⟩)
    · rfl
    · next ds =>
      -- the digits do not start like a sign, so exactly the sign that is written splits off
      have hsplit := splitSign_append hsign (hdigits.exists_cons hne)
      obtain ⟨rfl, hds⟩ := hdigits
      cases ds with
      | nil => exact absurd rfl hne
      | cons d ds => exact exponent?_of_splitDigits hletter hsplit (splitDigits_map hds)

/-- An exponent may follow the digits and the point of a number. -/
theorem IsExponent.isTail {cs : List Char} {e : Int} (h : IsExponent cs e) : IsTail cs e := by
  have hread := exponent?_eq_some_iff.2 h
  cases h with
  | none => exact .nil
  | written hletter =>
    refine ⟨fun c hc => ?_, fun hpoint => ?_, hread⟩
    · obtain rfl := Option.some.inj hc
      rcases hletter with rfl | rfl <;> decide
    · obtain rfl := Option.some.inj hpoint
      exact absurd hletter (by decide)

/-! ### Numbers without a sign -/

/-- What is split off at a point is a fraction, and without a point nothing is split off. -/
theorem isPointed_of_splitFraction {front cs rest : List Char} {whole fraction : List Nat}
    (hfront : IsDigits front whole) (h : splitFraction cs = (fraction, rest)) :
    ∃ body, IsPointed body whole fraction ∧ front ++ cs = body ++ rest := by
  rw [splitFraction.eq_def] at h
  split at h
  · obtain ⟨bs, hbs, -, rfl⟩ := splitDigits_eq_iff.1 h
    exact ⟨front ++ '.' :: bs, .fraction hfront hbs, by simp⟩
  · cases h
    exact ⟨front, .whole hfront, rfl⟩

/-- **Numbers without a sign** are read by the rules. -/
theorem digits?_eq_some_iff {negative : Bool} {cs : List Char} {d : Decimal} :
    digits? negative cs = some d ↔ IsUnsigned negative cs d := by
  constructor
  · intro h
    unfold digits? at h
    rcases hwhole : splitDigits cs with ⟨whole, cs'⟩
    rcases hfraction : splitFraction cs' with ⟨fraction, tail⟩
    simp only [hwhole, hfraction] at h
    split at h
    · cases h
    · -- the two runs of digits are the body, what follows them is the exponent
      next hne =>
      obtain ⟨e, he, rfl⟩ := Option.map_eq_some_iff.1 h
      obtain ⟨front, hfront, -, rfl⟩ := splitDigits_eq_iff.1 hwhole
      obtain ⟨body, hbody, hcs⟩ := isPointed_of_splitFraction hfront hfraction
      rw [hcs]
      exact .mk hbody (by simpa using hne) (exponent?_eq_some_iff.1 he)
  · rintro ⟨hbody, hne, htail⟩
    cases hbody with
    | whole hwhole =>
      obtain ⟨rfl, hlt⟩ := hwhole
      rw [List.append_nil] at hne
      rw [digits?_whole hlt hne htail.isTail, List.append_nil, List.length_nil, Int.natCast_zero,
        Int.sub_zero]
    | fraction hwhole hfraction =>
      obtain ⟨rfl, hlt⟩ := hwhole
      obtain ⟨rfl, hlt'⟩ := hfraction
      rw [List.append_assoc, List.cons_append, digits?_fraction hlt hlt' hne htail.isTail]

theorem IsPointed.exists_cons {cs : List Char} {whole fraction : List Nat}
    (h : IsPointed cs whole fraction) (hne : whole ++ fraction ≠ []) :
    ∃ c rest, cs = c :: rest ∧ c ∈ frontChars := by
  cases h with
  | whole hwhole => exact hwhole.exists_cons (by rwa [List.append_nil] at hne)
  | fraction hwhole hfraction =>
    by_cases hempty : whole = []
    · -- the point itself stands in front
      obtain ⟨rfl, -⟩ := hwhole
      subst hempty
      exact ⟨'.', _, rfl, by decide⟩
    · obtain ⟨c, rest, rfl, hc⟩ := hwhole.exists_cons hempty
      exact ⟨c, _, rfl, hc⟩

/-- A number without its sign starts with a digit or the point. -/
theorem IsUnsigned.exists_cons {negative : Bool} {cs : List Char} {d : Decimal}
    (h : IsUnsigned negative cs d) : ∃ c rest, cs = c :: rest ∧ c ∈ frontChars := by
  obtain ⟨hbody, hne, -⟩ := h
  obtain ⟨c, rest, rfl, hc⟩ := hbody.exists_cons hne
  exact ⟨c, rest ++ _, rfl, hc⟩

/-! ### Numerals -/

/-- **Numerals of numbers** are read by the rules. -/
theorem numeral?_eq_some_iff {s : String} {d : Decimal} :
    numeral? s = some (.number d) ↔ IsNumeral s d := by
  constructor
  · intro h
    -- the range is what is checked last
    have hrange := inRange_of_numeral? h
    unfold numeral? at h
    obtain ⟨cs, hcs, h⟩ := Option.bind_eq_some_iff.1 h
    rcases hsplit : splitSign cs with ⟨negative, rest⟩
    simp only [hsplit] at h
    obtain ⟨sign, hsign, rfl⟩ := exists_of_splitSign hsplit
    split at h
    · cases h
    · split at h
      · cases h
      · obtain ⟨e, he, h⟩ := Option.bind_eq_some_iff.1 h
        split at h
        · cases h
          exact ⟨⟨_, hcs, .mk hsign (digits?_eq_some_iff.1 he)⟩, hrange⟩
        · cases h
  · rintro ⟨⟨cs, hcs, hspells⟩, hrange⟩
    obtain ⟨hsign, hunsigned⟩ := hspells
    have hread := digits?_eq_some_iff.2 hunsigned
    have hsplit := splitSign_append hsign hunsigned.exists_cons
    obtain ⟨c, rest, rfl, hc⟩ := hunsigned.exists_cons
    -- a spelling starts with a digit or a point, so it is none of the words
    have hword := no_word_cons hc rest
    unfold numeral?
    rw [hcs]
    simp only [Option.bind_eq_bind, Option.bind_some, hsplit, hword.1, hword.2, hread,
      if_neg Bool.false_ne_true]
    exact if_pos hrange

/-- Blanks around a numeral make no difference. -/
theorem isNumeral_strip_iff {s : String} {d : Decimal} :
    IsNumeral (Text.strip s) d ↔ IsNumeral s d := by
  have hstrip : Text.stripChars (Text.strip s).toList = Text.stripChars s.toList := by
    rw [Text.strip, String.toList_ofList, Text.stripChars_stripChars]
  constructor
  · rintro ⟨⟨cs, hcs, h⟩, hrange⟩
    exact ⟨⟨cs, by rwa [hstrip] at hcs, h⟩, hrange⟩
  · rintro ⟨⟨cs, hcs, h⟩, hrange⟩
    exact ⟨⟨cs, by rwa [hstrip], h⟩, hrange⟩

end Depot.Decimal

/-- **Version floors** are the numerals of numbers; words are none. -/
theorem Depot.VersionFloor.parse_eq_ok_iff {s : String} {d : Decimal} :
    parse s = .ok d ↔ Decimal.IsNumeral s d := by
  rw [← Decimal.numeral?_eq_some_iff, parse]
  split
  · next h => rw [h, Except.ok.injEq, Option.some.injEq, Decimal.Numeral.number.injEq]
  · next hother h =>
    refine iff_of_false error_ne_ok fun hd => ?_
    exact hother d (Option.some.inj (h.symm.trans hd))
  · next h => exact iff_of_false error_ne_ok fun hd => Option.some_ne_none _ (hd.symm.trans h)
