import Depot.Json.Reader
import Depot.Json.Writer
/-!
# Numbers in JSON

A written number is read back, whatever comes after it that could not belong to it: an integer as
itself, if it has not too many digits (`scalar?_decimalInt`), and a floating point number as some
floating point number, since a point or an exponent is always written (`exists_scalar?_toText`).

Both have their digits before the point first (`IsWhole`), and then a tail that starts neither with
a digit nor with a point (`IsTail`), in which there is an exponent or nothing.
-/

namespace Depot.Json

open Text (asciiDigit? asciiDigit?_digitChar digitChar digitsOf NoDigitAhead ofDigits
  splitDigits splitDigits_map_append)

/-! ### Digits -/

/-- Nothing that could go on with a number stands at the front of the text. -/
def NoNumberAhead (cs : List Char) : Prop :=
  ∀ c ∈ cs.head?, asciiDigit? c = none ∧ c ∉ ['.', 'e', 'E']

theorem NoNumberAhead.noDigitAhead {cs : List Char} (h : NoNumberAhead cs) : NoDigitAhead cs :=
  fun c hc => (h c hc).1

theorem NoNumberAhead.nil : NoNumberAhead [] := fun _ hc => nomatch hc

/-- Digits that may stand before the point. -/
structure IsWhole (ds : List Nat) : Prop where
  ne_nil : ds ≠ []
  lt_ten : ∀ d ∈ ds, d < 10
  eq_zero : ds.head? = some 0 → ds = [0]

/-- The digits before the point are split off. -/
theorem wholePart_map_append {ds : List Nat} (hds : IsWhole ds) {rest : List Char}
    (hrest : NoDigitAhead rest) : wholePart (ds.map digitChar ++ rest) = (ds, rest) := by
  obtain ⟨d, more, rfl⟩ := List.exists_cons_of_ne_nil hds.ne_nil
  by_cases hd : d = 0
  · subst hd
    obtain rfl := (List.cons.inj (hds.eq_zero rfl)).2
    rfl
  · -- a digit other than zero does not stand alone
    have hne : digitChar d ≠ '0' := by
      have hall : ∀ d < 10, d ≠ 0 → digitChar d ≠ '0' := by decide
      exact hall d (hds.lt_ten d List.mem_cons_self) hd
    rw [← splitDigits_map_append hds.lt_ten hrest, List.map_cons, List.cons_append]
    unfold wholePart
    split
    · next heq => exact absurd (List.cons.inj heq).1 hne
    · rfl

/-- A number other than zero starts with a digit other than zero. -/
theorem exists_digitsOf_eq_cons {n : Nat} (hn : n ≠ 0) :
    ∃ d ds, digitsOf n = d :: ds ∧ d ≠ 0 := by
  induction n using Nat.strongRecOn with
  | _ n ih =>
    rw [digitsOf]
    split
    · exact ⟨n, [], rfl, hn⟩
    · obtain ⟨d, ds, hds, hd⟩ := ih (n / 10) (by omega) (by omega)
      exact ⟨d, ds ++ [n % 10], by rw [hds]; rfl, hd⟩

theorem isWhole_digitsOf (n : Nat) : IsWhole (digitsOf n) where
  ne_nil := Text.digitsOf_ne_nil n
  lt_ten _ := Text.lt_of_mem_digitsOf
  eq_zero h := by
    by_cases hn : n = 0
    · subst hn
      rw [digitsOf]
      rfl
    · obtain ⟨d, ds, hds, hd⟩ := exists_digitsOf_eq_cons hn
      rw [hds] at h
      exact absurd (Option.some.inj h) hd

/-! ### Tails -/

/-- What may follow the digits and the point of a number: an exponent or nothing, and then the
rest. -/
structure IsTail (tail : List Char) (exp? : Option Int) (rest : List Char) : Prop where
  noDigitAhead : NoDigitAhead tail
  head?_ne_point : tail.head? ≠ some '.'
  exponent_eq : exponent tail = (exp?, rest)

/-- What does not belong to the number is a tail without an exponent. -/
theorem IsTail.rest {rest : List Char} (h : NoNumberAhead rest) : IsTail rest none rest where
  noDigitAhead := h.noDigitAhead
  head?_ne_point hpoint := absurd (h '.' hpoint).2 (by decide)
  exponent_eq := by
    cases rest with
    | nil => rfl
    | cons c rest =>
      have hc := (h c rfl).2
      simp only [List.mem_cons, List.not_mem_nil, or_false, not_or] at hc
      simp only [exponent, hc.2.1, hc.2.2, or_self, if_false]

/-- An exponent with its sign is a tail. -/
theorem IsTail.exponentText {ds : List Nat} (hne : ds ≠ []) (hds : ∀ d ∈ ds, d < 10)
    (negative : Bool) {rest : List Char} (h : NoNumberAhead rest) :
    IsTail ('e' :: (if negative then '-' else '+') :: (ds.map digitChar ++ rest))
      (some (if negative then -(ofDigits ds : Int) else ofDigits ds)) rest where
  noDigitAhead c hc := by
    obtain rfl := Option.some.inj hc
    decide
  head?_ne_point hpoint := absurd (Option.some.inj hpoint) (by decide)
  exponent_eq := by
    obtain ⟨d, ds, rfl⟩ := List.exists_cons_of_ne_nil hne
    have hspan := splitDigits_map_append hds h.noDigitAhead
    rw [List.map_cons, List.cons_append] at hspan
    cases negative with
    | false => simp [exponent, Text.splitSign, hspan]
    | true => simp [exponent, Text.splitSign, hspan]

/-- The digits behind the point, with it; none where there are none. -/
def fractionText : List Nat → List Char
  | [] => []
  | d :: ds => '.' :: (d :: ds).map digitChar

/-- The digits behind the point are split off. -/
theorem fraction_fractionText {ds : List Nat} (hds : ∀ d ∈ ds, d < 10) {tail rest : List Char}
    {exp? : Option Int} (htail : IsTail tail exp? rest) :
    fraction (fractionText ds ++ tail) = (if ds = [] then none else some ds, tail) := by
  cases ds with
  | nil =>
    rw [fractionText, List.nil_append, if_pos rfl, fraction.eq_def]
    split
    · exact absurd rfl htail.head?_ne_point
    · rfl
  | cons d ds =>
    have hspan := splitDigits_map_append hds htail.noDigitAhead
    rw [fractionText, List.cons_append, fraction, hspan, if_neg (List.cons_ne_nil d ds)]

theorem noDigitAhead_fractionText {ds : List Nat} {tail rest : List Char} {exp? : Option Int}
    (htail : IsTail tail exp? rest) : NoDigitAhead (fractionText ds ++ tail) := by
  cases ds with
  | nil => exact htail.noDigitAhead
  | cons d ds =>
    rintro c ⟨⟩
    decide

/-! ### Numbers -/

/-- Digits alone are an integer. -/
theorem number?_int {ds : List Nat} (hds : IsWhole ds) (hlength : ds.length ≤ maxDigits)
    {rest : List Char} (hrest : NoNumberAhead rest) (negative : Bool) :
    number? negative (ds.map digitChar ++ rest) =
      some (.int (if negative then -(ofDigits ds : Int) else ofDigits ds), rest) := by
  have htail := IsTail.rest hrest
  have hnone : ∀ d ∈ ([] : List Nat), d < 10 := fun _ hd => nomatch hd
  have hfraction : fraction rest = (none, rest) := fraction_fractionText hnone htail
  have hempty : ds.isEmpty = false := List.isEmpty_eq_false_iff.2 hds.ne_nil
  unfold number?
  simp only [wholePart_map_append hds hrest.noDigitAhead, hempty, Bool.false_eq_true, if_false,
    hfraction, htail.exponent_eq, Nat.not_lt.2 hlength]

/-- With a fraction or an exponent it is a floating point number. -/
theorem number?_float {whole ds : List Nat} (hwhole : IsWhole whole) (hds : ∀ d ∈ ds, d < 10)
    {exp? : Option Int} (hsome : ds ≠ [] ∨ exp?.isSome) {tail rest : List Char}
    (htail : IsTail tail exp? rest) (negative : Bool) :
    number? negative (whole.map digitChar ++ (fractionText ds ++ tail)) =
      some (.float (Binary64.ofDecimal negative (ofDigits (whole ++ ds))
        (exp?.getD 0 - (ds.length : Nat))), rest) := by
  have hempty : whole.isEmpty = false := List.isEmpty_eq_false_iff.2 hwhole.ne_nil
  unfold number?
  simp only [wholePart_map_append hwhole (noDigitAhead_fractionText htail), hempty,
    Bool.false_eq_true, if_false, fraction_fractionText hds htail, htail.exponent_eq]
  -- a fraction or an exponent makes it a float
  by_cases hnil : ds = []
  · subst hnil
    cases exp? with
    | none => simp at hsome
    | some e => rfl
  · rw [if_neg hnil]
    rfl

/-- A text that starts with a digit is a number. -/
theorem scalar?_of_asciiDigit? {c : Char} {d : Nat} (hc : asciiDigit? c = some d)
    (cs : List Char) :
    scalar? (c :: cs) = number? false (c :: cs) ∧
      scalar? ('-' :: c :: cs) = number? true (c :: cs) := by
  -- no word starts with a digit
  have hword : ∀ (w : Char) (word : String), asciiDigit? w = none → word.toList.head? = some w →
      dropWord? word (c :: cs) = none := by
    intro w word hw hhead
    obtain ⟨more, hmore⟩ := List.head?_eq_some_iff.1 hhead
    have hne : w ≠ c := by
      rintro rfl
      rw [hc] at hw
      cases hw
    simp [dropWord?, hmore, hne]
  have hnull := hword 'n' "null" rfl rfl
  have htrue := hword 't' "true" rfl rfl
  have hfalse := hword 'f' "false" rfl rfl
  have hnan := hword 'N' "NaN" rfl rfl
  have hinfinity := hword 'I' "Infinity" rfl rfl
  constructor
  · have hminus : c ≠ '-' := by
      rintro rfl
      cases hc
    unfold scalar?
    split
    · next heq => exact absurd (List.cons.inj heq).1 hminus
    · simp only [List.findSome?, hnull, htrue, hfalse, hnan, hinfinity, Option.map_none]
  · simp only [scalar?, hinfinity]

/-- Digits are a text that starts with a digit. -/
theorem exists_map_digitChar_eq {ds : List Nat} (hds : IsWhole ds) (rest : List Char) :
    ∃ c d cs, asciiDigit? c = some d ∧ ds.map digitChar ++ rest = c :: cs := by
  obtain ⟨d, more, rfl⟩ := List.exists_cons_of_ne_nil hds.ne_nil
  exact ⟨digitChar d, d, more.map digitChar ++ rest,
    asciiDigit?_digitChar (hds.lt_ten d List.mem_cons_self), rfl⟩

/-- **Integers** are read as they were written. -/
theorem scalar?_decimalInt {n : Int} (hn : (digitsOf n.natAbs).length ≤ maxDigits)
    {rest : List Char} (hrest : NoNumberAhead rest) :
    scalar? ((Text.decimalInt n).toList ++ rest) = some (.int n, rest) := by
  have hnumber := number?_int (isWhole_digitsOf n.natAbs) hn hrest
  obtain ⟨c, d, cs, hc, htext⟩ := exists_map_digitChar_eq (isWhole_digitsOf n.natAbs) rest
  obtain ⟨hplain, hminus⟩ := scalar?_of_asciiDigit? hc cs
  rw [Text.ofDigits_digitsOf] at hnumber
  -- a sign is read before the digits are
  cases n with
  | ofNat n =>
    have htoList : (Text.decimalInt (.ofNat n)).toList = (digitsOf n).map digitChar :=
      String.toList_ofList
    have habs : (Int.ofNat n).natAbs = n := rfl
    rw [habs] at htext hnumber
    rw [htoList, htext, hplain, ← htext, hnumber false]
    rfl
  | negSucc n =>
    have htoList : (Text.decimalInt (.negSucc n)).toList =
        '-' :: (digitsOf (n + 1)).map digitChar :=
      String.toList_append.trans (congrArg ('-' :: ·) String.toList_ofList)
    have habs : (Int.negSucc n).natAbs = n + 1 := rfl
    rw [habs] at htext hnumber
    rw [htoList, List.cons_append, htext, hminus, ← htext, hnumber true]
    rfl

/-! ### Floating point numbers -/

/-- The text is read as digits with a fraction or an exponent, whatever comes after it. -/
def IsFloatText (cs : List Char) : Prop :=
  ∃ whole ds exp?, IsWhole whole ∧ (∀ d ∈ ds, d < 10) ∧ (ds ≠ [] ∨ exp?.isSome) ∧
    ∀ rest, NoNumberAhead rest → ∃ tail, IsTail tail exp? rest ∧
      cs ++ rest = whole.map digitChar ++ (fractionText ds ++ tail)

/-- Digits with a point among them. -/
theorem IsFloatText.pointed {whole ds : List Nat} (hwhole : IsWhole whole) (hne : ds ≠ [])
    (hds : ∀ d ∈ ds, d < 10) : IsFloatText (whole.map digitChar ++ '.' :: ds.map digitChar) := by
  refine ⟨whole, ds, none, hwhole, hds, .inl hne, fun rest hrest => ⟨rest, .rest hrest, ?_⟩⟩
  obtain ⟨d, more, rfl⟩ := List.exists_cons_of_ne_nil hne
  rw [List.append_assoc]
  rfl

/-- Digits with an exponent, and with a point if there is more than one. -/
theorem IsFloatText.scientific {whole ds exponent : List Nat} (hwhole : IsWhole whole)
    (hds : ∀ d ∈ ds, d < 10) (hne : exponent ≠ []) (hexponent : ∀ d ∈ exponent, d < 10)
    (negative : Bool) : IsFloatText (whole.map digitChar ++ (fractionText ds ++
      'e' :: (if negative then '-' else '+') :: exponent.map digitChar)) := by
  refine ⟨whole, ds, _, hwhole, hds, .inr rfl, fun rest hrest =>
    ⟨_, .exponentText hne hexponent negative hrest, ?_⟩⟩
  simp only [List.append_assoc, List.cons_append]

/-- Zeros at the end are dropped behind the first digit that is not zero. -/
theorem dropTrailingZeros_cons {d : Nat} (hd : d ≠ 0) (ds : List Nat) :
    Binary64.dropTrailingZeros (d :: ds) = d :: Binary64.dropTrailingZeros ds := by
  have hstop : (List.dropWhile (· == 0) [d]) = [d] := by simp [hd]
  unfold Binary64.dropTrailingZeros
  rw [List.reverse_cons, List.dropWhile_append, hstop]
  split
  · next h => rw [List.isEmpty_iff.1 h]; rfl
  · rw [List.reverse_append]; rfl

theorem mem_of_mem_dropTrailingZeros {d : Nat} {ds : List Nat}
    (h : d ∈ Binary64.dropTrailingZeros ds) : d ∈ ds :=
  List.mem_reverse.1 ((List.dropWhile_suffix _).subset (List.mem_reverse.1 h))

/-- What rounds to a number other than zero is not zero. -/
theorem ne_zero_of_contains {m : Nat} (hm : m ≠ 0) {q : Int} {coefficient : Nat} {place : Int}
    (h : (Binary64.rounding m q).contains coefficient place = true) : coefficient ≠ 0 := by
  rintro rfl
  have hpow : ∀ n, 0 < Nat.pow 10 n := fun n => Nat.pow_pos (by decide)
  have hscale : 0 < Nat.pow 2 (q - 2).toNat := Nat.pow_pos (by decide)
  have hleast : 0 < (Binary64.rounding m q).least := by
    refine Nat.mul_pos ?_ hscale
    split <;> omega
  have hlow := Nat.mul_pos hleast (hpow (-place).toNat)
  simp only [Binary64.Rounding.contains, Binary64.aligned, Nat.zero_mul] at h
  split at h <;> simp only [decide_eq_true_eq] at h <;> omega

/-- The digits that are written of a number other than zero do not stand for zero, unless they are
the integer zero. -/
theorem shortest_cases {m : Nat} (hm : m ≠ 0) (q : Int) :
    (Binary64.shortest m q).1 ≠ 0 ∨ Binary64.shortest m q = (0, 0) := by
  -- the number is not zero, so on no grid is its coefficient
  have hgrid : ∀ {n coefficient place}, (Binary64.rounding m q).onGrid? n =
      some (coefficient, place) → coefficient ≠ 0 := by
    intro n coefficient place h
    simp only [Binary64.Rounding.onGrid?] at h
    split at h
    · next hdown hup =>
      split at h
      · cases h
        exact ne_zero_of_contains hm hdown
      · cases h
        exact ne_zero_of_contains hm hup
    · next hdown _ =>
      cases h
      exact ne_zero_of_contains hm hdown
    · next _ hup =>
      cases h
      exact ne_zero_of_contains hm hup
    · cases h
  simp only [Binary64.shortest]
  -- some grid has a coefficient; otherwise the number is cut to an integer, which may be zero
  cases hfind : (List.range 17).findSome? fun n => (Binary64.rounding m q).onGrid? (n + 1) with
  | some r =>
    obtain ⟨n, -, hn⟩ := List.exists_of_findSome?_eq_some hfind
    rw [Option.getD_some]
    exact .inl (hgrid hn)
  | none =>
    rw [Option.getD_none]
    by_cases hzero : (Binary64.rounding m q).value / (Binary64.rounding m q).den = 0
    · exact .inr (by rw [hzero])
    · exact .inl hzero

/-- Digits with a first one that is not zero. -/
structure IsLeading (ds : List Nat) : Prop where
  ne_nil : ds ≠ []
  lt_ten : ∀ d ∈ ds, d < 10
  head?_ne_zero : ds.head? ≠ some 0

/-- Any such digits may stand before the point, and so may those that start with them. -/
theorem IsLeading.isWhole_append {ds : List Nat} (h : IsLeading ds) {more : List Nat}
    (hmore : ∀ d ∈ more, d < 10) : IsWhole (ds ++ more) where
  ne_nil := List.append_ne_nil_of_left_ne_nil h.ne_nil more
  lt_ten := List.forall_mem_append.2 ⟨h.lt_ten, hmore⟩
  eq_zero hhead := by
    obtain ⟨d, ds, rfl⟩ := List.exists_cons_of_ne_nil h.ne_nil
    exact absurd hhead h.head?_ne_zero

theorem IsLeading.isWhole_take {ds : List Nat} (h : IsLeading ds) {n : Nat} (hn : n ≠ 0) :
    IsWhole (ds.take n) where
  ne_nil hnil := (List.take_eq_nil_iff.1 hnil).elim hn h.ne_nil
  lt_ten d hd := h.lt_ten d (List.mem_of_mem_take hd)
  eq_zero hhead := by
    rw [List.head?_take, if_neg hn] at hhead
    exact absurd hhead h.head?_ne_zero

/-- The digits of a number other than zero, without zeros at the end. -/
theorem isLeading_dropTrailingZeros {n : Nat} (hn : n ≠ 0) :
    IsLeading (Binary64.dropTrailingZeros (digitsOf n)) := by
  obtain ⟨d, ds, hds, hd⟩ := exists_digitsOf_eq_cons hn
  have hcons : Binary64.dropTrailingZeros (digitsOf n) = d :: Binary64.dropTrailingZeros ds := by
    rw [hds, dropTrailingZeros_cons hd]
  refine ⟨?_, fun e he => Text.lt_of_mem_digitsOf (mem_of_mem_dropTrailingZeros he), ?_⟩
  · rw [hcons]
    exact List.cons_ne_nil _ _
  · rw [hcons]
    exact fun hhead => hd (Option.some.inj hhead)

theorem map_digitChar_replicate (n : Nat) :
    (List.replicate n 0).map digitChar = List.replicate n '0' := by
  rw [List.map_replicate]
  rfl

theorem lt_ten_of_mem_replicate {n d : Nat} (h : d ∈ List.replicate n 0) : d < 10 := by
  rw [List.eq_of_mem_replicate h]
  decide

/-- Positional notation has a point. -/
theorem isFloatText_pointedText {ds : List Nat} (hds : IsLeading ds) (places : Int) :
    IsFloatText (Binary64.pointedText ds places) := by
  have hzero : IsWhole [0] := ⟨by decide, by decide, fun _ => rfl⟩
  simp only [Binary64.pointedText, List.length_map]
  split
  · -- zeros before all digits
    have htext := IsFloatText.pointed hzero (List.append_ne_nil_of_right_ne_nil
      (List.replicate (-places).toNat 0) hds.ne_nil)
      (List.forall_mem_append.2 ⟨fun _ => lt_ten_of_mem_replicate, hds.lt_ten⟩)
    rwa [List.map_append, map_digitChar_replicate] at htext
  · split
    · -- zeros behind all digits, up to the point
      have hwhole : IsWhole (ds ++ List.replicate (places.toNat - ds.length) 0) :=
        hds.isWhole_append fun _ => lt_ten_of_mem_replicate
      have htext := IsFloatText.pointed hwhole hzero.ne_nil hzero.lt_ten
      rw [List.map_append, map_digitChar_replicate] at htext
      exact htext
    · -- the point among the digits
      have hdrop : ds.drop places.toNat ≠ [] := by
        rw [ne_eq, List.drop_eq_nil_iff]
        omega
      have htext := IsFloatText.pointed (hds.isWhole_take (n := places.toNat) (by omega)) hdrop
        fun d hd => hds.lt_ten d (List.mem_of_mem_drop hd)
      rw [List.map_take, List.map_drop] at htext
      exact htext

/-- Scientific notation has an exponent. -/
theorem isFloatText_scientificText {ds : List Nat} (hds : IsLeading ds) (exponent : Int) :
    IsFloatText (Binary64.scientificText ds exponent) := by
  -- the exponent is padded with zeros, which are digits as well
  have hpadded : (Text.decimalPadded 2 exponent.natAbs).toList =
      (List.replicate (2 - (digitsOf exponent.natAbs).length) 0 ++ digitsOf exponent.natAbs).map
        digitChar := by
    rw [List.map_append, map_digitChar_replicate, Text.decimalPadded, String.toList_ofList,
      List.length_map]
  have hexponent : ∀ d ∈ List.replicate (2 - (digitsOf exponent.natAbs).length) 0 ++
      digitsOf exponent.natAbs, d < 10 :=
    List.forall_mem_append.2 ⟨fun _ => lt_ten_of_mem_replicate, fun _ => Text.lt_of_mem_digitsOf⟩
  have hbehind : ∀ d ∈ ds.drop 1, d < 10 := fun d hd => hds.lt_ten d (List.mem_of_mem_drop hd)
  have htext := IsFloatText.scientific (hds.isWhole_take Nat.one_ne_zero) hbehind
    (List.append_ne_nil_of_right_ne_nil _ (Text.digitsOf_ne_nil _)) hexponent
    (decide (exponent < 0))
  obtain ⟨d, more, rfl⟩ := List.exists_cons_of_ne_nil hds.ne_nil
  rw [Binary64.scientificText, hpadded]
  simp only [decide_eq_true_eq] at htext
  cases more with
  | nil => exact htext
  | cons e more => exact htext

/-- **Magnitudes** have a point or an exponent. -/
theorem isFloatText_magnitudeText (m : Nat) (q : Int) :
    IsFloatText (Binary64.magnitudeText m q) := by
  have hzero : IsFloatText ([0].map digitChar ++ '.' :: [0].map digitChar) :=
    .pointed ⟨by decide, by decide, fun _ => rfl⟩ (by decide) (by decide)
  unfold Binary64.magnitudeText
  split
  · exact hzero
  · next hm =>
    rcases shortest_cases hm q with hne | heq
    · simp only
      split
      · exact isFloatText_pointedText (isLeading_dropTrailingZeros hne) _
      · exact isFloatText_scientificText (isLeading_dropTrailingZeros hne) _
    · -- no digits are left of a zero
      have hdigits : digitsOf 0 = [0] := by
        rw [digitsOf]
        rfl
      simp only [heq, hdigits]
      exact hzero

/-- **Floating point numbers** are read as such. -/
theorem exists_scalar?_toText (x : Binary64) : ∃ y, ∀ rest, NoNumberAhead rest →
    scalar? ((x.toText floatWords).toList ++ rest) = some (.float y, rest) := by
  cases x with
  | finite negative m q =>
    -- a finite number is written as its sign and the text of its magnitude
    obtain ⟨whole, ds, exp?, hwhole, hds, hsome, htext⟩ := isFloatText_magnitudeText m q
    refine ⟨.ofDecimal negative (ofDigits (whole ++ ds)) (exp?.getD 0 - (ds.length : Nat)),
      fun rest hrest => ?_⟩
    obtain ⟨tail, htail, heq⟩ := htext rest hrest
    have hnumber := number?_float hwhole hds hsome htail negative
    obtain ⟨c, d, cs, hc, hcons⟩ := exists_map_digitChar_eq hwhole (fractionText ds ++ tail)
    obtain ⟨hplain, hminus⟩ := scalar?_of_asciiDigit? hc cs
    rw [← heq] at hnumber hcons
    have htoList : (Binary64.toText floatWords (.finite negative m q)).toList ++ rest =
        (if negative then ['-'] else []) ++ (Binary64.magnitudeText m q ++ rest) := by
      rw [Binary64.toText, String.toList_ofList, List.append_assoc]
    rw [htoList, hcons]
    rw [hcons] at hnumber
    cases negative with
    | false => exact hplain.trans hnumber
    | true => exact hminus.trans hnumber
  | infinite negative =>
    refine ⟨.infinite negative, fun rest _ => ?_⟩
    cases negative <;> rfl
  | notANumber => exact ⟨.notANumber, fun rest _ => rfl⟩

end Depot.Json
