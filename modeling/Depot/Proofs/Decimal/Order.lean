import Depot.Decimal.Basic
/-!
# The order of decimal numbers

Decimal numbers are compared without expanding their powers of ten: by the places of their leading
digits, and only where these agree by their coefficients, brought to a common exponent. This module
shows that the comparison is nevertheless the one of values. A value is given as an integer, the
multiple of a power of ten no greater than that of any number at hand (`Decimal.scaled`), and
`lt_iff_scaled_lt` says that one number is less than another exactly when its multiple is.

So numbers are ordered by value, and different spellings of one value tie. Taking the maximum of
several numbers one after the other gives the *earliest* of the greatest (`IsFirstGreatest`), and it
does not matter how the numbers are grouped on the way (`max_assoc`).
-/

namespace Depot

/-! ### The length of a number -/

namespace Text

/-- A number lies below the power of ten of its length. -/
theorem lt_ten_pow_length_digitsOf (n : Nat) : n < Nat.pow 10 (digitsOf n).length := by
  -- the digits are those of the number without its last one, and that one
  induction n using Nat.strongRecOn with
  | _ n ih =>
    rw [digitsOf]
    split
    · next h =>
      rw [List.length_singleton]
      exact h
    · next h =>
      have hdiv := ih (n / 10) (by omega)
      rw [List.length_append, List.length_singleton]
      change n < Nat.pow 10 _ * 10
      omega

/-- A number other than zero reaches the power of ten of its leading digit. -/
theorem ten_pow_length_digitsOf_le {n : Nat} (hn : n ≠ 0) :
    Nat.pow 10 ((digitsOf n).length - 1) ≤ n := by
  induction n using Nat.strongRecOn with
  | _ n ih =>
    rw [digitsOf]
    split
    · next h =>
      rw [List.length_singleton]
      exact Nat.one_le_iff_ne_zero.2 hn
    · next h =>
      -- one digit less for one division more
      have hdiv := ih (n / 10) (by omega) (by omega)
      have hpos : 0 < (digitsOf (n / 10)).length := List.length_pos_iff.2 (digitsOf_ne_nil _)
      obtain ⟨k, hk⟩ : ∃ k, (digitsOf (n / 10)).length = k + 1 :=
        ⟨_, (Nat.sub_add_cancel hpos).symm⟩
      rw [hk, Nat.add_sub_cancel] at hdiv
      rw [List.length_append, List.length_singleton, Nat.add_sub_cancel, hk]
      change Nat.pow 10 k * 10 ≤ n
      omega

/-- A number has no more than so many digits exactly if it lies below that power of ten. -/
theorem length_digitsOf_le_iff {n m : Nat} (hm : m ≠ 0) :
    (digitsOf n).length ≤ m ↔ n < Nat.pow 10 m := by
  constructor
  · intro h
    exact Nat.lt_of_lt_of_le (lt_ten_pow_length_digitsOf n) (Nat.pow_le_pow_right (by decide) h)
  · intro h
    by_cases hn : n = 0
    · rw [hn, digitsOf, if_pos (by decide)]
      exact Nat.one_le_iff_ne_zero.2 hm
    · refine Nat.le_of_not_lt fun hlong => Nat.not_le.2 h ?_
      have hpow : Nat.pow 10 m ≤ Nat.pow 10 ((digitsOf n).length - 1) :=
        Nat.pow_le_pow_right (by decide) (Nat.le_sub_one_of_lt hlong)
      exact Nat.le_trans hpow (ten_pow_length_digitsOf_le hn)

end Text

namespace Decimal

/-! ### Values as multiples of a power of ten -/

/-- The magnitude of a number as a multiple of the `e`-th power of ten, which must divide it. -/
def magnitude (e : Int) (d : Decimal) : Nat := d.coefficient * Nat.pow 10 (d.exponent - e).toNat

/-- The value of a number as a multiple of the `e`-th power of ten. -/
def scaled (e : Int) (d : Decimal) : Int :=
  if d.negative then -(d.magnitude e : Int) else d.magnitude e

variable {a b c : Decimal} {e : Int}

/-- A number is zero exactly when its coefficient is. -/
theorem magnitude_pos_iff : 0 < a.magnitude e ↔ a.coefficient ≠ 0 := by
  unfold magnitude
  rw [Nat.pow_eq, Nat.mul_pos_iff_of_pos_right (Nat.pow_pos (by decide))]
  exact Nat.pos_iff_ne_zero

/-- The magnitude lies below the power of ten after its leading digit. -/
theorem magnitude_lt (he : e ≤ a.exponent) :
    a.magnitude e < Nat.pow 10 (a.adjusted + 1 - e).toNat := by
  have hlength : 0 < a.digits.length := List.length_pos_iff.2 (Text.digitsOf_ne_nil _)
  have hexponent : (a.adjusted + 1 - e).toNat = a.digits.length + (a.exponent - e).toNat := by
    unfold adjusted
    omega
  unfold magnitude
  rw [hexponent, Nat.pow_eq (n := _ + _), Nat.pow_add]
  exact Nat.mul_lt_mul_of_pos_right (Text.lt_ten_pow_length_digitsOf _) (Nat.pow_pos (by decide))

/-- The magnitude of a number other than zero reaches the power of ten of its leading digit. -/
theorem le_magnitude (ha : a.coefficient ≠ 0) (he : e ≤ a.exponent) :
    Nat.pow 10 (a.adjusted - e).toNat ≤ a.magnitude e := by
  have hexponent : (a.adjusted - e).toNat = a.digits.length - 1 + (a.exponent - e).toNat := by
    unfold adjusted
    omega
  unfold magnitude
  rw [hexponent, Nat.pow_eq (n := _ + _), Nat.pow_add]
  exact Nat.mul_le_mul_right _ (Text.ten_pow_length_digitsOf_le ha)

/-- A number whose leading digit stands at a lesser place has the lesser magnitude. -/
theorem magnitude_lt_of_adjusted_lt (hb : b.coefficient ≠ 0) (hae : e ≤ a.exponent)
    (hbe : e ≤ b.exponent) (h : a.adjusted < b.adjusted) : a.magnitude e < b.magnitude e := by
  calc a.magnitude e < Nat.pow 10 (a.adjusted + 1 - e).toNat := magnitude_lt hae
    _ ≤ Nat.pow 10 (b.adjusted - e).toNat := Nat.pow_le_pow_right (by decide) (by omega)
    _ ≤ b.magnitude e := le_magnitude hb hbe

/-- Comparing magnitudes by leading places and aligned coefficients is comparing their multiples. -/
theorem magnitudeLt_iff (ha : a.coefficient ≠ 0) (hb : b.coefficient ≠ 0) (hae : e ≤ a.exponent)
    (hbe : e ≤ b.exponent) : magnitudeLt a b = true ↔ a.magnitude e < b.magnitude e := by
  unfold magnitudeLt
  split
  · -- aligned at the lesser exponent, which is as far from `e` for both
    have hsplit : ∀ {x y : Decimal}, e ≤ x.exponent → e ≤ y.exponent →
        x.magnitude e = x.coefficient * Nat.pow 10 (x.exponent - y.exponent).toNat *
          Nat.pow 10 (min x.exponent y.exponent - e).toNat := by
      intro x y hx hy
      have hexponent : (x.exponent - e).toNat = (x.exponent - y.exponent).toNat +
          (min x.exponent y.exponent - e).toNat := by omega
      rw [magnitude, hexponent, Nat.pow_eq (n := _ + _), Nat.pow_add, Nat.mul_assoc]
      rfl
    have hpos : 0 < Nat.pow 10 (min a.exponent b.exponent - e).toNat := Nat.pow_pos (by decide)
    rw [decide_eq_true_iff, hsplit hae hbe, hsplit hbe hae, Int.min_comm b.exponent]
    exact (Nat.mul_lt_mul_right hpos).symm
  · next hne =>
    rw [decide_eq_true_iff]
    constructor
    · exact magnitude_lt_of_adjusted_lt hb hae hbe
    · -- the places differ, and if that of `b` was the lesser one, so would be its magnitude
      intro h
      have hnot : ¬ b.adjusted < a.adjusted :=
        fun hlt => Nat.lt_asymm h (magnitude_lt_of_adjusted_lt ha hbe hae hlt)
      omega

/-- **Numbers are compared by value.** -/
theorem lt_iff_scaled_lt (hae : e ≤ a.exponent) (hbe : e ≤ b.exponent) :
    lt a b = true ↔ a.scaled e < b.scaled e := by
  have hzero : ∀ {d : Decimal}, d.coefficient = 0 → d.magnitude e = 0 := by
    intro d hd
    rw [magnitude, hd, Nat.zero_mul]
  unfold lt scaled
  -- zeros have no sign that counts; of the others signs decide first, then magnitudes
  split
  · -- `a` is zero: it is less exactly if `b` is positive
    next ha =>
    rw [hzero ha, Bool.and_eq_true, bne_iff_ne, ← magnitude_pos_iff (e := e), Bool.not_eq_true']
    cases a.negative <;> cases b.negative <;> simp
  · next ha =>
    have hapos := magnitude_pos_iff (e := e).2 ha
    split
    · -- `b` is zero: `a` is less exactly if it is negative
      next hb =>
      rw [hzero hb]
      cases a.negative <;> cases b.negative <;> simp <;> omega
    · -- neither is zero: equal signs compare the magnitudes, in their order or against it
      next hb =>
      have hbpos := magnitude_pos_iff (e := e).2 hb
      have hab := magnitudeLt_iff ha hb hae hbe
      have hba := magnitudeLt_iff hb ha hbe hae
      cases a.negative with
      | false =>
        cases b.negative with
        | false => simp [hab]
        | true => simp
      | true =>
        cases b.negative with
        | false =>
          simp only [Bool.false_eq_true, if_false, if_true]
          exact iff_of_true trivial (by omega)
        | true => simp [hba]

/-! ### Maxima -/

/-- A power of ten that divides three numbers. -/
theorem exists_common_exponent (a b c : Decimal) :
    ∃ e, e ≤ a.exponent ∧ e ≤ b.exponent ∧ e ≤ c.exponent :=
  ⟨min a.exponent (min b.exponent c.exponent), by omega, by omega, by omega⟩

theorem lt_trans (hab : lt a b = true) (hbc : lt b c = true) : lt a c = true := by
  obtain ⟨e, ha, hb, hc⟩ := exists_common_exponent a b c
  rw [lt_iff_scaled_lt ha hb] at hab
  rw [lt_iff_scaled_lt hb hc] at hbc
  rw [lt_iff_scaled_lt ha hc]
  exact Int.lt_trans hab hbc

/-- What is no greater than a number is less than all that are greater than it. -/
theorem lt_of_not_lt_of_lt (hba : lt b a = false) (hbc : lt b c = true) : lt a c = true := by
  obtain ⟨e, ha, hb, hc⟩ := exists_common_exponent a b c
  rw [← Bool.not_eq_true, lt_iff_scaled_lt hb ha] at hba
  rw [lt_iff_scaled_lt hb hc] at hbc
  rw [lt_iff_scaled_lt ha hc]
  omega

/-- What is not less than a number is not less than what is no greater. -/
theorem not_lt_trans (hab : lt a b = false) (hbc : lt b c = false) : lt a c = false := by
  obtain ⟨e, ha, hb, hc⟩ := exists_common_exponent a b c
  rw [← Bool.not_eq_true, lt_iff_scaled_lt ha hb] at hab
  rw [← Bool.not_eq_true, lt_iff_scaled_lt hb hc] at hbc
  rw [← Bool.not_eq_true, lt_iff_scaled_lt ha hc]
  omega

/-- Of three numbers the same one is the greatest, however they are grouped; of those that tie, the
first. -/
theorem max_assoc (a b c : Decimal) : max a (max b c) = max (max a b) c := by
  unfold max
  cases hab : lt a b with
  | true =>
    rw [if_pos rfl]
    cases hbc : lt b c with
    | true => rw [if_pos rfl, lt_trans hab hbc, if_pos rfl]
    | false => rw [if_neg Bool.false_ne_true, hab, if_pos rfl]
  | false =>
    rw [if_neg Bool.false_ne_true]
    cases hbc : lt b c with
    | true => rw [if_pos rfl]
    | false =>
      rw [if_neg Bool.false_ne_true, hab, not_lt_trans hab hbc]
      rfl

/-- The first of the greatest numbers of a list: those before it are less, and none after it is
greater. A list without numbers has none. -/
def IsFirstGreatest (ds : List Decimal) : Option Decimal → Prop
  | none => ds = []
  | some d => ∃ before after, ds = before ++ d :: after ∧ (∀ x ∈ before, lt x d = true) ∧
      ∀ x ∈ after, lt d x = false

/-- One more number at the end, which counts only where it is greater. -/
theorem IsFirstGreatest.concat {ds : List Decimal} {current : Option Decimal}
    (h : IsFirstGreatest ds current) (d : Decimal) :
    IsFirstGreatest (ds ++ [d]) (maxOption current d) := by
  cases current with
  | none =>
    cases h
    exact ⟨[], [], rfl, fun _ hx => (nomatch hx), fun _ hx => (nomatch hx)⟩
  | some c =>
    obtain ⟨before, after, rfl, hbefore, hafter⟩ := h
    show IsFirstGreatest _ (some (max c d))
    unfold max
    cases hcd : lt c d with
    | true =>
      -- the new number is greater than the greatest, so all others are less
      rw [if_pos rfl]
      refine ⟨before ++ c :: after, [], rfl, fun x hx => ?_, fun _ hx => nomatch hx⟩
      rcases List.mem_append.1 hx with hx | hx
      · exact lt_trans (hbefore x hx) hcd
      · rcases List.mem_cons.1 hx with rfl | hx
        · exact hcd
        · exact lt_of_not_lt_of_lt (hafter x hx) hcd
    | false =>
      -- the new number is not greater, so it joins those after the greatest
      rw [if_neg Bool.false_ne_true]
      refine ⟨before, after ++ [d], by rw [List.append_assoc, List.cons_append], hbefore,
        fun x hx => ?_⟩
      rcases List.mem_append.1 hx with hx | hx
      · exact hafter x hx
      · rw [List.mem_singleton.1 hx]
        exact hcd

/-- **The maximum of a list** that is taken one number after the other is the first of the
greatest. -/
theorem isFirstGreatest_foldl (ds : List Decimal) :
    IsFirstGreatest ds (ds.foldl maxOption none) := by
  -- on the numbers that are left, for all that were taken before
  have h : ∀ (more ds : List Decimal) (current : Option Decimal), IsFirstGreatest ds current →
      IsFirstGreatest (ds ++ more) (more.foldl maxOption current) := by
    intro more
    induction more with
    | nil =>
      intro ds current hds
      rwa [List.append_nil]
    | cons d more ih =>
      intro ds current hds
      rw [List.foldl_cons, ← List.singleton_append, ← List.append_assoc]
      exact ih (ds ++ [d]) (maxOption current d) (hds.concat d)
  exact h ds [] none rfl

example : lt ⟨false, 18, -1⟩ ⟨false, 180, -2⟩ = false := by decide +kernel

end Decimal

end Depot
