import Depot.Json.Reader
import Depot.Json.Writer
import Mathlib.Data.Bool.AllAny
/-!
# Written JSON is one line

A value is written without control characters, whatever the texts in it, so without line ends
(`isPlain_of_mem_chars`). Control characters stand in texts only, and they are written as a letter
or a code point behind a backslash (`escapeChar_cases`).
-/

namespace Depot.Json

/-- Induction along the items and members of a value. -/
@[elab_as_elim]
theorem induction {P : Json → Prop} (null : P .null) (bool : ∀ b, P (.bool b))
    (int : ∀ n, P (.int n)) (float : ∀ x, P (.float x)) (str : ∀ s, P (.str s))
    (array : ∀ items, (∀ item ∈ items, P item) → P (.array items))
    (object : ∀ members, (∀ member ∈ members, P member.2) → P (.object members)) (j : Json) : P j :=
  Json.rec null bool int float str array object
    (fun _ h => nomatch h) (fun _ _ hitem hitems => List.forall_mem_cons.2 ⟨hitem, hitems⟩)
    (fun _ h => nomatch h) (fun _ _ hmember hmembers => List.forall_mem_cons.2 ⟨hmember, hmembers⟩)
    (fun _ _ h => h) j

/-! ### Texts -/

/-- The character is no control character. -/
def IsPlain (c : Char) : Prop := 0x20 ≤ c.toNat

instance (c : Char) : Decidable (IsPlain c) := inferInstanceAs (Decidable (_ ≤ _))

/-- A line end is a control character. -/
theorem IsPlain.ne_lineEnd {c : Char} (h : IsPlain c) : c ≠ '\n' ∧ c ≠ '\r' := by
  constructor
  · rintro rfl
    exact absurd h (by decide)
  · rintro rfl
    exact absurd h (by decide)

theorem isPlain_digitChar (d : Nat) : IsPlain (Text.digitChar d) := by
  have hall : ∀ d < 10, IsPlain (Nat.digitChar d) := by decide
  exact hall (d % 10) (Nat.mod_lt d (by decide))

theorem isPlain_hexDigit (n : Nat) : IsPlain (Text.hexDigit n) := by
  have hall : ∀ d < 16, IsPlain (Nat.digitChar d) := by decide
  exact hall (n % 16) (Nat.mod_lt n (by decide))

theorem isPlain_of_mem_hexDigits {width n : Nat} {c : Char} (h : c ∈ Text.hexDigits width n) :
    IsPlain c := by
  induction width generalizing n with
  | zero => cases h
  | succ width ih =>
    rcases List.mem_append.1 h with h | h
    · exact ih h
    · obtain rfl := List.mem_singleton.1 h
      exact isPlain_hexDigit n

/-- How a character is written: as a letter behind a backslash, by its code point, or as it is. -/
theorem escapeChar_cases (c : Char) :
    (∃ letter, escapeChar c = ['\\', letter] ∧ letter ∈ ['"', '\\', 'n', 'r', 't', 'b', 'f'] ∧
      escaped? letter = some c) ∨
    (c.toNat < 0x20 ∧ escapeChar c = '\\' :: 'u' :: Text.hexDigits 4 c.toNat) ∨
    (escapeChar c = [c] ∧ IsPlain c ∧ c ≠ '"' ∧ c ≠ '\\') := by
  have hof : ∀ {n}, c.toNat = n → c = Char.ofNat n := by
    rintro n rfl
    exact (Char.ofNat_toNat c).symm
  -- the seven letters for an escape, then the control characters, then all that is left
  unfold escapeChar
  split
  · next h =>
    subst h
    exact .inl ⟨'"', rfl, by decide, rfl⟩
  next hquote =>
  split
  · next h =>
    subst h
    exact .inl ⟨'\\', rfl, by decide, rfl⟩
  next hbackslash =>
  split
  · next h => exact .inl ⟨'n', rfl, by decide, h ▸ rfl⟩
  split
  · next h => exact .inl ⟨'r', rfl, by decide, h ▸ rfl⟩
  split
  · next h => exact .inl ⟨'t', rfl, by decide, h ▸ rfl⟩
  split
  · next h => exact .inl ⟨'b', rfl, by decide, hof h ▸ rfl⟩
  split
  · next h => exact .inl ⟨'f', rfl, by decide, hof h ▸ rfl⟩
  split
  · next h => exact .inr (.inl ⟨h, rfl⟩)
  · next h => exact .inr (.inr ⟨rfl, Nat.not_lt.1 h, hquote, hbackslash⟩)

/-- No control character is left in a text. -/
theorem isPlain_of_mem_stringChars {s : String} {b : Char} (h : b ∈ stringChars s) :
    IsPlain b := by
  simp only [stringChars, List.mem_append, List.mem_cons, List.mem_flatMap, List.not_mem_nil,
    or_false] at h
  -- the quotes at both ends, and each character between them as it is escaped
  rcases h with (rfl | ⟨c, -, h⟩) | rfl
  · decide
  · -- a letter after a backslash, four digits after one, or the character itself
    rcases escapeChar_cases c with ⟨letter, heq, hletter, -⟩ | ⟨-, heq⟩ | ⟨heq, hc, -⟩
    · have hplain : ∀ letter ∈ ['"', '\\', 'n', 'r', 't', 'b', 'f'], IsPlain letter :=
        List.all_iff_forall_prop.1 (by decide)
      simp only [heq, List.mem_cons, List.not_mem_nil, or_false] at h
      rcases h with rfl | rfl
      · decide
      · exact hplain _ hletter
    · rw [heq, List.mem_cons, List.mem_cons] at h
      rcases h with rfl | rfl | h
      · decide
      · decide
      · exact isPlain_of_mem_hexDigits h
    · rw [heq, List.mem_singleton] at h
      exact h ▸ hc
  · decide

/-! ### Numbers -/

theorem isPlain_of_mem_digits {ds : List Nat} {c : Char} (h : c ∈ ds.map Text.digitChar) :
    IsPlain c := by
  obtain ⟨d, -, rfl⟩ := List.mem_map.1 h
  exact isPlain_digitChar d

theorem isPlain_of_mem_zeros {n : Nat} {c : Char} (h : c ∈ List.replicate n '0') : IsPlain c := by
  rw [List.eq_of_mem_replicate h]
  decide

theorem isPlain_of_mem_decimal {n : Nat} {c : Char} (h : c ∈ (Text.decimal n).toList) :
    IsPlain c := by
  rw [Text.decimal, String.toList_ofList] at h
  exact isPlain_of_mem_digits h

theorem isPlain_of_mem_decimalInt {n : Int} {c : Char} (h : c ∈ (Text.decimalInt n).toList) :
    IsPlain c := by
  cases n with
  | ofNat n => exact isPlain_of_mem_decimal h
  | negSucc n =>
    rw [Text.decimalInt, String.toList_append] at h
    rcases List.mem_append.1 h with h | h
    · obtain rfl := List.mem_singleton.1 h
      decide
    · exact isPlain_of_mem_decimal h

theorem isPlain_of_mem_pointedText {ds : List Nat} {places : Int} {c : Char}
    (h : c ∈ Binary64.pointedText ds places) : IsPlain c := by
  -- zeros in front, zeros behind, or the point among the digits
  simp only [Binary64.pointedText] at h
  split at h
  · simp only [List.cons_append, List.mem_cons, List.mem_append] at h
    rcases h with rfl | rfl | h | h
    · decide
    · decide
    · exact isPlain_of_mem_zeros h
    · exact isPlain_of_mem_digits h
  · split at h
    · simp only [List.append_assoc, List.mem_append, List.mem_cons, List.not_mem_nil,
        or_false] at h
      rcases h with h | h | rfl | rfl
      · exact isPlain_of_mem_digits h
      · exact isPlain_of_mem_zeros h
      · decide
      · decide
    · simp only [List.mem_append, List.mem_cons] at h
      rcases h with h | rfl | h
      · exact isPlain_of_mem_digits (List.mem_of_mem_take h)
      · decide
      · exact isPlain_of_mem_digits (List.mem_of_mem_drop h)

theorem isPlain_of_mem_scientificText {ds : List Nat} {exponent : Int} {c : Char}
    (h : c ∈ Binary64.scientificText ds exponent) : IsPlain c := by
  simp only [Binary64.scientificText, List.mem_append, List.mem_cons, Text.decimalPadded,
    String.toList_ofList] at h
  rcases h with h | rfl | rfl | h | h
  · split at h
    · exact isPlain_of_mem_digits h
    · rcases List.mem_append.1 h with h | h
      · exact isPlain_of_mem_digits (List.mem_of_mem_take h)
      · rcases List.mem_cons.1 h with rfl | h
        · decide
        · exact isPlain_of_mem_digits (List.mem_of_mem_drop h)
  · decide
  · split <;> decide
  · exact isPlain_of_mem_zeros h
  · exact isPlain_of_mem_digits h

theorem isPlain_of_mem_magnitudeText {m : Nat} {q : Int} {c : Char}
    (h : c ∈ Binary64.magnitudeText m q) : IsPlain c := by
  unfold Binary64.magnitudeText at h
  split at h
  · have hall : ∀ c ∈ ['0', '.', '0'], IsPlain c := List.all_iff_forall_prop.1 (by decide)
    exact hall c h
  · simp only at h
    split at h
    · exact isPlain_of_mem_pointedText h
    · exact isPlain_of_mem_scientificText h

/-- No control character is in a floating point number or in the words for one. -/
theorem isPlain_of_mem_toText {x : Binary64} {c : Char}
    (h : c ∈ (x.toText floatWords).toList) : IsPlain c := by
  -- a sign in front of the digits, or one of the words
  cases x with
  | finite negative m q =>
    rw [Binary64.toText, String.toList_ofList] at h
    rcases List.mem_append.1 h with h | h
    · cases negative with
      | false => cases h
      | true =>
        obtain rfl := List.mem_singleton.1 h
        decide
    · exact isPlain_of_mem_magnitudeText h
  | infinite negative =>
    have hall : ∀ c ∈ (Binary64.toText floatWords (.infinite negative)).toList, IsPlain c :=
      List.all_iff_forall_prop.1 (by cases negative <;> decide)
    exact hall c h
  | notANumber =>
    have hall : ∀ c ∈ (Binary64.toText floatWords .notANumber).toList, IsPlain c :=
      List.all_iff_forall_prop.1 (by decide)
    exact hall c h

/-! ### Values -/

/-- Two items or more are the first and the others, parted. -/
theorem itemChars_cons_cons (item next : Json) (items : List Json) :
    itemChars (item :: next :: items) = item.chars ++ ',' :: ' ' :: itemChars (next :: items) := by
  rw [itemChars]
  exact fun h => nomatch h

/-- Two members or more are the first and the others, parted. -/
theorem memberChars_cons_cons (name : String) (value : Json) (next : String × Json)
    (members : List (String × Json)) : memberChars ((name, value) :: next :: members) =
      stringChars name ++ ':' :: ' ' :: value.chars ++ ',' :: ' ' ::
        memberChars (next :: members) := by
  rw [memberChars]
  exact fun h => nomatch h

/-- What stands in items stands in one of them, or parts them. -/
theorem mem_itemChars {items : List Json} {c : Char} (h : c ∈ itemChars items) :
    c ∈ [',', ' '] ∨ ∃ item ∈ items, c ∈ item.chars := by
  induction items with
  | nil => cases h
  | cons item items ih =>
    cases items with
    | nil => exact .inr ⟨item, List.mem_cons_self, h⟩
    | cons next items =>
      rw [itemChars_cons_cons] at h
      simp only [List.mem_append, List.mem_cons] at h
      rcases h with h | rfl | rfl | h
      · exact .inr ⟨item, List.mem_cons_self, h⟩
      · exact .inl (by decide)
      · exact .inl (by decide)
      · exact (ih h).imp_right fun ⟨i, hi, hc⟩ => ⟨i, List.mem_cons_of_mem _ hi, hc⟩

/-- What stands in members stands in one of them, or parts them. -/
theorem mem_memberChars {members : List (String × Json)} {c : Char} (h : c ∈ memberChars members) :
    c ∈ [',', ' ', ':'] ∨ ∃ member ∈ members, c ∈ stringChars member.1 ∨ c ∈ member.2.chars := by
  -- what is written for one member
  have hone : ∀ {name : String} {value : Json}, c ∈ stringChars name ++ ':' :: ' ' :: value.chars →
      c ∈ [',', ' ', ':'] ∨ c ∈ stringChars name ∨ c ∈ value.chars := by
    intro name value hc
    simp only [List.mem_append, List.mem_cons] at hc
    rcases hc with hc | rfl | rfl | hc
    · exact .inr (.inl hc)
    · exact .inl (by decide)
    · exact .inl (by decide)
    · exact .inr (.inr hc)
  induction members with
  | nil => cases h
  | cons member members ih =>
    obtain ⟨name, value⟩ := member
    cases members with
    | nil => exact (hone h).imp_right fun hc => ⟨_, List.mem_cons_self, hc⟩
    | cons next members =>
      rw [memberChars_cons_cons, List.mem_append, List.mem_cons, List.mem_cons] at h
      rcases h with h | rfl | rfl | h
      · exact (hone h).imp_right fun hc => ⟨_, List.mem_cons_self, hc⟩
      · exact .inl (by decide)
      · exact .inl (by decide)
      · exact (ih h).imp_right fun ⟨m, hm, hc⟩ => ⟨m, List.mem_cons_of_mem _ hm, hc⟩

/-- **One line.** No control character is in a written value, so no line end is. -/
theorem isPlain_of_mem_chars {j : Json} {c : Char} (h : c ∈ j.chars) : IsPlain c := by
  induction j using Json.induction generalizing c with
  | null =>
    have hall : ∀ c ∈ "null".toList, IsPlain c := List.all_iff_forall_prop.1 (by decide)
    exact hall c h
  | bool b =>
    have hall : ∀ c ∈ (if b then "true" else "false").toList, IsPlain c :=
      List.all_iff_forall_prop.1 (by cases b <;> decide)
    exact hall c h
  | int n => exact isPlain_of_mem_decimalInt (by rwa [chars] at h)
  | float x => exact isPlain_of_mem_toText (by rwa [chars] at h)
  | str s => exact isPlain_of_mem_stringChars (by rwa [chars] at h)
  | array items ih =>
    -- brackets, commas and blanks are plain, and the items are by induction
    have hparting : ∀ c ∈ [',', ' '], IsPlain c := List.all_iff_forall_prop.1 (by decide)
    rw [chars, List.cons_append, List.mem_cons, List.mem_append, List.mem_singleton] at h
    rcases h with rfl | h | rfl
    · decide
    · rcases mem_itemChars h with h | ⟨item, hitem, h⟩
      · exact hparting c h
      · exact ih item hitem h
    · decide
  | object members ih =>
    -- the same for braces and colons, where the names are written as strings are
    have hparting : ∀ c ∈ [',', ' ', ':'], IsPlain c := List.all_iff_forall_prop.1 (by decide)
    rw [chars, List.cons_append, List.mem_cons, List.mem_append, List.mem_singleton] at h
    rcases h with rfl | h | rfl
    · decide
    · rcases mem_memberChars h with h | ⟨member, hmember, h | h⟩
      · exact hparting c h
      · exact isPlain_of_mem_stringChars h
      · exact ih member hmember h
    · decide

end Depot.Json
