import Depot.Text.Utf8
/-!
# Octets are decoded to the text they encode

The reader of UTF-8 is a machine that may be in the middle of a character. It suffices to follow it
through the octets of one character: the first says how many octets are owed and within which bounds
the second lies (`lead_two`, `lead_three`, `lead_four`), and each of the others adds six bits
(`run_continue`, `run_last`). A code point is its bits in pieces of six, so the character comes out
and the machine is between characters again (`run_encodeChar_append`).

The bounds on the second octet are where it matters that a character is no surrogate, has no shorter
form and lies below the last code point.
-/

namespace Depot.Utf8

variable (bad : Char)

/-! ### One octet -/

/-- An octet of a value that fits has that value. -/
theorem toNat_ofNat_octet {n : Nat} (h : n < 256) : (UInt8.ofNat n).toNat = n := by
  rw [UInt8.toNat_ofNat']
  exact Nat.mod_eq_of_lt h

/-- What begins a character of two octets. -/
theorem lead_two {k : Nat} (hk : 2 ≤ k) (h : k < 32) :
    lead (0xC0 + k) = .start ⟨k, 1, 0x80, 0xBF⟩ := by
  -- the table of first octets is finite, and so are the other two
  have hall : ∀ k < 32, 2 ≤ k → lead (0xC0 + k) = .start ⟨k, 1, 0x80, 0xBF⟩ := by decide
  exact hall k h hk

/-- What begins a character of three octets. -/
theorem lead_three {k : Nat} (h : k < 16) : lead (0xE0 + k) =
    .start ⟨k, 2, if k = 0 then 0xA0 else 0x80, if k = 0xD then 0x9F else 0xBF⟩ := by
  have hall : ∀ k < 16, lead (0xE0 + k) =
      .start ⟨k, 2, if k = 0 then 0xA0 else 0x80, if k = 0xD then 0x9F else 0xBF⟩ := by decide
  exact hall k h

/-- What begins a character of four octets. -/
theorem lead_four {k : Nat} (h : k < 5) : lead (0xF0 + k) =
    .start ⟨k, 3, if k = 0 then 0x90 else 0x80, if k = 4 then 0x8F else 0xBF⟩ := by
  have hall : ∀ k < 5, lead (0xF0 + k) =
      .start ⟨k, 3, if k = 0 then 0x90 else 0x80, if k = 4 then 0x8F else 0xBF⟩ := by decide
  exact hall k h

/-- An octet that begins a character leaves the machine in the middle of it. -/
theorem run_start {n : Nat} (hn : n < 256) {p : Pending} (h : lead n = .start p) (bs : List UInt8) :
    run bad none (UInt8.ofNat n :: bs) = run bad (some p) bs := by
  rw [run, toNat_ofNat_octet hn]
  simp only [step, begin?, h, List.nil_append]

/-- An octet within the bounds, after which more are owed. -/
theorem run_continue {p : Pending} {k : Nat} (hk : k < 64) (hleast : p.least ≤ 0x80 + k)
    (hgreatest : 0x80 + k ≤ p.greatest) (howed : 1 < p.owed) (bs : List UInt8) :
    run bad (some p) (UInt8.ofNat (0x80 + k) :: bs) =
      run bad (some ⟨0x40 * p.bits + k, p.owed - 1, 0x80, 0xBF⟩) bs := by
  rw [run, toNat_ofNat_octet (by omega)]
  simp only [step, if_pos (And.intro hleast hgreatest), if_neg (Nat.not_le.2 howed),
    Nat.add_sub_cancel_left, List.nil_append]

/-- The last octet that is owed completes the character. -/
theorem run_last {p : Pending} {k : Nat} (hk : k < 64) (hleast : p.least ≤ 0x80 + k)
    (hgreatest : 0x80 + k ≤ p.greatest) (howed : p.owed ≤ 1) (bs : List UInt8) :
    run bad (some p) (UInt8.ofNat (0x80 + k) :: bs) =
      Char.ofNat (0x40 * p.bits + k) :: run bad none bs := by
  rw [run, toNat_ofNat_octet (by omega)]
  simp only [step, if_pos (And.intro hleast hgreatest), if_pos howed, Nat.add_sub_cancel_left,
    List.singleton_append]

/-! ### One character -/

/-- The octets of a character are read as that character, and the machine goes on between
characters. -/
theorem run_encodeChar_append (c : Char) (bs : List UInt8) :
    run bad none (encodeChar c ++ bs) = c :: run bad none bs := by
  -- everything is about the code point, of which it matters that it is a scalar value
  obtain ⟨n, hn⟩ : ∃ n, n = c.toNat := ⟨_, rfl⟩
  have hchar : Char.ofNat n = c := by rw [hn, Char.ofNat_toNat]
  have hscalar : n < 0xD800 ∨ 0xDFFF < n ∧ n < 0x110000 := hn ▸ c.valid
  have hsix : ∀ m : Nat, m % 0x40 < 64 := fun m => Nat.mod_lt m (by decide)
  unfold encodeChar
  rw [← hn]
  simp only []
  split
  · next h =>
    show run bad none (UInt8.ofNat n :: bs) = _
    rw [run, toNat_ofNat_octet (by omega)]
    simp only [step, begin?, lead, if_pos h, hchar, List.singleton_append]
  · split
    · next h =>
      show run bad none (UInt8.ofNat (0xC0 + n / 0x40) :: UInt8.ofNat (0x80 + n % 0x40) :: bs) = _
      have hlead := lead_two (k := n / 0x40) (by omega) (by omega)
      rw [run_start bad (by omega) hlead,
        run_last bad (hsix n) (by simp) (by simp; omega) (by simp)]
      rw [show 0x40 * (n / 0x40) + n % 0x40 = n from Nat.div_add_mod n 0x40, hchar]
    · split
      · next h =>
        -- the second octet is at least 0xA0 where the first piece is zero, as the form is shortest,
        -- and at most 0x9F where it is 0xD, as the code point is no surrogate
        show run bad none (UInt8.ofNat (0xE0 + n / 0x1000) ::
          UInt8.ofNat (0x80 + n / 0x40 % 0x40) :: UInt8.ofNat (0x80 + n % 0x40) :: bs) = _
        have hlead := lead_three (k := n / 0x1000) (by omega)
        have hleast : (if n / 0x1000 = 0 then 0xA0 else 0x80) ≤ 0x80 + n / 0x40 % 0x40 := by
          split <;> omega
        have hgreatest : 0x80 + n / 0x40 % 0x40 ≤ if n / 0x1000 = 0xD then 0x9F else 0xBF := by
          split <;> omega
        rw [run_start bad (by omega) hlead, run_continue bad (hsix _) hleast hgreatest (by simp),
          run_last bad (hsix n) (by simp) (by simp; omega) (by simp)]
        rw [show 0x40 * (0x40 * (n / 0x1000) + n / 0x40 % 0x40) + n % 0x40 = n by omega, hchar]
      · -- at least 0x90 after a zero, as the form is shortest, and at most 0x8F after a four, as no
        -- code point lies beyond the last
        show run bad none (UInt8.ofNat (0xF0 + n / 0x40000) ::
          UInt8.ofNat (0x80 + n / 0x1000 % 0x40) :: UInt8.ofNat (0x80 + n / 0x40 % 0x40) ::
          UInt8.ofNat (0x80 + n % 0x40) :: bs) = _
        have hlead := lead_four (k := n / 0x40000) (by omega)
        have hleast : (if n / 0x40000 = 0 then 0x90 else 0x80) ≤ 0x80 + n / 0x1000 % 0x40 := by
          split <;> omega
        have hgreatest : 0x80 + n / 0x1000 % 0x40 ≤ if n / 0x40000 = 4 then 0x8F else 0xBF := by
          split <;> omega
        rw [run_start bad (by omega) hlead, run_continue bad (hsix _) hleast hgreatest (by simp),
          run_continue bad (hsix _) (by simp) (by simp; omega) (by simp),
          run_last bad (hsix n) (by simp) (by simp; omega) (by simp)]
        rw [show 0x40 * (0x40 * (0x40 * (n / 0x40000) + n / 0x1000 % 0x40) + n / 0x40 % 0x40) +
          n % 0x40 = n by omega, hchar]

/-! ### Texts -/

/-- **Decoding undoes encoding.** The octets of a text are read as that text, whatever stands for
octets that are not UTF-8. -/
theorem decode_encode (cs : List Char) : decode bad (encode cs) = cs := by
  show run bad none (encode cs) = cs
  induction cs with
  | nil => rfl
  | cons c cs ih =>
    show run bad none (encodeChar c ++ encode cs) = c :: cs
    rw [run_encodeChar_append, ih]

end Depot.Utf8
