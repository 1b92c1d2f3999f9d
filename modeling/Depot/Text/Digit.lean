/-!
# Digits

A number may be written in the digits of any script. Each script has its ten digits at consecutive
code points, so the table lists the zeros alone. All other readers take ASCII digits only, and split
them off at the front of what is left of a text (`Text.splitDigits`).
-/

namespace Depot.Text

/-- The code points of the zeros, one for each script's ten digits. -/
def zeroDigits : List Nat :=
  [0x30, 0x660, 0x6F0, 0x7C0, 0x966, 0x9E6, 0xA66, 0xAE6, 0xB66, 0xBE6, 0xC66, 0xCE6, 0xD66, 0xDE6,
    0xE50, 0xED0, 0xF20, 0x1040, 0x1090, 0x17E0, 0x1810, 0x1946, 0x19D0, 0x1A80, 0x1A90, 0x1B50,
    0x1BB0, 0x1C40, 0x1C50, 0xA620, 0xA8D0, 0xA900, 0xA9D0, 0xA9F0, 0xAA50, 0xABF0, 0xFF10, 0x104A0,
    0x10D30, 0x11066, 0x110F0, 0x11136, 0x111D0, 0x112F0, 0x11450, 0x114D0, 0x11650, 0x116C0,
    0x11730, 0x118E0, 0x11950, 0x11C50, 0x11D50, 0x11DA0, 0x16A60, 0x16AC0, 0x16B50, 0x1D7CE,
    0x1D7D8, 0x1D7E2, 0x1D7EC, 0x1D7F6, 0x1E140, 0x1E2F0, 0x1E950, 0x1FBF0]

/-- The value of a decimal digit of any script, or none for another character. -/
def digitValue? (c : Char) : Option Nat :=
  (zeroDigits.find? fun first => first ≤ c.toNat && c.toNat < first + 10).map (c.toNat - ·)

/-- The value of an ASCII digit. -/
def asciiDigit? (c : Char) : Option Nat :=
  if '0' ≤ c ∧ c ≤ '9' then some (c.toNat - '0'.toNat) else none

/-- The value of a hexadecimal digit, in capitals or not. -/
def hexDigit? (c : Char) : Option Nat :=
  if 'a' ≤ c ∧ c ≤ 'f' then some (c.toNat - 'a'.toNat + 10)
  else if 'A' ≤ c ∧ c ≤ 'F' then some (c.toNat - 'A'.toNat + 10)
  else asciiDigit? c

/-- Splits off an optional sign: is it a minus, and the rest. -/
def splitSign : List Char → Bool × List Char
  | '-' :: cs => (true, cs)
  | '+' :: cs => (false, cs)
  | cs => (false, cs)

/-- Splits off the ASCII digits at the front, as values. -/
def splitDigits : List Char → List Nat × List Char
  | [] => ([], [])
  | c :: cs =>
    match asciiDigit? c with
    | some d =>
      let (ds, rest) := splitDigits cs
      (d :: ds, rest)
    | none => ([], c :: cs)

/-- The ASCII digit for a value below ten. -/
def digitChar (n : Nat) : Char := Nat.digitChar (n % 10)

/-- The number that a list of digit values denotes, most significant first. -/
def ofDigits (digits : List Nat) : Nat := digits.foldl (fun n d => 10 * n + d) 0

/-- The decimal digits of a number, most significant first; zero has one digit. -/
def digitsOf (n : Nat) : List Nat :=
  if n < 10 then [n] else digitsOf (n / 10) ++ [n % 10]

/-- A number in decimal, without superfluous zeros. -/
def decimal (n : Nat) : String := String.ofList ((digitsOf n).map digitChar)

/-- A number in decimal, filled up with leading zeros to at least `width` digits. -/
def decimalPadded (width n : Nat) : String :=
  let digits := (digitsOf n).map digitChar
  String.ofList (List.replicate (width - digits.length) '0' ++ digits)

/-- An integer in decimal, with a minus sign where it is negative. -/
def decimalInt : Int → String
  | .ofNat n => decimal n
  | .negSucc n => "-" ++ decimal (n + 1)

/-- Digits read back as the number they were written for. -/
@[simp] theorem ofDigits_digitsOf (n : Nat) : ofDigits (digitsOf n) = n := by
  induction n using Nat.strongRecOn with
  | _ n ih =>
    rw [digitsOf]
    split
    · simp [ofDigits]
    · have hdiv := ih (n / 10) (by omega)
      simp only [ofDigits] at hdiv
      simp only [ofDigits, List.foldl_append, hdiv, List.foldl_cons, List.foldl_nil]
      omega

/-- Every digit is below ten. -/
theorem lt_of_mem_digitsOf {n d : Nat} (h : d ∈ digitsOf n) : d < 10 := by
  induction n using Nat.strongRecOn with
  | _ n ih =>
    rw [digitsOf] at h
    split at h
    · next hn =>
      obtain rfl := List.mem_singleton.1 h
      exact hn
    · rcases List.mem_append.1 h with h | h
      · exact ih (n / 10) (by omega) h
      · obtain rfl := List.mem_singleton.1 h
        exact Nat.mod_lt n (by decide)

/-- A number has a digit. -/
theorem digitsOf_ne_nil (n : Nat) : digitsOf n ≠ [] := by
  rw [digitsOf]
  split
  · exact List.cons_ne_nil n []
  · exact List.append_ne_nil_of_right_ne_nil _ (List.cons_ne_nil _ [])

/-- The ASCII digit for a value is read as that value. -/
theorem asciiDigit?_digitChar {d : Nat} (h : d < 10) : asciiDigit? (digitChar d) = some d := by
  have hall : ∀ d < 10, asciiDigit? (digitChar d) = some d := by decide
  exact hall d h

/-- Zeros at the front do not count. -/
theorem ofDigits_replicate_zero_append (n : Nat) (ds : List Nat) :
    ofDigits (List.replicate n 0 ++ ds) = ofDigits ds := by
  induction n with
  | zero => rfl
  | succ n ih => exact ih

/-- No ASCII digit stands at the front of the text. -/
def NoDigitAhead (cs : List Char) : Prop := ∀ c ∈ cs.head?, asciiDigit? c = none

/-- Digits are split off up to where none stands. -/
theorem splitDigits_map_append {ds : List Nat} (hds : ∀ d ∈ ds, d < 10) {rest : List Char}
    (hrest : NoDigitAhead rest) : splitDigits (ds.map digitChar ++ rest) = (ds, rest) := by
  induction ds with
  | nil =>
    cases rest with
    | nil => rfl
    | cons c cs =>
      have hc : asciiDigit? c = none := hrest c rfl
      show splitDigits (c :: cs) = _
      rw [splitDigits, hc]
  | cons d ds ih =>
    have hd := asciiDigit?_digitChar (hds d List.mem_cons_self)
    have htail := ih fun e he => hds e (List.mem_cons_of_mem d he)
    rw [List.map_cons, List.cons_append, splitDigits, hd]
    simp only [htail]

/-- Digits alone are split off whole. -/
theorem splitDigits_map {ds : List Nat} (hds : ∀ d ∈ ds, d < 10) :
    splitDigits (ds.map digitChar) = (ds, []) := by
  have h : splitDigits (ds.map digitChar ++ []) = (ds, []) :=
    splitDigits_map_append hds fun c hc => nomatch hc
  rwa [List.append_nil] at h

example : digitValue? '٣' = some 3 := by decide
example : splitDigits "40a".toList = ([4, 0], ['a']) := by decide
example : decimal 407 = "407" := by decide +kernel

end Depot.Text
