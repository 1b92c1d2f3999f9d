/-!
# Blank characters and stripped text

Coordinates, element texts and numbers are compared without the blanks around them. Blank are the
characters that separate words or lines in any script: the space separators, the line and paragraph
separators, and the control characters that move to another column, line or unit.

`Text.strip` cuts the blanks at both ends. What is left neither starts nor ends with a blank
(`ends_stripChars`), so that stripping it again changes nothing (`strip_strip`).
-/

namespace Depot.Text

/-- The code points of the blank characters. -/
def blankCodes : List Nat :=
  [0x09, 0x0A, 0x0B, 0x0C, 0x0D, 0x1C, 0x1D, 0x1E, 0x1F, 0x20, 0x85, 0xA0, 0x1680, 0x2000, 0x2001,
    0x2002, 0x2003, 0x2004, 0x2005, 0x2006, 0x2007, 0x2008, 0x2009, 0x200A, 0x2028, 0x2029, 0x202F,
    0x205F, 0x3000]

/-- A character that separates words or lines and is dropped at the ends of a text. -/
def isBlank (c : Char) : Bool := blankCodes.contains c.toNat

/-- The characters without the blanks at either end. -/
def stripChars (cs : List Char) : List Char :=
  ((cs.dropWhile isBlank).reverse.dropWhile isBlank).reverse

/-- The text without the blanks at either end. -/
def strip (s : String) : String := String.ofList (stripChars s.toList)

/-- A text made of blanks only; the empty text is one. -/
def isAllBlank (s : String) : Bool := s.toList.all isBlank

/-! ### What stripping leaves -/

/-- Nothing is cut where no blank stands at either end. -/
theorem stripChars_eq_self_of_ends {cs : List Char} (hfront : ∀ b ∈ cs.head?, isBlank b = false)
    (hback : ∀ b ∈ cs.getLast?, isBlank b = false) : stripChars cs = cs := by
  have hdrop : ∀ {ds : List Char}, (∀ b ∈ ds.head?, isBlank b = false) →
      ds.dropWhile isBlank = ds := by
    intro ds hds
    cases ds with
    | nil => rfl
    | cons d ds => rw [List.dropWhile_cons, hds d rfl, if_neg Bool.false_ne_true]
  rw [stripChars, hdrop hfront, hdrop (List.head?_reverse ▸ hback), List.reverse_reverse]

/-- What is left has no blank at either end. -/
theorem ends_stripChars (cs : List Char) : (∀ b ∈ (stripChars cs).head?, isBlank b = false) ∧
    ∀ b ∈ (stripChars cs).getLast?, isBlank b = false := by
  have hstop : ∀ {ds : List Char}, ∀ b ∈ (ds.dropWhile isBlank).head?, isBlank b = false := by
    intro ds b hb
    have hnot := List.head?_dropWhile_not isBlank ds
    rwa [Option.mem_def.1 hb] at hnot
  constructor
  · -- cutting at the end leaves the front of what was cut there before
    have hfront : stripChars cs <+: cs.dropWhile isBlank := by
      rw [← List.reverse_suffix, stripChars, List.reverse_reverse]
      exact List.dropWhile_suffix isBlank
    obtain ⟨back, hback⟩ := hfront
    intro b hb
    have hmem : b ∈ (cs.dropWhile isBlank).head? := by
      rw [← hback, List.head?_append, hb]
      rfl
    exact hstop b hmem
  · intro b hb
    rw [stripChars, List.getLast?_reverse] at hb
    exact hstop b hb

/-- Stripping changes nothing exactly if there is no blank at either end. -/
theorem stripChars_eq_self_iff {cs : List Char} : stripChars cs = cs ↔
    (∀ b ∈ cs.head?, isBlank b = false) ∧ ∀ b ∈ cs.getLast?, isBlank b = false :=
  ⟨fun h => h ▸ ends_stripChars cs, fun h => stripChars_eq_self_of_ends h.1 h.2⟩

/-- Stripping a second time changes nothing. -/
theorem stripChars_stripChars (cs : List Char) : stripChars (stripChars cs) = stripChars cs :=
  stripChars_eq_self_iff.2 (ends_stripChars cs)

/-- Stripping a second time changes nothing. -/
@[simp] theorem strip_strip (s : String) : strip (strip s) = strip s := by
  simp [strip, stripChars_stripChars]

/-- A list without blanks stays as it is. -/
theorem stripChars_eq_self {cs : List Char} (h : ∀ c ∈ cs, isBlank c = false) :
    stripChars cs = cs :=
  stripChars_eq_self_of_ends (fun b hb => h b (List.mem_of_mem_head? hb))
    fun b hb => h b (List.mem_of_getLast? hb)

/-- Stripping never lengthens a text. -/
theorem length_strip_le (s : String) : (strip s).length ≤ s.length := by
  rw [← String.length_toList, ← String.length_toList, strip, String.toList_ofList, stripChars,
    List.length_reverse]
  have hback := (List.dropWhile_sublist isBlank
    (l := (s.toList.dropWhile isBlank).reverse)).length_le
  have hfront := (List.dropWhile_sublist isBlank (l := s.toList)).length_le
  rw [List.length_reverse] at hback
  omega

example : strip " \t a b\u2003\n" = "a b" := by decide

end Depot.Text
