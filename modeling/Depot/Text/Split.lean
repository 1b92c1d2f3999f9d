/-!
# Fields of a text

A text is cut into fields at a separator, and fields are joined with it. A text always has one field
more than separators, so an empty text is one empty field.
-/

namespace Depot.Text

/-- The fields of a text, cut at every separator. -/
def splitChars (separator : Char) : List Char → List (List Char)
  | [] => [[]]
  | c :: cs =>
    if c = separator then [] :: splitChars separator cs
    else match splitChars separator cs with
      | [] => [[c]]
      | field :: fields => (c :: field) :: fields

/-- The fields joined with the separator. -/
def joinChars (separator : Char) : List (List Char) → List Char
  | [] => []
  | [field] => field
  | field :: fields => field ++ separator :: joinChars separator fields

/-- The fields of a text, cut at every separator. -/
def split (separator : Char) (s : String) : List String :=
  (splitChars separator s.toList).map String.ofList

/-- The fields joined with the separator. -/
def join (separator : Char) (fields : List String) : String :=
  String.ofList (joinChars separator (fields.map String.toList))

theorem splitChars_ne_nil (separator : Char) (cs : List Char) : splitChars separator cs ≠ [] := by
  cases cs with
  | nil => simp [splitChars]
  | cons c cs =>
    simp only [splitChars]
    split
    · simp
    · split <;> simp

/-- Joining the fields gives the text back. -/
theorem joinChars_splitChars (separator : Char) (cs : List Char) :
    joinChars separator (splitChars separator cs) = cs := by
  induction cs with
  | nil => rfl
  | cons c cs ih =>
    simp only [splitChars]
    -- at the separator an empty field is put in front, elsewhere the first field grows
    split
    · next h =>
      cases hs : splitChars separator cs with
      | nil => exact absurd hs (splitChars_ne_nil separator cs)
      | cons field fields =>
        rw [hs] at ih
        simp [joinChars, ih, h]
    · next h =>
      cases hs : splitChars separator cs with
      | nil => exact absurd hs (splitChars_ne_nil separator cs)
      | cons field fields =>
        rw [hs] at ih
        cases fields with
        | nil => simpa [joinChars] using ih
        | cons g gs => simpa [joinChars] using ih

/-- A field without separators stands alone. -/
theorem splitChars_of_not_mem {separator : Char} {field : List Char} (h : separator ∉ field) :
    splitChars separator field = [field] := by
  induction field with
  | nil => rfl
  | cons c cs ih =>
    have hc : c ≠ separator := fun e => h (e ▸ List.mem_cons_self)
    simp [splitChars, hc, ih fun hm => h (List.mem_cons_of_mem c hm)]

/-- A field without separators, then a separator, is cut off. -/
theorem splitChars_append_cons {separator : Char} {field : List Char} (h : separator ∉ field)
    (cs : List Char) :
    splitChars separator (field ++ separator :: cs) = field :: splitChars separator cs := by
  induction field with
  | nil => simp [splitChars]
  | cons c field ih =>
    have hc : c ≠ separator := fun e => h (e ▸ List.mem_cons_self)
    simp [splitChars, hc, ih fun hm => h (List.mem_cons_of_mem c hm)]

/-- What is on either side of a separator is cut on its own. -/
theorem splitChars_append_separator {separator : Char} (before after : List Char) :
    splitChars separator (before ++ separator :: after) =
      splitChars separator before ++ splitChars separator after := by
  induction before with
  | nil => simp [splitChars]
  | cons c before ih =>
    by_cases hc : c = separator
    · simp [splitChars, hc, ih]
    · -- the character goes to the first field, which both texts have
      cases hfields : splitChars separator before with
      | nil => exact absurd hfields (splitChars_ne_nil separator before)
      | cons field fields => simp [splitChars, hc, ih, hfields]

/-- A text has one field more than separators. -/
theorem length_splitChars (separator : Char) (cs : List Char) :
    (splitChars separator cs).length = cs.count separator + 1 := by
  induction cs with
  | nil => rfl
  | cons c cs ih =>
    by_cases hc : c = separator
    · simp [splitChars, hc, ih]
    · -- the character goes to the first field, and there is no more than that
      cases hfields : splitChars separator cs with
      | nil => exact absurd hfields (splitChars_ne_nil separator cs)
      | cons field fields =>
        rw [hfields] at ih
        simp [splitChars, hc, hfields, ← ih]

/-- A last field is joined by a separator to those before it. -/
theorem joinChars_concat {separator : Char} {fields : List (List Char)} (h : fields ≠ [])
    (field : List Char) :
    joinChars separator (fields ++ [field]) =
      joinChars separator fields ++ separator :: field := by
  induction fields with
  | nil => exact absurd rfl h
  | cons first fields ih =>
    cases fields with
    | nil => rfl
    | cons second fields =>
      have hrest := ih (List.cons_ne_nil second fields)
      calc joinChars separator (first :: (second :: fields ++ [field]))
          = first ++ separator :: joinChars separator (second :: fields ++ [field]) := rfl
        _ = first ++ separator :: (joinChars separator (second :: fields) ++ separator :: field) :=
          by rw [hrest]
        _ = joinChars separator (first :: second :: fields) ++ separator :: field := by
          simp [joinChars]

end Depot.Text
