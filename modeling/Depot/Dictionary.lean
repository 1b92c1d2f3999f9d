/-!
# Dictionaries

A dictionary is a list of names with values, in the order in which the names were first set. Setting
a name again replaces its value and keeps its place.
-/

namespace Depot

/-- Names with values, in the order in which the names were first set. -/
abbrev Dictionary (α : Type) := List (String × α)

namespace Dictionary

variable {α : Type}

/-- The value of a name. -/
def get? (d : Dictionary α) (name : String) : Option α :=
  (List.find? (fun entry => entry.1 == name) d).map (·.2)

/-- Is the name set? -/
def has (d : Dictionary α) (name : String) : Bool := d.any fun entry => entry.1 == name

/-- Sets a name: in its place where it is set already, and at the end otherwise. -/
def put (d : Dictionary α) (name : String) (value : α) : Dictionary α :=
  match d with
  | [] => [(name, value)]
  | (n, v) :: rest => if n = name then (n, value) :: rest else (n, v) :: put rest name value

/-- The names in their order. -/
def names (d : Dictionary α) : List String := d.map (·.1)

@[simp] theorem names_nil : names ([] : Dictionary α) = [] := rfl

@[simp] theorem names_cons (entry : String × α) (d : Dictionary α) :
    names (entry :: d) = entry.1 :: names d := rfl

/-- Setting a name adds it at the end, unless it was set. -/
theorem names_put (d : Dictionary α) (name : String) (value : α) :
    names (put d name value) = if name ∈ names d then names d else names d ++ [name] := by
  induction d with
  | nil => simp [put]
  | cons entry rest ih =>
    obtain ⟨n, v⟩ := entry
    -- a name that is there is written over in its place, a new one goes to the end
    by_cases h : n = name
    · simp [put, h]
    · have h' : ¬ name = n := fun e => h e.symm
      by_cases hm : name ∈ names rest
      · simp [put, h, ih, hm]
      · simp [put, h, h', ih, hm]

/-- What a name has after a name is set. -/
theorem get?_put (d : Dictionary α) (name other : String) (value : α) :
    get? (put d name value) other = if name = other then some value else get? d other := by
  induction d with
  | nil => by_cases h : name = other <;> simp [put, get?, h]
  | cons entry rest ih =>
    obtain ⟨n, v⟩ := entry
    simp only [get?] at ih
    -- the first entry is the one written, the one asked for, or neither
    by_cases h : n = name
    · subst h
      by_cases h2 : n = other <;> simp [put, get?, h2]
    · by_cases h2 : n = other
      · subst h2
        have h3 : ¬ name = n := fun e => h e.symm
        simp [put, get?, h, h3]
      · simp [put, get?, h, h2, ih]

end Dictionary

end Depot
