/-!
# Remembered values

What a cache that computes once holds between calls, when one caller follows the other: the values
of the keys that were computed. A value is computed at the first call of its key, and a computation
that fails leaves nothing behind, so that the next call tries again.
-/

namespace Depot

/-- The values of keys, each key once. -/
structure Memo (K V : Type) where
  entries : List (K × V)

namespace Memo

variable {K V : Type}

/-- Nothing is remembered. -/
def empty : Memo K V := ⟨[]⟩

instance : Inhabited (Memo K V) := ⟨empty⟩

variable [DecidableEq K]

/-- The value of a key. -/
def get? (m : Memo K V) (key : K) : Option V :=
  (m.entries.find? fun entry => decide (entry.1 = key)).map (·.2)

/-- Remembers the value of a key that has none. -/
def remember (m : Memo K V) (key : K) (v : V) : Memo K V := ⟨m.entries ++ [(key, v)]⟩

@[simp] theorem get?_empty (key : K) : (empty : Memo K V).get? key = none := rfl

/-- What a key has after a key is remembered: an earlier value stays. -/
theorem get?_remember (m : Memo K V) (key other : K) (v : V) :
    (m.remember key v).get? other =
      (m.get? other).or (if key = other then some v else none) := by
  simp only [get?, remember, List.find?_append]
  cases h : m.entries.find? fun entry => decide (entry.1 = other) with
  | some entry => simp
  | none => by_cases hk : key = other <;> simp [hk]

end Memo

end Depot
