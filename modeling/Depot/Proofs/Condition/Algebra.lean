import Depot.Condition.Basic
import Mathlib.Algebra.Ring.Parity
import Mathlib.Data.List.Perm.Basic
/-!
# The algebra of conditions

Conditions are joined by connectives of any number of operands, and each connective is a sum in a
commutative monoid of truth values (`Connective.join`, `Connective.unit`), although the evaluator
has a way of its own for each (`holds_make`). So what holds of all connectives is proved of none of
them on its own: the order of operands does not matter (`holds_make_perm`), and a connective among
its own operands may be dissolved (`holds_make_splice`).

A condition may stand within another one, in the gap of its surroundings (`Surrounding.fill`,
`occursIn_iff`). What the whole comes to depends on what stands in the gap only through its value
(`Surrounding.holds_fill`). Therefore conditions of one value may replace one another anywhere, and
so may `defined` and the test that the property is not null (`holds_defined`).
-/

namespace Depot

/-- A name is set exactly if it has a value. -/
theorem Dictionary.has_eq_isSome {α : Type} (d : Dictionary α) (name : String) :
    d.has name = (d.get? name).isSome := by
  induction d with
  | nil => rfl
  | cons entry d ih =>
    rw [has, get?] at ih ⊢
    rw [List.any_cons, List.find?_cons, ih]
    cases entry.1 == name <;> rfl

namespace Condition

/-! ### Connectives -/

/-- The ways to join any number of conditions. -/
inductive Connective where
  | and
  | or
  | xor
  deriving DecidableEq, Repr

namespace Connective

/-- The condition that joins others. -/
def make : Connective → List Condition → Condition
  | and => .and
  | or => .or
  | xor => .xor

/-- What a connective makes of two truth values. -/
def join : Connective → Bool → Bool → Bool
  | and => Bool.and
  | or => Bool.or
  | xor => Bool.xor

/-- What a connective makes of nothing. -/
def unit : Connective → Bool
  | and => true
  | or => false
  | xor => false

theorem join_assoc (k : Connective) (a b c : Bool) :
    k.join (k.join a b) c = k.join a (k.join b c) := by
  cases k
  · exact Bool.and_assoc a b c
  · exact Bool.or_assoc a b c
  · exact Bool.xor_assoc a b c

theorem join_left_comm (k : Connective) (a b c : Bool) :
    k.join a (k.join b c) = k.join b (k.join a c) := by
  cases k
  · exact Bool.and_left_comm a b c
  · exact Bool.or_left_comm a b c
  · exact Bool.xor_left_comm a b c

theorem unit_join (k : Connective) (a : Bool) : k.join k.unit a = a := by
  cases k
  · exact Bool.true_and a
  · exact Bool.false_or a
  · exact Bool.false_xor a

/-- Joining many truth values in front of one. -/
def joinAll (k : Connective) (values : List Bool) (last : Bool) : Bool := values.foldr k.join last

theorem joinAll_perm (k : Connective) {as bs : List Bool} (h : as.Perm bs) (last : Bool) :
    k.joinAll as last = k.joinAll bs last := by
  have : LeftCommutative k.join := ⟨k.join_left_comm⟩
  exact h.foldr_eq last

/-- What is joined in front of a value may be joined by itself first. -/
theorem join_joinAll_unit (k : Connective) (as : List Bool) (last : Bool) :
    k.join (k.joinAll as k.unit) last = k.joinAll as last := by
  unfold joinAll
  induction as with
  | nil => exact k.unit_join last
  | cons a as ih => rw [List.foldr_cons, List.foldr_cons, k.join_assoc, ih]

end Connective

variable {ctx : Context}

theorem holds_make_nil (k : Connective) : holds ctx (k.make []) = k.unit := by
  cases k
  · rw [Connective.make, holds, allHold, Connective.unit]
  · rw [Connective.make, holds, anyHolds, Connective.unit]
  · rw [Connective.make, holds, oddHold, Connective.unit]

theorem holds_make_cons (k : Connective) (c : Condition) (cs : List Condition) :
    holds ctx (k.make (c :: cs)) = k.join (holds ctx c) (holds ctx (k.make cs)) := by
  cases k
  · rw [Connective.make, holds, allHold, holds, Connective.join]
  · rw [Connective.make, holds, anyHolds, holds, Connective.join]
  · rw [Connective.make, holds, oddHold, holds, Connective.join]

/-- **Connectives.** Each of them joins the values of its operands. -/
theorem holds_make (k : Connective) (cs : List Condition) :
    holds ctx (k.make cs) = k.joinAll (cs.map (holds ctx)) k.unit := by
  induction cs with
  | nil => exact holds_make_nil k
  | cons c cs ih =>
    rw [holds_make_cons, ih]
    rfl

/-- The order of operands does not matter. -/
theorem holds_make_perm (k : Connective) {xs ys : List Condition} (h : xs.Perm ys) :
    holds ctx (k.make xs) = holds ctx (k.make ys) := by
  rw [holds_make, holds_make, k.joinAll_perm (h.map _)]

/-- A connective among its own operands may be dissolved. -/
theorem holds_make_splice (k : Connective) (before xs after : List Condition) :
    holds ctx (k.make (before ++ k.make xs :: after)) =
      holds ctx (k.make (before ++ xs ++ after)) := by
  have hinner := k.join_joinAll_unit (xs.map (holds ctx))
    (k.joinAll (after.map (holds ctx)) k.unit)
  simp only [Connective.joinAll] at hinner
  simp only [holds_make, Connective.joinAll, List.map_append, List.map_cons, List.foldr_append,
    List.foldr_cons, hinner]

/-- What holds of an odd number of conditions. -/
theorem holds_xor_iff (cs : List Condition) :
    holds ctx (.xor cs) = true ↔ Odd (cs.countP (holds ctx)) := by
  induction cs with
  | nil =>
    have hnone : holds ctx (.xor []) = false := holds_make_nil .xor
    simp [hnone]
  | cons c cs ih =>
    have hcons : holds ctx (.xor (c :: cs)) = Bool.xor (holds ctx c) (holds ctx (.xor cs)) :=
      holds_make_cons .xor c cs
    rw [hcons, List.countP_cons]
    cases holds ctx c with
    | true =>
      -- one more operand holds, so the parity changes
      rw [if_pos rfl, Nat.odd_add_one, ← ih, Bool.true_xor, Bool.not_eq_true', Bool.not_eq_true]
    | false => rw [if_neg Bool.false_ne_true, Nat.add_zero, Bool.false_xor, ih]

theorem holds_not (c : Condition) : holds ctx (.not c) = !holds ctx c := by
  rw [holds]

/-- **De Morgan's laws.** Not all operands hold exactly if one does not, and none of them holds
exactly if all do not. -/
theorem holds_not_and (cs : List Condition) :
    holds ctx (.not (.and cs)) = holds ctx (.or (cs.map .not)) := by
  rw [holds_not, holds, holds, allHold_eq, anyHolds_eq, List.not_all_eq_any_not, List.any_map]
  exact congrArg _ (funext fun c => (holds_not c).symm)

theorem holds_not_or (cs : List Condition) :
    holds ctx (.not (.or cs)) = holds ctx (.and (cs.map .not)) := by
  rw [holds_not, holds, holds, allHold_eq, anyHolds_eq, List.not_any_eq_all_not, List.all_map]
  exact congrArg _ (funext fun c => (holds_not c).symm)

/-! ### Conditions within conditions -/

/-- What stands around a condition within another one: from the whole inwards to the gap, the
negations, and the other operands of the connectives. -/
inductive Surrounding where
  | gap
  | not (inner : Surrounding)
  | connective (k : Connective) (before : List Condition) (inner : Surrounding)
    (after : List Condition)

/-- The whole, with a condition in the gap. -/
def Surrounding.fill : Surrounding → Condition → Condition
  | gap, c => c
  | not inner, c => .not (inner.fill c)
  | connective k before inner after, c => k.make (before ++ inner.fill c :: after)

/-- A condition stands in a position within another one. -/
inductive OccursIn (c : Condition) : Condition → Prop
  | self : OccursIn c c
  | not {d : Condition} (h : OccursIn c d) : OccursIn c (.not d)
  | operand (k : Connective) {d : Condition} {cs : List Condition} (hd : d ∈ cs)
      (h : OccursIn c d) : OccursIn c (k.make cs)

/-- Every position within a condition is the gap of some surroundings. -/
theorem occursIn_iff {c whole : Condition} :
    c.OccursIn whole ↔ ∃ s : Surrounding, s.fill c = whole := by
  constructor
  · intro h
    -- the way down to `c` becomes a surrounding, one layer for each step
    induction h with
    | self => exact ⟨.gap, rfl⟩
    | not h ih =>
      obtain ⟨s, rfl⟩ := ih
      exact ⟨.not s, rfl⟩
    | operand k hd h ih =>
      obtain ⟨s, rfl⟩ := ih
      obtain ⟨before, after, rfl⟩ := List.append_of_mem hd
      exact ⟨.connective k before s after, rfl⟩
  · rintro ⟨s, rfl⟩
    induction s with
    | gap => exact .self
    | not inner ih => exact .not ih
    | connective k before inner after ih =>
      exact .operand k (List.mem_append_right _ List.mem_cons_self) ih

/-- **The value in the gap is all that counts.** -/
theorem Surrounding.holds_fill (s : Surrounding) {a b : Condition}
    (h : holds ctx a = holds ctx b) : holds ctx (s.fill a) = holds ctx (s.fill b) := by
  induction s with
  | gap => exact h
  | not inner ih => rw [fill, fill, holds_not, holds_not, ih]
  | connective k before inner after ih =>
    rw [fill, fill, holds_make, holds_make, List.map_append, List.map_append, List.map_cons,
      List.map_cons, ih]

/-- A property is defined exactly if it is not null. -/
theorem holds_defined (name : String) :
    holds ctx (.defined name) = holds ctx (.not (.equals (.property name) .null)) := by
  rw [holds_not, holds, holds, Term.value, Term.value, Dictionary.has_eq_isSome]
  cases ctx.properties.get? name <;> rfl

/-- **Conditions obey Boolean algebra**, for operands of any number. The order of the operands of a
connective does not matter, and a connective among its own operands may be dissolved into them. An
exclusive disjunction holds exactly if an odd number of its operands do, and negation goes through
the other connectives by De Morgan's laws. In every position of a condition in which it says that a
property is defined, it may as well say that the property is not null. -/
theorem boolean_laws (ctx : Context) :
    (∀ (k : Connective) (xs ys : List Condition), xs.Perm ys →
      holds ctx (k.make xs) = holds ctx (k.make ys)) ∧
    (∀ (k : Connective) (before xs after : List Condition),
      holds ctx (k.make (before ++ k.make xs :: after)) =
        holds ctx (k.make (before ++ xs ++ after))) ∧
    (∀ xs : List Condition, holds ctx (.xor xs) = true ↔ Odd (xs.countP (holds ctx))) ∧
    (∀ xs : List Condition,
      holds ctx (.not (.and xs)) = holds ctx (.or (xs.map .not)) ∧
        holds ctx (.not (.or xs)) = holds ctx (.and (xs.map .not))) ∧
    (∀ (s : Surrounding) (name : String), holds ctx (s.fill (.defined name)) =
      holds ctx (s.fill (.not (.equals (.property name) .null)))) ∧
    ∀ c whole : Condition, c.OccursIn whole ↔ ∃ s : Surrounding, s.fill c = whole :=
  ⟨fun k _ _ hperm => holds_make_perm k hperm, holds_make_splice, holds_xor_iff,
    fun xs => ⟨holds_not_and xs, holds_not_or xs⟩, fun s name => s.holds_fill (holds_defined name),
    fun _ _ => occursIn_iff⟩

/-- An artifact with one property set. -/
def sampleContext : Context := ⟨default, [("skip", "")]⟩

/-- Conditions of which two hold, one of them a connective. -/
def sampleOperands : List Condition :=
  [.literal true, .equals .version (.literal "1"), .xor [.defined "skip", .literal false]]

theorem boolean_laws_sampleOperands :
    sampleOperands.Perm sampleOperands.reverse ∧
    holds sampleContext (.xor sampleOperands) = false ∧
    holds sampleContext (.xor sampleOperands.reverse) = false ∧
    holds sampleContext (.xor [.literal true, .equals .version (.literal "1"), .defined "skip",
      .literal false]) = false ∧
    holds sampleContext (.not (.and (sampleOperands.map .not))) = true := by
  obtain ⟨hperm, hsplice, hodd, hdual, -⟩ := boolean_laws sampleContext
  have hreverse := (List.reverse_perm sampleOperands).symm
  have heven : holds sampleContext (.xor sampleOperands) = false := by
    rw [← Bool.not_eq_true, hodd]
    decide
  refine ⟨hreverse, heven, (hperm .xor _ _ hreverse).symm.trans heven, ?_, ?_⟩
  · exact (hsplice .xor [.literal true, .equals .version (.literal "1")]
      [.defined "skip", .literal false] []).symm.trans heven
  · rw [(hdual _).1]
    rfl

end Condition

end Depot
