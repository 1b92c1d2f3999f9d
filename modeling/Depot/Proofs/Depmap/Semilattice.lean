import Depot.Proofs.Decimal.Value
import Depot.Proofs.Depmap.Reachable
/-!
# Merging is joining

Sets in order are a semilattice under union, numbers that may be missing under maximum. What a map
amounts to (`Depmap.content`) is three sets and two numbers, an element of the product of these
semilattices, and two maps are equivalent (`Depmap.Equiv`) if they amount to the same. They may
still differ in how their floors are spelled, and in whether they are published.

Merging a map is joining what it amounts to (`Depmap.merge_eq_ok`), although a floor passes from map
to map by its text. So merging has the laws of a semilattice up to equivalence, and they come from
there: nothing is proved of them here for sets or numbers on their own.
-/

namespace Depot

namespace OrderedSet

variable {α : Type} [Ranked α]

instance : Max (OrderedSet α) := ⟨union⟩

theorem mem_sup {a : α} {s t : OrderedSet α} : a ∈ s ⊔ t ↔ a ∈ s ∨ a ∈ t := mem_union

instance : SemilatticeSup (OrderedSet α) :=
  SemilatticeSup.mk'
    (fun s t => ext fun a => by rw [mem_sup, mem_sup, or_comm])
    (fun s t u => ext fun a => by rw [mem_sup, mem_sup, mem_sup, mem_sup, or_assoc])
    (fun s => ext fun a => by rw [mem_sup, or_self])

instance : OrderBot (OrderedSet α) where
  bot := empty
  bot_le s := by
    refine sup_eq_right.1 (ext fun a => ?_)
    rw [mem_sup, or_iff_right (not_mem_empty a)]

/-- The set with one member. -/
def single (a : α) : OrderedSet α := empty.insert a

theorem insert_eq_sup (a : α) (s : OrderedSet α) : s.insert a = s ⊔ single a := by
  refine ext fun b => ?_
  rw [mem_insert, mem_sup, single, mem_insert, or_iff_left (not_mem_empty b), or_comm]

end OrderedSet

namespace Depmap

/-- What a map amounts to: its pairs, what is required at run time and at build time, and the values
of the two floors. -/
abbrev Content :=
  OrderedSet (Identity × Identity) × OrderedSet Requirement × OrderedSet Requirement ×
    WithBot ℚ × WithBot ℚ

/-- What the map amounts to. -/
def content (m : Depmap) : Content :=
  (m.mappings, m.runtime, m.build, Decimal.optionValue m.runtimeFloor,
    Decimal.optionValue m.buildFloor)

/-- The sets of two maps are equal, and their floors are missing alike or numerically equal. -/
structure Equiv (a b : Depmap) : Prop where
  mappings : a.mappings = b.mappings
  runtime : a.runtime = b.runtime
  build : a.build = b.build
  runtimeFloor : a.runtimeFloor.map Decimal.value = b.runtimeFloor.map Decimal.value
  buildFloor : a.buildFloor.map Decimal.value = b.buildFloor.map Decimal.value

variable {a b c m other : Depmap}

theorem equiv_iff : a.Equiv b ↔ a.content = b.content := by
  simp only [content, Prod.mk.injEq, Decimal.optionValue_eq_iff]
  constructor
  · rintro ⟨hmappings, hruntime, hbuild, hruntimeFloor, hbuildFloor⟩
    exact ⟨hmappings, hruntime, hbuild, hruntimeFloor, hbuildFloor⟩
  · rintro ⟨hmappings, hruntime, hbuild, hruntimeFloor, hbuildFloor⟩
    exact ⟨hmappings, hruntime, hbuild, hruntimeFloor, hbuildFloor⟩

@[simp] theorem content_empty : Depmap.empty.content = ⊥ := rfl

theorem optionValue_joinFloors (current floor : Option Decimal) :
    Decimal.optionValue (joinFloors current floor) =
      Decimal.optionValue current ⊔ Decimal.optionValue floor := by
  cases floor with
  | none => exact (sup_bot_eq _).symm
  | some d => exact Decimal.optionValue_maxOption current d

theorem content_joined (a b : Depmap) : (a.joined b).content = a.content ⊔ b.content := by
  simp only [content, joined, Prod.mk_sup_mk, optionValue_joinFloors]
  rfl

/-- **Merging never fails**, and joins what the maps amount to. -/
theorem merge_eq_ok (hm : m.frozen = false) (hother : other.Reachable) :
    ∃ m', m.merge other = .ok m' ∧ m'.frozen = false ∧ m'.content = m.content ⊔ other.content :=
  ⟨m.joined other, merge_eq hm hother.floorsInRange, hm, content_joined m other⟩

/-- What a coordinate finds after merging is what it finds in either map. -/
theorem lookup_joined (a b : Depmap) (q : Coordinate) :
    (a.joined b).lookup q = (a.lookup q).union (b.lookup q) := by
  refine OrderedSet.ext fun i => ?_
  rw [OrderedSet.mem_union, mem_lookup, mem_lookup, mem_lookup]
  exact OrderedSet.mem_union

end Depmap

end Depot
