/-!
# Ordered sets

A set of values that are listed in order. A value is ranked by a list of texts of fixed length, by
which it is ordered, text by text and by code point within a text. The set keeps its members
strictly in the order of their ranks, so two sets with the same members are equal
(`OrderedSet.ext`), and every law about sets is a law about membership.
-/

namespace Depot

/-- Values that are told apart and ordered by a fixed number of texts. -/
class Ranked (α : Type) where
  rank : α → List String
  width : Nat
  length_rank : ∀ a, (rank a).length = width
  rank_injective : ∀ {a b}, rank a = rank b → a = b

export Ranked (rank)

/-- Pairs are ordered by their first parts, and for equal ones by their second. -/
instance {α β : Type} [Ranked α] [Ranked β] : Ranked (α × β) where
  rank p := rank p.1 ++ rank p.2
  width := Ranked.width α + Ranked.width β
  length_rank p := by simp [Ranked.length_rank]
  rank_injective := by
    intro p q h
    have hlen : (rank p.1).length = (rank q.1).length := by simp [Ranked.length_rank]
    obtain ⟨h1, h2⟩ := List.append_inj h hlen
    exact Prod.ext (Ranked.rank_injective h1) (Ranked.rank_injective h2)

/-- A set of values, listed strictly in order. -/
structure OrderedSet (α : Type) [Ranked α] where
  toList : List α
  sorted : toList.Pairwise fun a b => rank a < rank b

namespace OrderedSet

variable {α : Type} [Ranked α]

instance : Membership α (OrderedSet α) := ⟨fun s a => a ∈ s.toList⟩

theorem mem_def {a : α} {s : OrderedSet α} : a ∈ s ↔ a ∈ s.toList := Iff.rfl

/-- The set without members. -/
def empty : OrderedSet α := ⟨[], List.Pairwise.nil⟩

instance : Inhabited (OrderedSet α) := ⟨empty⟩

@[simp] theorem not_mem_empty (a : α) : ¬ a ∈ (empty : OrderedSet α) := by simp [mem_def, empty]

/-- Adds a value to a list in its place, unless it is there. -/
def insertList (a : α) : List α → List α
  | [] => [a]
  | b :: bs =>
    if rank a < rank b then a :: b :: bs
    else if rank b < rank a then b :: insertList a bs
    else b :: bs

/-- Values of which neither comes first are equal. -/
theorem eq_of_not_lt {a b : α} (hab : ¬ rank a < rank b) (hba : ¬ rank b < rank a) : a = b :=
  Ranked.rank_injective (Std.le_antisymm (Std.not_lt.1 hba) (Std.not_lt.1 hab))

theorem mem_insertList {a b : α} {bs : List α} : b ∈ insertList a bs ↔ b = a ∨ b ∈ bs := by
  induction bs with
  | nil => simp [insertList]
  | cons c bs ih =>
    simp only [insertList]
    split
    · simp
    · split
      · simp only [List.mem_cons, ih]
        constructor
        · rintro (h | h | h) <;> simp [h]
        · rintro (h | h | h) <;> simp [h]
      · next hac hca =>
        have := eq_of_not_lt hac hca
        subst this
        simp

theorem pairwise_insertList {a : α} {bs : List α} (h : bs.Pairwise fun a b => rank a < rank b) :
    (insertList a bs).Pairwise fun a b => rank a < rank b := by
  induction bs with
  | nil => simp [insertList]
  | cons b bs ih =>
    rw [List.pairwise_cons] at h
    simp only [insertList]
    -- the element goes before the first greater one
    split
    · next hab =>
      refine List.pairwise_cons.2 ⟨?_, List.pairwise_cons.2 h⟩
      intro c hc
      rcases List.mem_cons.1 hc with rfl | hc
      · exact hab
      · exact Std.lt_trans hab (h.1 c hc)
    · split
      · next hba =>
        refine List.pairwise_cons.2 ⟨?_, ih h.2⟩
        intro c hc
        rcases mem_insertList.1 hc with rfl | hc
        · exact hba
        · exact h.1 c hc
      · exact List.pairwise_cons.2 h

/-- The set with one more member. -/
def insert (a : α) (s : OrderedSet α) : OrderedSet α :=
  ⟨insertList a s.toList, pairwise_insertList s.sorted⟩

@[simp] theorem mem_insert {a b : α} {s : OrderedSet α} : b ∈ s.insert a ↔ b = a ∨ b ∈ s :=
  mem_insertList

/-- The set of the values of a list. -/
def ofList (as : List α) : OrderedSet α := as.foldr insert empty

@[simp] theorem mem_ofList {a : α} {as : List α} : a ∈ (ofList as : OrderedSet α) ↔ a ∈ as := by
  induction as with
  | nil => simp [ofList]
  | cons b as ih =>
    have : (ofList (b :: as) : OrderedSet α) = (ofList as).insert b := rfl
    rw [this, mem_insert, ih, List.mem_cons]

/-- The members of either set. -/
def union (s t : OrderedSet α) : OrderedSet α := t.toList.foldr insert s

@[simp] theorem mem_union {a : α} {s t : OrderedSet α} : a ∈ s.union t ↔ a ∈ s ∨ a ∈ t := by
  have h : ∀ as : List α, a ∈ (as.foldr insert s : OrderedSet α) ↔ a ∈ s ∨ a ∈ as := by
    intro as
    induction as with
    | nil => simp
    | cons b as ih =>
      rw [List.foldr_cons, mem_insert, ih, List.mem_cons]
      constructor
      · rintro (h | h | h) <;> simp [h]
      · rintro (h | h | h) <;> simp [h]
  exact h t.toList

/-- The members for which a test holds. -/
def filter (p : α → Bool) (s : OrderedSet α) : OrderedSet α :=
  ⟨s.toList.filter p, s.sorted.filter p⟩

@[simp] theorem mem_filter {a : α} {p : α → Bool} {s : OrderedSet α} :
    a ∈ s.filter p ↔ a ∈ s ∧ p a = true := List.mem_filter

/-- Has the set no members? -/
def isEmpty (s : OrderedSet α) : Bool := s.toList.isEmpty

/-- The number of members. -/
def size (s : OrderedSet α) : Nat := s.toList.length

/-- Is the value a member? -/
def contains (s : OrderedSet α) (a : α) : Bool := s.toList.any fun b => rank b == rank a

@[simp] theorem contains_iff {a : α} {s : OrderedSet α} : s.contains a = true ↔ a ∈ s := by
  simp only [contains, List.any_eq_true, beq_iff_eq, mem_def]
  constructor
  · rintro ⟨b, hb, h⟩
    exact Ranked.rank_injective h ▸ hb
  · intro h
    exact ⟨a, h, rfl⟩

/-- Lists in order with the same members are equal. -/
theorem eq_of_pairwise {as bs : List α} (ha : as.Pairwise fun a b => rank a < rank b)
    (hb : bs.Pairwise fun a b => rank a < rank b) (h : ∀ a, a ∈ as ↔ a ∈ bs) : as = bs := by
  -- both lists have the least member in front, so the heads agree
  induction as generalizing bs with
  | nil =>
    cases bs with
    | nil => rfl
    | cons b bs => exact absurd ((h b).2 List.mem_cons_self) (by simp)
  | cons a as ih =>
    cases bs with
    | nil => exact absurd ((h a).1 List.mem_cons_self) (by simp)
    | cons b bs =>
      rw [List.pairwise_cons] at ha hb
      have hab : a = b := by
        rcases List.mem_cons.1 ((h a).1 List.mem_cons_self) with hab | hab
        · exact hab
        · rcases List.mem_cons.1 ((h b).2 List.mem_cons_self) with hba | hba
          · exact hba.symm
          · exact absurd (Std.lt_trans (ha.1 b hba) (hb.1 a hab)) Std.lt_irrefl
      subst hab
      -- the head is in neither tail, so the tails have the same members as well
      refine congrArg (a :: ·) (ih ha.2 hb.2 fun c => ?_)
      constructor
      · intro hc
        rcases List.mem_cons.1 ((h c).1 (List.mem_cons_of_mem a hc)) with rfl | h'
        · exact absurd (ha.1 c hc) Std.lt_irrefl
        · exact h'
      · intro hc
        rcases List.mem_cons.1 ((h c).2 (List.mem_cons_of_mem a hc)) with rfl | h'
        · exact absurd (hb.1 c hc) Std.lt_irrefl
        · exact h'

/-- Sets with the same members are equal. -/
theorem ext {s t : OrderedSet α} (h : ∀ a, a ∈ s ↔ a ∈ t) : s = t := by
  cases s with
  | mk as ha =>
    cases t with
    | mk bs hb =>
      have := eq_of_pairwise ha hb h
      subst this
      rfl

end OrderedSet

end Depot
