import Mathlib.Data.List.Forall2
/-!
# Outcomes

What is read or asked for comes to a value or to an error. These lemmas tell what outcomes that are
put together come to. A value needs values of all parts, and that of a list has one for each member
(`mapM_eq_ok_iff`). An error comes from the part that fails, if the rest cannot fail so, and in a
list from one of its members.
-/

namespace Depot

variable {ε α β : Type}

/-- An error is no value. -/
theorem error_ne_ok {e : ε} {a : α} : (.error e : Except ε α) ≠ .ok a := by
  intro h
  cases h

/-- What has a value comes to it. -/
theorem eq_ok_of_toOption {outcome : Except ε α} {a : α}
    (h : outcome.toOption = some a) : outcome = .ok a := by
  cases outcome with
  | error e => cases h
  | ok b => exact congrArg _ (Option.some.inj h)

/-- The whole comes to a value exactly if the first part does, and the rest for what that is. -/
theorem bind_eq_ok_iff {outcome : Except ε α} {follow : α → Except ε β} {b : β} :
    (outcome >>= follow) = .ok b ↔ ∃ a, outcome = .ok a ∧ follow a = .ok b := by
  cases outcome with
  | error e => exact iff_of_false (fun h => nomatch h) fun ⟨_, h, _⟩ => nomatch h
  | ok a => exact ⟨fun h => ⟨a, rfl, h⟩, fun ⟨_, ha, h⟩ => Except.ok.inj ha ▸ h⟩

/-- If the rest does not fail with an error, the whole fails with it exactly if the first part
does. -/
theorem bind_eq_error_iff {outcome : Except ε α} {follow : α → Except ε β} {e : ε}
    (h : ∀ a, follow a ≠ .error e) : (outcome >>= follow) = .error e ↔ outcome = .error e := by
  cases outcome with
  | error other =>
    -- the rest is not reached, so both sides say that the first error is this one
    constructor
    · intro heq
      exact congrArg _ (Except.error.inj heq)
    · intro heq
      cases heq
      rfl
  | ok a => exact iff_of_false (h a) (fun heq => nomatch heq)

theorem map_eq_ok_iff {outcome : Except ε α} {f : α → β} {b : β} :
    outcome.map f = .ok b ↔ ∃ a, outcome = .ok a ∧ f a = b := by
  cases outcome <;> simp [Except.map]

theorem mapError_eq_ok_iff {δ : Type} {outcome : Except ε α} {f : ε → δ} {a : α} :
    outcome.mapError f = .ok a ↔ outcome = .ok a := by
  cases outcome <;> simp [Except.mapError]

/-- A list of readings comes to the values of its members, in order. -/
theorem mapM_eq_ok_iff {f : α → Except ε β} {as : List α} {bs : List β} :
    as.mapM f = .ok bs ↔ List.Forall₂ (fun a b => f a = .ok b) as bs := by
  induction as generalizing bs with
  | nil =>
    rw [List.mapM_nil, List.forall₂_nil_left_iff]
    exact (Except.ok.injEq _ _).to_iff.trans eq_comm
  | cons a as ih =>
    simp only [List.mapM_cons, List.forall₂_cons_left_iff, bind_eq_ok_iff, ih]
    constructor
    · rintro ⟨b, hb, bs, hbs, ⟨⟩⟩
      exact ⟨b, bs, hb, hbs, rfl⟩
    · rintro ⟨b, bs, hb, hbs, rfl⟩
      exact ⟨b, hb, bs, hbs, rfl⟩

/-- All members of a list have partners exactly if each of them has one. -/
theorem exists_forall₂_iff {R : α → β → Prop} {as : List α} :
    (∃ bs, List.Forall₂ R as bs) ↔ ∀ a ∈ as, ∃ b, R a b := by
  induction as with
  | nil => exact iff_of_true ⟨[], .nil⟩ (List.forall_mem_nil _)
  | cons a as ih =>
    rw [List.forall_mem_cons, ← ih]
    constructor
    · rintro ⟨_, h⟩
      cases h with
      | cons hb hbs => exact ⟨⟨_, hb⟩, _, hbs⟩
    · rintro ⟨⟨b, hb⟩, bs, hbs⟩
      exact ⟨b :: bs, .cons hb hbs⟩

/-- The partners of a list are those of its members. -/
theorem mem_iff_of_forall₂ {f : α → Except ε β} {as : List α} {bs : List β}
    (h : List.Forall₂ (fun a b => f a = .ok b) as bs) {b : β} :
    b ∈ bs ↔ ∃ a ∈ as, f a = .ok b := by
  induction h with
  | nil => simp
  | cons ha _ ih => simp [ih, ha, eq_comm]

/-- What all partners have in common. -/
theorem forall_mem_of_forall₂ {R : α → β → Prop} {P : β → Prop} {as : List α} {bs : List β}
    (h : List.Forall₂ R as bs) (hR : ∀ a b, R a b → P b) : ∀ b ∈ bs, P b := by
  induction h with
  | nil => exact List.forall_mem_nil _
  | cons hb _ ih => exact List.forall_mem_cons.2 ⟨hR _ _ hb, ih⟩

/-- An error of a list of readings is one of its members'. -/
theorem exists_of_mapM_eq_error {f : α → Except ε β} {as : List α} {e : ε}
    (h : as.mapM f = .error e) : ∃ a ∈ as, f a = .error e := by
  induction as with
  | nil => cases h
  | cons a as ih =>
    rw [List.mapM_cons] at h
    cases hfirst : f a with
    | error other =>
      rw [hfirst] at h
      cases h
      exact ⟨a, List.mem_cons_self, hfirst⟩
    | ok b =>
      -- the first entry went well, so the failure is one of the others
      cases hrest : as.mapM f with
      | error other =>
        rw [hfirst, hrest] at h
        cases h
        obtain ⟨c, hc, herror⟩ := ih hrest
        exact ⟨c, List.mem_cons_of_mem a hc, herror⟩
      | ok bs =>
        rw [hfirst, hrest] at h
        cases h

end Depot
