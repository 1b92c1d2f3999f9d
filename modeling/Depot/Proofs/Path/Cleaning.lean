import Depot.Path
import Mathlib.Data.List.Infix
/-!
# Cleaning paths

A path is cleaned by its names alone: each `..` goes away together with the name before it. What
stays of `..` stands at the front, and there only in a relative path (`exists_names_clean`), so
what is left of the names is first a way up and then a way down. Names may be cleaned on their own
before they are cleaned as the rest of a longer path (`cleanNames_reverse_append`).

A path is below a root if both are cleaned, and then the path is the root with more names
(`IsBelow`). A relative path that is joined to a root leads below it exactly if it comes back to it
(`isBelow_join_iff`): the way up goes over the last names of the root, and the way down starts with
the same names. From an absolute root it makes no difference how far the way up goes on when there
are no more names.
-/

namespace Depot.Path

/-- The path without `..`, by its names alone. -/
def clean (p : Path) : Path := ⟨p.start, cleanNames p.isAbsolute [] p.names⟩

/-- Is the path below a root, by their names alone? Cleaned, it is the root with more names. -/
def IsBelow (p root : Path) : Prop :=
  ∃ names, names ≠ [] ∧ ".." ∉ names ∧ p.clean = ⟨root.start, root.clean.names ++ names⟩

instance (p root : Path) : Decidable (p.IsBelow root) :=
  decidable_of_iff (∃ names ∈ p.clean.names.tails, names ≠ [] ∧ ".." ∉ names ∧
      p.clean = ⟨root.start, root.clean.names ++ names⟩) <| by
    refine ⟨fun ⟨names, _, h⟩ => ⟨names, h⟩, fun ⟨names, hne, hup, hclean⟩ => ?_⟩
    refine ⟨names, (List.mem_tails _ _).2 ?_, hne, hup, hclean⟩
    rw [hclean]
    exact List.suffix_append _ _

/-- Does the path, seen from a root, come back to it and go further down? It goes up `k` times, and
then down by the names `back`, by which the root is reached again, and by more names. -/
def ComesBackTo (p root : Path) : Prop :=
  ∃ k back names, p.clean.names = List.replicate k ".." ++ (back ++ names) ∧
    names ≠ [] ∧ ".." ∉ back ++ names ∧ back <:+ root.clean.names ∧
    (k = back.length ∨ root.isAbsolute = true ∧ back = root.clean.names ∧ back.length ≤ k)

section Names

variable {absolute : Bool} {kept names more : List String} {name : String}

/-! ### Names one after the other -/

theorem cleanNames_cons_of_ne (h : name ≠ "..") :
    cleanNames absolute kept (name :: names) = cleanNames absolute (name :: kept) names := by
  cases kept <;> exact if_neg h

/-- A name goes away with the `..` after it. -/
theorem cleanNames_cons_up (h : name ≠ "..") :
    cleanNames absolute (name :: kept) (".." :: names) = cleanNames absolute kept names :=
  if_neg h

theorem cleanNames_up_up : cleanNames absolute (".." :: kept) (".." :: names) =
    cleanNames absolute (".." :: ".." :: kept) names := rfl

/-- Names without `..` all stay. -/
theorem cleanNames_of_not_mem (h : ".." ∉ names) :
    cleanNames absolute kept names = kept.reverse ++ names := by
  induction names generalizing kept with
  | nil => rw [cleanNames, List.append_nil]
  | cons name names ih =>
    rw [cleanNames_cons_of_ne (List.ne_of_not_mem_cons h).symm,
      ih (List.not_mem_of_not_mem_cons h), List.reverse_cons, List.append_assoc,
      List.singleton_append]

theorem cleanNames_append : cleanNames absolute kept (names ++ more) =
    cleanNames absolute (cleanNames absolute kept names).reverse more := by
  fun_induction cleanNames absolute kept names with
  | case1 kept => rw [List.nil_append, List.reverse_reverse]
  | case2 names ih => exact ih
  | case3 names before ih => exact ih
  | case4 names last before hlast ih => rw [List.cons_append, cleanNames_cons_up hlast, ih]
  | case5 kept name names hname ih => rw [List.cons_append, cleanNames_cons_of_ne hname, ih]

theorem reverse_cons_append (name : String) (kept names : List String) :
    (name :: kept).reverse ++ names = kept.reverse ++ name :: names := by
  rw [List.reverse_cons, List.append_assoc, List.singleton_append]

/-- Names may be cleaned on their own first, as those of a relative path. In `stack` are the names
that are kept of those before, the last one first. -/
theorem cleanNames_reverse_append (stack : List String) :
    cleanNames absolute kept (stack.reverse ++ names) =
      cleanNames absolute kept (cleanNames false stack names) := by
  induction names generalizing stack with
  | nil => rw [cleanNames, List.append_nil]
  | cons name names ih =>
    -- the cases are those of `cleanNames` on the rest
    by_cases hname : name = ".."
    · subst hname
      cases stack with
      | nil => exact ih [".."]
      | cons last before =>
        by_cases hlast : last = ".."
        · -- the rest has only gone up so far, and goes up once more
          subst hlast
          rw [cleanNames_up_up, ← ih, reverse_cons_append ".." (".." :: before)]
        · -- the last name goes away with the step up, from the longer path as from its rest
          calc cleanNames absolute kept ((last :: before).reverse ++ ".." :: names)
              = cleanNames absolute kept (before.reverse ++ last :: ".." :: names) := by
                rw [reverse_cons_append]
            _ = cleanNames absolute (last :: (cleanNames absolute kept before.reverse).reverse)
                  (".." :: names) := by
                rw [cleanNames_append, cleanNames_cons_of_ne hlast]
            _ = cleanNames absolute kept (before.reverse ++ names) := by
                rw [cleanNames_cons_up hlast, ← cleanNames_append]
            _ = cleanNames absolute kept (cleanNames false before names) := ih before
            _ = cleanNames absolute kept (cleanNames false (last :: before) (".." :: names)) := by
                rw [cleanNames_cons_up hlast]
    · rw [cleanNames_cons_of_ne hname, ← ih, reverse_cons_append]

theorem cleanNames_cleanNames :
    cleanNames absolute kept (cleanNames false [] names) = cleanNames absolute kept names :=
  (cleanNames_reverse_append []).symm

/-! ### What is kept -/

/-- The names that are kept, the last one first: those of a way down, after those of a way up,
which only a relative path has. -/
def IsStack (absolute : Bool) (kept : List String) : Prop :=
  ∃ down k, kept = down ++ List.replicate k ".." ∧ ".." ∉ down ∧ (absolute = true → k = 0)

theorem isStack_nil : IsStack absolute [] := ⟨[], 0, rfl, List.not_mem_nil, fun _ => rfl⟩

theorem isStack_cleanNames (h : IsStack absolute kept) :
    IsStack absolute (cleanNames absolute kept names).reverse := by
  fun_induction cleanNames absolute kept names with
  | case1 kept => rwa [List.reverse_reverse]
  | case2 names ih =>
    -- the first step up is kept, but not at the root of the file tree
    refine ih ?_
    cases absolute with
    | true => exact h
    | false => exact ⟨[], 1, rfl, List.not_mem_nil, fun h => nomatch h⟩
  | case3 names before ih =>
    -- a step up is only the last name that is kept where nothing goes down yet
    obtain ⟨_ | ⟨name, down⟩, k, hkept, hdown, hk⟩ := h
    · refine ih ⟨[], k + 1, ?_, List.not_mem_nil, fun h => ?_⟩
      · rw [hkept]
        rfl
      · rw [hk h] at hkept
        cases hkept
    · cases hkept
      exact absurd List.mem_cons_self hdown
  | case4 names last before hlast ih =>
    obtain ⟨_ | ⟨name, down⟩, k, hkept, hdown, hk⟩ := h
    · refine absurd (List.eq_of_mem_replicate (n := k) ?_) hlast
      rw [← List.nil_append (List.replicate k ".."), ← hkept]
      exact List.mem_cons_self
    · cases hkept
      exact ih ⟨down, k, rfl, List.not_mem_of_not_mem_cons hdown, hk⟩
  | case5 kept name names hname ih =>
    obtain ⟨down, k, rfl, hdown, hk⟩ := h
    refine ih ⟨name :: down, k, rfl, fun h => ?_, hk⟩
    exact (List.mem_cons.1 h).elim (fun h => hname h.symm) hdown

/-! ### The way up -/

variable {back before down : List String} {j k : Nat}

/-- As many steps up as there are names lead over these names. -/
theorem cleanNames_replicate_append (h : ".." ∉ back) :
    cleanNames absolute (back ++ before) (List.replicate back.length ".." ++ names) =
      cleanNames absolute before names := by
  induction back with
  | nil => rfl
  | cons name back ih =>
    rw [List.cons_append, List.length_cons, List.replicate_succ, List.cons_append,
      cleanNames_cons_up (List.ne_of_not_mem_cons h).symm, ih (List.not_mem_of_not_mem_cons h)]

/-- At the root of the file tree, steps up lead nowhere else. -/
theorem cleanNames_true_replicate_append :
    cleanNames true [] (List.replicate k ".." ++ names) = cleanNames true [] names := by
  induction k with
  | zero => rfl
  | succ k ih => exact ih

/-- Where a relative path has only gone up so far, more steps up are kept too. -/
theorem cleanNames_false_replicate_append :
    cleanNames false (List.replicate j "..") (List.replicate k ".." ++ names) =
      cleanNames false (List.replicate (j + k) "..") names := by
  induction k generalizing j with
  | zero => rfl
  | succ k ih =>
    rw [List.replicate_succ, List.cons_append, ← Nat.add_assoc, Nat.add_right_comm, ← ih]
    cases j <;> rfl

/-- Some steps up and the names of a way down lead through the names that were kept. Either they go
over the last ones of them, or over all. In the latter case only the way down is left from the root
of the file tree, and a relative path goes up more often than it did before. -/
theorem climb_cases (hkept : IsStack absolute kept) (hdown : ".." ∉ down) :
    (∃ back before, kept = back ++ before ∧ back.length = k ∧
      cleanNames absolute kept (List.replicate k ".." ++ down) = before.reverse ++ down) ∨
    (absolute = true ∧ kept.length ≤ k ∧
      cleanNames absolute kept (List.replicate k ".." ++ down) = down) ∨
    ∃ j, kept.count ".." < j ∧
      cleanNames absolute kept (List.replicate k ".." ++ down) = List.replicate j ".." ++ down := by
  obtain ⟨names, j, rfl, hnames, hj⟩ := hkept
  by_cases hk : k ≤ names.length
  · -- there are names enough to go up over
    obtain ⟨back, before, rfl, hback⟩ : ∃ back before, names = back ++ before ∧ back.length = k :=
      ⟨names.take k, names.drop k, (List.take_append_drop k names).symm, List.length_take_of_le hk⟩
    refine .inl ⟨back, before ++ List.replicate j "..", List.append_assoc _ _ _, hback, ?_⟩
    rw [← hback, List.append_assoc,
      cleanNames_replicate_append fun h => hnames (List.mem_append_left before h),
      cleanNames_of_not_mem hdown]
  · -- over all names of the way down, and then as often as is left
    obtain ⟨rest, rfl⟩ := Nat.exists_eq_add_of_lt (Nat.lt_of_not_le hk)
    have hclimb : cleanNames absolute (names ++ List.replicate j "..")
        (List.replicate (names.length + rest + 1) ".." ++ down) =
        cleanNames absolute (List.replicate j "..") (List.replicate (rest + 1) ".." ++ down) := by
      rw [Nat.add_assoc, List.replicate_add, List.append_assoc]
      exact cleanNames_replicate_append hnames
    rw [hclimb]
    -- above the root it goes no further up, elsewhere the steps up remain
    cases absolute with
    | true =>
      obtain rfl := hj rfl
      refine .inr (.inl ⟨rfl, by simp; omega, ?_⟩)
      exact cleanNames_true_replicate_append.trans (cleanNames_of_not_mem hdown)
    | false =>
      refine .inr (.inr ⟨j + (rest + 1), ?_, ?_⟩)
      · simp [List.count_eq_zero.2 hnames]
      · rw [cleanNames_false_replicate_append, cleanNames_of_not_mem hdown, List.reverse_replicate]

/-- Where the names that were kept are reached again and gone on from, the way down starts with what
the way up went over. -/
theorem exists_back_of_climb (hkept : IsStack absolute kept) (hdown : ".." ∉ down)
    (hmore : ".." ∉ more)
    (h : cleanNames absolute kept (List.replicate k ".." ++ down) = kept.reverse ++ more) :
    ∃ back, down = back ++ more ∧ back <:+ kept.reverse ∧
      (k = back.length ∨ absolute = true ∧ back = kept.reverse ∧ back.length ≤ k) := by
  rcases climb_cases (k := k) hkept hdown with
    ⟨back, before, rfl, hback, hclean⟩ | ⟨habsolute, hk, hclean⟩ | ⟨j, hj, hclean⟩
  · rw [hclean, List.reverse_append, List.append_assoc] at h
    refine ⟨back.reverse, List.append_cancel_left h, ?_, .inl ?_⟩
    · rw [List.reverse_append]
      exact List.suffix_append _ _
    · rw [List.length_reverse, hback]
  · refine ⟨kept.reverse, hclean.symm.trans h, List.suffix_refl _, .inr ⟨habsolute, rfl, ?_⟩⟩
    rwa [List.length_reverse]
  · -- there would be more steps up in the path than in the root
    have hcount := congrArg (List.count "..") (hclean.symm.trans h)
    simp [List.count_eq_zero.2 hdown, List.count_eq_zero.2 hmore] at hcount
    omega

/-- What the way up goes over is reached again, if the way down starts with it. -/
theorem climb_eq_of_back {back : List String} (hback : ".." ∉ back) (hmore : ".." ∉ more)
    (hsuffix : back <:+ kept.reverse)
    (hk : k = back.length ∨ absolute = true ∧ back = kept.reverse ∧ back.length ≤ k) :
    cleanNames absolute kept (List.replicate k ".." ++ (back ++ more)) = kept.reverse ++ more := by
  have hup : ".." ∉ back.reverse := fun h => hback (List.mem_reverse.1 h)
  have hdown : ".." ∉ back ++ more := fun h => (List.mem_append.1 h).elim hback hmore
  obtain ⟨before, hbefore⟩ := hsuffix
  obtain rfl : kept = back.reverse ++ before.reverse := by
    rw [← List.reverse_append, hbefore, List.reverse_reverse]
  rcases hk with rfl | ⟨rfl, hall, hk⟩
  · rw [← List.length_reverse, cleanNames_replicate_append hup, cleanNames_of_not_mem hdown]
    simp
  · -- the way up goes over all names, and what is left of it leads nowhere else
    obtain ⟨rest, rfl⟩ := Nat.exists_eq_add_of_le hk
    obtain rfl : before = [] := by simpa using hall
    rw [List.replicate_add, List.append_assoc, ← List.length_reverse,
      cleanNames_replicate_append hup, List.reverse_nil, cleanNames_true_replicate_append,
      cleanNames_of_not_mem hdown]
    simp

end Names

/-! ### Below a root -/

variable {root file : Path}

/-- The names of a cleaned path are first a way up and then a way down. -/
theorem exists_names_clean (p : Path) : ∃ k down,
    p.clean.names = List.replicate k ".." ++ down ∧ ".." ∉ down := by
  have hkept : IsStack p.isAbsolute p.clean.names.reverse := isStack_cleanNames isStack_nil
  obtain ⟨down, k, hstack, hdown, -⟩ := hkept
  refine ⟨k, down.reverse, ?_, fun h => hdown (List.mem_reverse.1 h)⟩
  rw [← List.reverse_replicate, ← List.reverse_append, ← hstack, List.reverse_reverse]

/-- A relative path may be cleaned before it is joined to a root. -/
theorem clean_join (h : file.isAbsolute = false) : (root.join file).clean =
    ⟨root.start, cleanNames root.isAbsolute root.clean.names.reverse file.clean.names⟩ := by
  have hfile : file.clean.names = cleanNames false [] file.names := by
    rw [← h]
    rfl
  have hnames : cleanNames root.isAbsolute [] (root.names ++ file.names) =
      cleanNames root.isAbsolute root.clean.names.reverse file.clean.names :=
    calc cleanNames root.isAbsolute [] (root.names ++ file.names)
        = cleanNames root.isAbsolute root.clean.names.reverse file.names := cleanNames_append
      _ = cleanNames root.isAbsolute root.clean.names.reverse file.clean.names := by
          rw [hfile, cleanNames_cleanNames]
  have hjoin : root.join file = ⟨root.start, root.names ++ file.names⟩ := by simp [join, h]
  rw [hjoin, ← hnames]
  rfl

/-- **Below a root.** A relative path that is joined to a root leads below it exactly if it comes
back to it. -/
theorem isBelow_join_iff (h : file.isAbsolute = false) :
    (root.join file).IsBelow root ↔ file.ComesBackTo root := by
  -- the names of the root as they are kept when the path goes on from there
  obtain ⟨kept, hkept, hroot⟩ : ∃ kept, IsStack root.isAbsolute kept ∧
      root.clean.names = kept.reverse :=
    ⟨_, isStack_cleanNames isStack_nil, (List.reverse_reverse _).symm⟩
  unfold IsBelow ComesBackTo
  rw [clean_join h, hroot, List.reverse_reverse]
  constructor
  · rintro ⟨names, hne, hup, heq⟩
    obtain ⟨k, down, hfile, hdown⟩ := file.exists_names_clean
    rw [hfile, mk.injEq] at heq
    obtain ⟨back, rfl, hsuffix, hk⟩ := exists_back_of_climb hkept hdown hup heq.2
    exact ⟨k, back, names, hfile, hne, hdown, hsuffix, hk⟩
  · rintro ⟨k, back, names, hfile, hne, hdown, hsuffix, hk⟩
    have hback : ".." ∉ back := fun h => hdown (List.mem_append_left names h)
    have hup : ".." ∉ names := fun h => hdown (List.mem_append_right back h)
    refine ⟨names, hne, hup, ?_⟩
    rw [hfile, climb_eq_of_back hback hup hsuffix hk]

/-- A relative path without `..` goes down only. -/
theorem comesBackTo_of_not_mem (h : ".." ∉ file.names) (hne : file.names ≠ []) :
    file.ComesBackTo root := by
  have hclean : file.clean.names = file.names := cleanNames_of_not_mem h
  exact ⟨0, [], file.names, hclean, hne, h, List.nil_suffix, .inl rfl⟩

example : (ofText "/r/../r/a").IsBelow (ofText "/r") := by decide
example : ¬ (ofText "/r/../a").IsBelow (ofText "/r") := by decide

end Depot.Path
