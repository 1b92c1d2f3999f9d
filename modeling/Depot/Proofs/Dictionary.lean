import Depot.Dictionary
import Mathlib.Data.List.Induction
import Mathlib.Data.List.Nodup
/-!
# Entries of dictionaries

A dictionary whose names are distinct has each name with the value that it is set to
(`mem_iff_get?`). Entries that are set one after the other take the place of those of their names,
and leave the others as they are (`get?_foldl_put`).

Members that are set under their names one after the other make a dictionary, whatever names they
have (`ofMembers`). Of several members with one name the last counts (`get?_ofMembers_eq_some_iff`).
-/

namespace Depot

/-! ### Last members -/

/-- The member is the last of the list that has the property. -/
def IsLast {α : Type} (P : α → Prop) (as : List α) (a : α) : Prop :=
  ∃ before after, as = before ++ a :: after ∧ (∀ b ∈ after, ¬ P b) ∧ P a

theorem not_isLast_nil {α : Type} {P : α → Prop} (a : α) : ¬ IsLast P [] a := by
  rintro ⟨before, after, h, -⟩
  exact List.append_ne_nil_of_right_ne_nil _ (List.cons_ne_nil _ _) h.symm

/-- The last member of a list is the one at its end, or the last of the others if that does not have
the property. -/
theorem isLast_concat_iff {α : Type} {P : α → Prop} {a b : α} {as : List α} :
    IsLast P (as ++ [a]) b ↔ P a ∧ a = b ∨ ¬ P a ∧ IsLast P as b := by
  constructor
  · rintro ⟨before, after, h, hafter, hb⟩
    rcases List.eq_nil_or_concat after with rfl | ⟨after, c, rfl⟩
    · obtain ⟨-, hab⟩ := List.append_inj' h rfl
      obtain rfl := List.singleton_inj.1 hab
      exact .inl ⟨hb, rfl⟩
    · -- the member at the end comes after the one that is meant
      rw [List.concat_eq_append, ← List.cons_append, ← List.append_assoc] at h
      obtain ⟨rfl, hac⟩ := List.append_inj' h rfl
      obtain rfl := List.singleton_inj.1 hac
      rw [List.concat_eq_append, List.forall_mem_append, List.forall_mem_singleton] at hafter
      exact .inr ⟨hafter.2, before, after, rfl, hafter.1, hb⟩
  · rintro (⟨ha, rfl⟩ | ⟨ha, before, after, rfl, hafter, hb⟩)
    · exact ⟨as, [], rfl, List.forall_mem_nil _, ha⟩
    · refine ⟨before, after ++ [a], by simp, ?_, hb⟩
      rw [List.forall_mem_append, List.forall_mem_singleton]
      exact ⟨hafter, ha⟩

namespace Dictionary

variable {α β γ : Type}

/-! ### The value of a name -/

theorem get?_cons (other : String) (v : α) (d : Dictionary α) (name : String) :
    get? ((other, v) :: d) name = if other = name then some v else get? d name := by
  by_cases h : other = name <;> simp [get?, h]

/-- A name is set exactly if it has a value. -/
theorem mem_names_iff {d : Dictionary α} {name : String} :
    name ∈ names d ↔ ∃ v, get? d name = some v := by
  induction d with
  | nil => exact iff_of_false (fun h => nomatch h) fun ⟨_, h⟩ => nomatch h
  | cons entry d ih =>
    obtain ⟨other, v⟩ := entry
    rw [names_cons, List.mem_cons, ih]
    simp only [get?_cons]
    by_cases h : other = name
    · simp [h]
    · simp [h, Ne.symm h]

theorem has_iff {d : Dictionary α} {name : String} : has d name = true ↔ name ∈ names d := by
  simp only [has, List.any_eq_true, beq_iff_eq, names, List.mem_map]

theorem get?_eq_none {d : Dictionary α} {name : String} (h : name ∉ names d) :
    get? d name = none := by
  rw [Option.eq_none_iff_forall_ne_some]
  exact fun v hv => h (mem_names_iff.2 ⟨v, hv⟩)

/-- With distinct names, each one has the value that it is set to. -/
theorem mem_iff_get? {d : Dictionary α} (hd : (names d).Nodup) {name : String} {v : α} :
    (name, v) ∈ d ↔ get? d name = some v := by
  induction d with
  | nil => exact iff_of_false (fun h => nomatch h) fun h => nomatch h
  | cons entry d ih =>
    obtain ⟨other, w⟩ := entry
    obtain ⟨hother, hd⟩ := List.nodup_cons.1 hd
    rw [List.mem_cons, ih hd, get?_cons, Prod.mk.injEq]
    by_cases h : other = name
    · subst h
      simp [get?_eq_none hother, eq_comm]
    · simp [h, Ne.symm h]

/-- With the same names in the same order, and the same values, dictionaries are the same. -/
theorem ext_get? {d d' : Dictionary α} (hnames : names d = names d') (hd : (names d).Nodup)
    (hget : ∀ name, get? d name = get? d' name) : d = d' := by
  induction d generalizing d' with
  | nil => exact (List.map_eq_nil_iff.1 hnames.symm).symm
  | cons entry d ih =>
    obtain ⟨name, v⟩ := entry
    cases d' with
    | nil => exact nomatch hnames
    | cons entry' d' =>
      obtain ⟨name', v'⟩ := entry'
      obtain ⟨hhead, htail⟩ := List.cons.inj hnames
      obtain rfl : name = name' := hhead
      replace htail : names d = names d' := htail
      obtain ⟨hnew, hd⟩ := List.nodup_cons.1 hd
      have hnew' : name ∉ names d' := htail ▸ hnew
      have hv : v = v' := by
        have hname := hget name
        rw [get?_cons, if_pos rfl, get?_cons, if_pos rfl] at hname
        exact Option.some.inj hname
      -- the first name is not among the others, so it does not matter below
      have hrest : d = d' := by
        refine ih htail hd fun other => ?_
        by_cases hother : name = other
        · rw [← hother, get?_eq_none hnew, get?_eq_none hnew']
        · have h := hget other
          rwa [get?_cons, if_neg hother, get?_cons, if_neg hother] at h
      rw [hv, hrest]

/-- Entries with their values changed keep their names. -/
theorem names_map (f : α → β) (d : Dictionary α) :
    names (d.map fun entry => (entry.1, f entry.2)) = names d := by
  rw [names, List.map_map]
  rfl

theorem get?_map (f : α → β) (d : Dictionary α) (name : String) :
    get? (d.map fun entry => (entry.1, f entry.2)) name = (get? d name).map f := by
  rw [get?, List.find?_map, get?, Option.map_map, Option.map_map]
  rfl

/-- What is left of the names that pass. -/
theorem get?_filter (p : String → Bool) (d : Dictionary α) (name : String) :
    get? (d.filter fun entry => p entry.1) name = if p name then get? d name else none := by
  induction d with
  | nil => exact (ite_self none).symm
  | cons entry d ih =>
    obtain ⟨other, v⟩ := entry
    rw [List.filter_cons, get?_cons]
    by_cases h : other = name
    · subst h
      cases hp : p other <;> simp only [hp, if_true, Bool.false_eq_true, if_false] at ih ⊢
      · exact ih
      · rw [get?_cons, if_pos rfl]
    · rw [if_neg h]
      split
      · rw [get?_cons, if_neg h, ih]
      · exact ih

/-! ### Setting names -/

/-- A name that is new is set at the end. -/
theorem put_of_not_mem {d : Dictionary α} {name : String} (h : name ∉ names d) (v : α) :
    put d name v = d ++ [(name, v)] := by
  induction d with
  | nil => rfl
  | cons entry d ih =>
    rw [names_cons, List.mem_cons, not_or] at h
    rw [put, if_neg (Ne.symm h.1), ih h.2]
    rfl

theorem mem_names_put {d : Dictionary α} {name other : String} {v : α} :
    other ∈ names (put d name v) ↔ other = name ∨ other ∈ names d := by
  rw [names_put]
  split
  · next h => exact ⟨.inr, Or.rec (fun heq => heq ▸ h) id⟩
  · rw [List.mem_append, List.mem_singleton, or_comm]

/-- Setting names keeps them distinct. -/
theorem nodup_names_put {d : Dictionary α} (hd : (names d).Nodup) (name : String) (v : α) :
    (names (put d name v)).Nodup := by
  rw [names_put]
  split
  · exact hd
  · next h =>
    exact hd.append (List.nodup_singleton name) (List.disjoint_singleton.2 h)

/-- **Entries set one after the other** take the place of those of their names. -/
theorem get?_foldl_put (f : β → α) {entries : Dictionary β} (hentries : (names entries).Nodup)
    (d : Dictionary α) (name : String) :
    get? (entries.foldl (fun d entry => put d entry.1 (f entry.2)) d) name =
      ((get? entries name).map f).or (get? d name) := by
  induction entries generalizing d with
  | nil => rfl
  | cons entry entries ih =>
    obtain ⟨other, v⟩ := entry
    obtain ⟨hother, hentries⟩ := List.nodup_cons.1 hentries
    rw [List.foldl_cons, ih hentries, get?_put, get?_cons]
    by_cases h : other = name
    · subst h
      rw [get?_eq_none hother, if_pos rfl, if_pos rfl]
      rfl
    · rw [if_neg h, if_neg h]

theorem mem_names_foldl_put (f : β → α) {entries : Dictionary β} {d : Dictionary α}
    {name : String} :
    name ∈ names (entries.foldl (fun d entry => put d entry.1 (f entry.2)) d) ↔
      name ∈ names entries ∨ name ∈ names d := by
  induction entries generalizing d with
  | nil => exact ⟨.inr, Or.rec (fun h => nomatch h) id⟩
  | cons entry entries ih =>
    rw [List.foldl_cons, ih, mem_names_put, names_cons, List.mem_cons, ← or_assoc,
      or_comm (a := name ∈ names entries)]

theorem nodup_names_foldl_put (f : β → α) (entries : Dictionary β) {d : Dictionary α}
    (hd : (names d).Nodup) :
    (names (entries.foldl (fun d entry => put d entry.1 (f entry.2)) d)).Nodup := by
  induction entries generalizing d with
  | nil => exact hd
  | cons entry entries ih => exact ih (nodup_names_put hd _ _)

/-! ### Members under their names -/

/-- The dictionary of members, set one after the other. -/
def ofMembers (key : γ → String) (value : γ → α) (members : List γ) : Dictionary α :=
  members.foldl (fun d m => put d (key m) (value m)) []

variable {key : γ → String} {value : γ → α}

theorem ofMembers_concat (members : List γ) (m : γ) :
    ofMembers key value (members ++ [m]) = put (ofMembers key value members) (key m) (value m) := by
  rw [ofMembers, List.foldl_append, List.foldl_cons, List.foldl_nil]
  rfl

/-- The names are those of the members, each where it comes first. -/
theorem names_ofMembers (members : List γ) :
    names (ofMembers key value members) = (members.map key).eraseDups := by
  -- on the last member, since a new name goes to the end
  induction members using List.reverseRecOn with
  | nil => rfl
  | append_singleton members m ih =>
    have hnew : [key m].removeAll (members.map key) =
        if key m ∈ members.map key then [] else [key m] := by
      rw [List.removeAll, List.filter_singleton, List.elem_eq_mem]
      by_cases h : key m ∈ members.map key <;> simp only [h, decide_true, decide_false] <;> rfl
    rw [ofMembers_concat, names_put, ih, List.map_append, List.map_singleton, List.eraseDups_append,
      hnew]
    by_cases h : key m ∈ members.map key
    · rw [if_pos (List.mem_eraseDups.2 h), if_pos h]
      exact (List.append_nil _).symm
    · rw [if_neg fun hmem => h (List.mem_eraseDups.1 hmem), if_neg h]
      rfl

theorem nodup_names_ofMembers (members : List γ) :
    (names (ofMembers key value members)).Nodup := by
  induction members using List.reverseRecOn with
  | nil => exact List.nodup_nil
  | append_singleton members m ih =>
    rw [ofMembers_concat]
    exact nodup_names_put ih _ _

/-- **Of several members with one name the last counts.** -/
theorem get?_ofMembers_eq_some_iff {members : List γ} {name : String} {v : α} :
    get? (ofMembers key value members) name = some v ↔
      ∃ m, IsLast (key · = name) members m ∧ value m = v := by
  induction members using List.reverseRecOn with
  | nil => exact iff_of_false (fun h => nomatch h) fun ⟨m, h, _⟩ => not_isLast_nil m h
  | append_singleton members m ih =>
    rw [ofMembers_concat, get?_put]
    simp only [isLast_concat_iff]
    by_cases h : key m = name
    · simp [h]
    · simp [h, ih]

/-- With distinct names each member has its own. -/
theorem get?_ofMembers_eq_some_iff_of_nodup {members : List γ} (h : (members.map key).Nodup)
    {name : String} {v : α} :
    get? (ofMembers key value members) name = some v ↔
      ∃ m ∈ members, key m = name ∧ value m = v := by
  rw [get?_ofMembers_eq_some_iff]
  constructor
  · rintro ⟨m, ⟨before, after, rfl, -, hname⟩, hv⟩
    exact ⟨m, List.mem_append_right before List.mem_cons_self, hname, hv⟩
  · rintro ⟨m, hm, rfl, hv⟩
    obtain ⟨before, after, rfl⟩ := List.append_of_mem hm
    refine ⟨m, ⟨before, after, rfl, fun other hother hname => ?_, rfl⟩, hv⟩
    -- a member after it with its name would be there twice
    rw [List.map_append, List.map_cons, List.nodup_append] at h
    exact (List.nodup_cons.1 h.2.1).1 (hname ▸ List.mem_map_of_mem hother)

end Dictionary

end Depot
