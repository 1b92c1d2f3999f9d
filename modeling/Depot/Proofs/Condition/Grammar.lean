import Depot.Condition.Reader
import Depot.Proofs.Outcome
import Mathlib.Data.List.Forall2
/-!
# The grammar of conditions

`IsTerm` and `IsCondition` say which elements stand for which terms and conditions, one rule a kind
of node, without reading anything. The rules look at an element's local name, at its children, and
at its text (`fullText`), the text before its first child together with what follows each of them.

The readers are compared with the rules one node at a time: `readTerm_eq_ok_iff` for terms, which
have no nodes below them, and `readNode_eq_ok_iff` for conditions, where it is taken for granted
that the children are read by the rules. `readAll_eq_ok_iff` is the one induction over a tree, along
the sequence of its nodes and into each of them. So a document is read exactly if its one child
stands for a condition, and as that condition (`ofElement_eq_ok_iff_isCondition`).
-/

namespace Depot.Condition

open Xml (Content Element)

/-! ### The rules -/

/-- The text of an element: what stands before its first child and what follows each child, without
blanks around the whole. -/
def fullText (e : Element) : String :=
  Text.strip (String.ofList (e.content.leadingChars ++ e.content.placed.flatMap (·.tail)))

/-- The element has neither children nor text. -/
structure IsBare (e : Element) : Prop where
  children : e.children = []
  text : fullText e = ""

/-- The element has text and no children. -/
structure IsNamed (e : Element) : Prop where
  children : e.children = []
  text : fullText e ≠ ""

/-- The terms that are told by their names alone. -/
def bareTerms : List (String × Term) :=
  [("groupId", .group), ("artifactId", .artifact), ("extension", .extension),
    ("classifier", .classifier), ("version", .version), ("null", .null)]

/-- The conditions that are told by their names alone. -/
def bareConditions : List (String × Condition) :=
  [("true", .literal true), ("false", .literal false)]

/-- The conditions on any number of conditions. -/
def connectives : List (String × (List Condition → Condition)) :=
  [("and", .and), ("or", .or), ("xor", .xor)]

/-- The element stands for the term. -/
inductive IsTerm (e : Element) : Term → Prop
  | bare {term : Term} (htag : (e.tag, term) ∈ bareTerms) (h : IsBare e) : IsTerm e term
  | literal (htag : e.tag = "string") (h : e.children = []) : IsTerm e (.literal (fullText e))
  | property (htag : e.tag = "property") (h : IsNamed e) : IsTerm e (.property (fullText e))

/-- The element stands for the condition. -/
inductive IsCondition : Element → Condition → Prop
  | bare {e : Element} {c : Condition} (htag : (e.tag, c) ∈ bareConditions) (h : IsBare e) :
      IsCondition e c
  | not {e child : Element} {c : Condition} (htag : e.tag = "not") (htext : fullText e = "")
      (hchildren : e.children = [child]) (h : IsCondition child c) : IsCondition e (.not c)
  | connective {e : Element} {make : List Condition → Condition} {cs : List Condition}
      (htag : (e.tag, make) ∈ connectives) (htext : fullText e = "")
      (h : List.Forall₂ IsCondition e.children cs) : IsCondition e (make cs)
  | equals {e left right : Element} {l r : Term} (htag : e.tag = "equals") (htext : fullText e = "")
      (hchildren : e.children = [left, right]) (hleft : IsTerm left l) (hright : IsTerm right r) :
      IsCondition e (.equals l r)
  | defined {e : Element} (htag : e.tag = "defined") (h : IsNamed e) :
      IsCondition e (.defined (fullText e))

/-! ### Text and children -/

/-- The text of an element's own level is what stands before, between and after its children. -/
theorem textOf_eq_fullText (e : Element) : textOf e = fullText e := by
  have hchars : ∀ k : Content, k.ownChars = k.leadingChars ++ k.placed.flatMap (·.tail) := by
    intro k
    induction k with
    | nil => rfl
    | char c rest ih => exact congrArg (List.cons c) ih
    | element n k rest _ ih => exact ih
  rw [textOf, Element.ownText, hchars]
  rfl

variable {e : Element}

theorem forbidText_eq_ok_iff {u : Unit} : forbidText e = .ok u ↔ fullText e = "" := by
  rw [forbidText, textOf_eq_fullText]
  split <;> simp [*]

theorem forbidChildren_eq_ok_iff {u : Unit} : forbidChildren e = .ok u ↔ e.children = [] := by
  rw [forbidChildren]
  split <;> simp_all

theorem requireChildren_eq_ok_iff {count : Nat} {u : Unit} :
    requireChildren e count = .ok u ↔ e.children.length = count := by
  rw [requireChildren]
  split <;> simp [*]

theorem requireText_eq_ok_iff {s : String} :
    requireText e = .ok s ↔ IsNamed e ∧ fullText e = s := by
  rw [requireText, textOf_eq_fullText]
  split
  · next h =>
    simp only [Bool.and_eq_true, List.isEmpty_iff, decide_eq_true_eq] at h
    rw [Except.ok.injEq, and_iff_right ⟨h.1, h.2⟩]
  · next h =>
    refine iff_of_false (fun heq => nomatch heq) fun ⟨hnamed, _⟩ => h ?_
    simp [hnamed.children, hnamed.text]

theorem leaf_eq_ok_iff {α : Type} {value other : α} :
    leaf e value = .ok other ↔ IsBare e ∧ value = other := by
  simp only [leaf, bind_eq_ok_iff, forbidText_eq_ok_iff, forbidChildren_eq_ok_iff, exists_const]
  constructor
  · rintro ⟨htext, hchildren, ⟨⟩⟩
    exact ⟨⟨hchildren, htext⟩, rfl⟩
  · rintro ⟨h, rfl⟩
    exact ⟨h.text, h.children, rfl⟩

/-! ### One node -/

theorem readTerm_of_bare {term : Term} (h : (e.tag, term) ∈ bareTerms) :
    readTerm e = leaf e term := by
  simp only [bareTerms, List.mem_cons, Prod.mk.injEq, List.not_mem_nil, or_false] at h
  rcases h with ⟨h, rfl⟩ | ⟨h, rfl⟩ | ⟨h, rfl⟩ | ⟨h, rfl⟩ | ⟨h, rfl⟩ | ⟨h, rfl⟩ <;>
    (rw [readTerm, h]; rfl)

/-- **Terms.** An element is read as a term exactly if it stands for it. -/
theorem readTerm_eq_ok_iff {term : Term} : readTerm e = .ok term ↔ IsTerm e term := by
  constructor
  · intro h
    -- all terms but the property and the literal are bare and share one rule
    have hbare : ∀ {other : Term}, (e.tag, other) ∈ bareTerms → leaf e other = .ok term →
        IsTerm e term := by
      intro other htag hleaf
      obtain ⟨hbare, rfl⟩ := leaf_eq_ok_iff.1 hleaf
      exact .bare htag hbare
    unfold readTerm at h
    split at h
    case h_7 htag =>
      obtain ⟨s, hs, ⟨⟩⟩ := bind_eq_ok_iff.1 h
      obtain ⟨hnamed, rfl⟩ := requireText_eq_ok_iff.1 hs
      exact .property htag hnamed
    case h_8 htag =>
      obtain ⟨_, hchildren, ⟨⟩⟩ := bind_eq_ok_iff.1 h
      rw [textOf_eq_fullText]
      exact .literal htag (forbidChildren_eq_ok_iff.1 hchildren)
    case h_9 => exact nomatch h
    all_goals next htag => exact hbare (by rw [htag]; decide) h
  · intro h
    cases h with
    -- the rules name the tag, and with it the branch of the reader
    | bare htag h => rw [readTerm_of_bare htag, leaf_eq_ok_iff, and_iff_left rfl]; exact h
    | literal htag h =>
      rw [readTerm, htag]
      exact bind_eq_ok_iff.2 ⟨(), forbidChildren_eq_ok_iff.2 h, by rw [textOf_eq_fullText]; rfl⟩
    | property htag h =>
      rw [readTerm, htag]
      exact bind_eq_ok_iff.2 ⟨fullText e, requireText_eq_ok_iff.2 ⟨h, rfl⟩, rfl⟩

/-- An equation is read exactly if the element has two terms for children and no text. -/
theorem readEquation_eq_ok_iff {c : Condition} : readEquation e = .ok c ↔ fullText e = "" ∧
    ∃ left right l r, e.children = [left, right] ∧ IsTerm left l ∧ IsTerm right r ∧
      .equals l r = c := by
  constructor
  · intro h
    -- the checks in their order: no text of its own, two children, and a term in each
    obtain ⟨_, htext, h⟩ := bind_eq_ok_iff.1 h
    obtain ⟨_, hcount, h⟩ := bind_eq_ok_iff.1 h
    obtain ⟨left, right, hchildren⟩ := List.length_eq_two.1 (requireChildren_eq_ok_iff.1 hcount)
    rw [hchildren] at h
    obtain ⟨l, hl, h⟩ := bind_eq_ok_iff.1 h
    obtain ⟨r, hr, ⟨⟩⟩ := bind_eq_ok_iff.1 h
    exact ⟨forbidText_eq_ok_iff.1 htext, left, right, l, r, hchildren, readTerm_eq_ok_iff.1 hl,
      readTerm_eq_ok_iff.1 hr, rfl⟩
  · rintro ⟨htext, left, right, l, r, hchildren, hl, hr, rfl⟩
    have hcount : requireChildren e 2 = .ok () :=
      requireChildren_eq_ok_iff.2 (by rw [hchildren]; rfl)
    refine bind_eq_ok_iff.2 ⟨(), forbidText_eq_ok_iff.2 htext, bind_eq_ok_iff.2 ⟨(), hcount, ?_⟩⟩
    rw [hchildren]
    exact bind_eq_ok_iff.2 ⟨l, readTerm_eq_ok_iff.2 hl,
      bind_eq_ok_iff.2 ⟨r, readTerm_eq_ok_iff.2 hr, rfl⟩⟩

theorem readNode_of_bare {operands : Except Malformed (List Condition)} {c : Condition}
    (h : (e.tag, c) ∈ bareConditions) : readNode e operands = leaf e c := by
  simp only [bareConditions, List.mem_cons, Prod.mk.injEq, List.not_mem_nil, or_false] at h
  rcases h with ⟨h, rfl⟩ | ⟨h, rfl⟩ <;> (rw [readNode, h]; rfl)

theorem readNode_of_connective {operands : Except Malformed (List Condition)}
    {make : List Condition → Condition} (h : (e.tag, make) ∈ connectives) :
    readNode e operands = (do forbidText e; return make (← operands)) := by
  simp only [connectives, List.mem_cons, Prod.mk.injEq, List.not_mem_nil, or_false] at h
  rcases h with ⟨h, rfl⟩ | ⟨h, rfl⟩ | ⟨h, rfl⟩ <;> (rw [readNode, h]; rfl)

section Nodes

variable {operands : Except Malformed (List Condition)} {c : Condition}

/-- A negation is read exactly if the element has one condition for its child and no text. -/
theorem readNode_not_eq_ok_iff
    (h : ∀ cs, operands = .ok cs ↔ List.Forall₂ IsCondition e.children cs)
    (htag : e.tag = "not") : readNode e operands = .ok c ↔ fullText e = "" ∧
      ∃ child operand, e.children = [child] ∧ IsCondition child operand ∧ .not operand = c := by
  rw [readNode, htag]
  constructor
  · intro hread
    obtain ⟨_, htext, hread⟩ := bind_eq_ok_iff.1 hread
    obtain ⟨_, hcount, hread⟩ := bind_eq_ok_iff.1 hread
    obtain ⟨cs, hcs, hread⟩ := bind_eq_ok_iff.1 hread
    obtain ⟨child, hchildren⟩ := List.length_eq_one_iff.1 (requireChildren_eq_ok_iff.1 hcount)
    -- one child gives one operand
    have hall := (h cs).1 hcs
    rw [hchildren] at hall
    obtain ⟨operand, _, hoperand, hnone, rfl⟩ := List.forall₂_cons_left_iff.1 hall
    obtain rfl := List.forall₂_nil_left_iff.1 hnone
    cases hread
    exact ⟨forbidText_eq_ok_iff.1 htext, child, operand, hchildren, hoperand, rfl⟩
  · rintro ⟨htext, child, operand, hchildren, hoperand, rfl⟩
    have hcount : requireChildren e 1 = .ok () :=
      requireChildren_eq_ok_iff.2 (by rw [hchildren]; rfl)
    have hoperands : operands = .ok [operand] := by
      rw [h, hchildren]
      exact .cons hoperand .nil
    exact bind_eq_ok_iff.2 ⟨(), forbidText_eq_ok_iff.2 htext,
      bind_eq_ok_iff.2 ⟨(), hcount, bind_eq_ok_iff.2 ⟨_, hoperands, rfl⟩⟩⟩

/-- A connective is read exactly if all children are conditions and there is no text. -/
theorem readNode_connective_eq_ok_iff
    (h : ∀ cs, operands = .ok cs ↔ List.Forall₂ IsCondition e.children cs)
    {make : List Condition → Condition} (htag : (e.tag, make) ∈ connectives) :
    readNode e operands = .ok c ↔ fullText e = "" ∧
      ∃ cs, List.Forall₂ IsCondition e.children cs ∧ make cs = c := by
  rw [readNode_of_connective htag]
  constructor
  · intro hread
    obtain ⟨_, htext, hread⟩ := bind_eq_ok_iff.1 hread
    obtain ⟨cs, hcs, ⟨⟩⟩ := bind_eq_ok_iff.1 hread
    exact ⟨forbidText_eq_ok_iff.1 htext, cs, (h cs).1 hcs, rfl⟩
  · rintro ⟨htext, cs, hcs, rfl⟩
    exact bind_eq_ok_iff.2 ⟨(), forbidText_eq_ok_iff.2 htext,
      bind_eq_ok_iff.2 ⟨cs, (h cs).2 hcs, rfl⟩⟩

/-- **Conditions.** If the children are read by the rules, an element is read as a condition exactly
if it stands for it. -/
theorem readNode_eq_ok_iff
    (h : ∀ cs, operands = .ok cs ↔ List.Forall₂ IsCondition e.children cs) :
    readNode e operands = .ok c ↔ IsCondition e c := by
  constructor
  · intro hread
    -- bare elements and connectives come several to a rule, so each rule is read back once
    have hbare : ∀ {other : Condition}, (e.tag, other) ∈ bareConditions → IsCondition e c := by
      intro other htag
      rw [readNode_of_bare htag] at hread
      obtain ⟨hbare, rfl⟩ := leaf_eq_ok_iff.1 hread
      exact .bare htag hbare
    have hconnective : ∀ {make : List Condition → Condition}, (e.tag, make) ∈ connectives →
        IsCondition e c := by
      intro make htag
      obtain ⟨htext, cs, hcs, rfl⟩ := (readNode_connective_eq_ok_iff h htag).1 hread
      exact .connective htag htext hcs
    -- the rule is told by the tag
    have hnode := hread
    unfold readNode at hnode
    split at hnode
    case h_1 htag =>
      have hmem : (e.tag, .literal true) ∈ bareConditions := by simp [htag, bareConditions]
      exact hbare hmem
    case h_2 htag =>
      have hmem : (e.tag, .literal false) ∈ bareConditions := by simp [htag, bareConditions]
      exact hbare hmem
    case h_3 htag =>
      obtain ⟨htext, child, operand, hchildren, hoperand, rfl⟩ :=
        (readNode_not_eq_ok_iff h htag).1 hread
      exact .not htag htext hchildren hoperand
    case h_4 htag =>
      have hmem : (e.tag, .and) ∈ connectives := by simp [htag, connectives]
      exact hconnective hmem
    case h_5 htag =>
      have hmem : (e.tag, .or) ∈ connectives := by simp [htag, connectives]
      exact hconnective hmem
    case h_6 htag =>
      have hmem : (e.tag, .xor) ∈ connectives := by simp [htag, connectives]
      exact hconnective hmem
    case h_7 htag =>
      obtain ⟨htext, left, right, l, r, hchildren, hl, hr, rfl⟩ := readEquation_eq_ok_iff.1 hnode
      exact .equals htag htext hchildren hl hr
    case h_8 htag =>
      obtain ⟨s, hs, ⟨⟩⟩ := bind_eq_ok_iff.1 hnode
      obtain ⟨hnamed, rfl⟩ := requireText_eq_ok_iff.1 hs
      exact .defined htag hnamed
    case h_9 => exact nomatch hnode
  · intro hc
    -- the other way, each rule of the grammar names the tag that selects its branch
    cases hc with
    | bare htag hbare => rw [readNode_of_bare htag, leaf_eq_ok_iff, and_iff_left rfl]; exact hbare
    | not htag htext hchildren hoperand =>
      exact (readNode_not_eq_ok_iff h htag).2 ⟨htext, _, _, hchildren, hoperand, rfl⟩
    | connective htag htext hcs =>
      exact (readNode_connective_eq_ok_iff h htag).2 ⟨htext, _, hcs, rfl⟩
    | equals htag htext hchildren hl hr =>
      rw [readNode, htag]
      exact readEquation_eq_ok_iff.2 ⟨htext, _, _, _, _, hchildren, hl, hr, rfl⟩
    | defined htag hnamed =>
      rw [readNode, htag]
      exact bind_eq_ok_iff.2 ⟨fullText e, requireText_eq_ok_iff.2 ⟨hnamed, rfl⟩, rfl⟩

end Nodes

/-! ### Trees -/

/-- Children are read exactly if each of them stands for a condition. -/
theorem readAll_eq_ok_iff (k : Content) (cs : List Condition) :
    readAll k = .ok cs ↔ List.Forall₂ IsCondition k.children cs := by
  induction k generalizing cs with
  | nil =>
    rw [readAll, Content.children, List.forall₂_nil_left_iff, Except.ok.injEq, eq_comm]
  | char _ rest ih => exact ih cs
  | element n k rest ihk ihrest =>
    -- what is inside the element is read by the rules, and so is the element
    have hnode : ∀ c, readNode ⟨n, k⟩ (readAll k) = .ok c ↔ IsCondition ⟨n, k⟩ c :=
      fun c => readNode_eq_ok_iff (e := ⟨n, k⟩) ihk
    rw [readAll, Content.children, List.forall₂_cons_left_iff]
    simp only [bind_eq_ok_iff, hnode, ihrest]
    constructor
    · rintro ⟨c, hc, cs, hcs, ⟨⟩⟩
      exact ⟨c, cs, hc, hcs, rfl⟩
    · rintro ⟨c, cs, hc, hcs, rfl⟩
      exact ⟨c, hc, cs, hcs, rfl⟩

/-- An element is read as a condition exactly if it stands for it. -/
theorem read_eq_ok_iff {c : Condition} : read e = .ok c ↔ IsCondition e c :=
  readNode_eq_ok_iff (readAll_eq_ok_iff e.content)

/-- **The grammar of conditions.** A document is read as a condition exactly if it has one child,
and that stands for the condition. In every other case the document is malformed. Its own text does
not count. -/
theorem ofElement_eq_ok_iff_isCondition (d : Element) :
    (∀ c, ofElement d = .ok c ↔ ∃ child, d.children = [child] ∧ IsCondition child c) ∧
      ((∃ m, ofElement d = .error m) ↔ ¬ ∃ child c, d.children = [child] ∧ IsCondition child c) ∧
      ∀ other : Element, other.name = d.name → other.children = d.children →
        ofElement other = ofElement d := by
  have hok : ∀ c, ofElement d = .ok c ↔ ∃ child, d.children = [child] ∧ IsCondition child c := by
    intro c
    constructor
    · -- the sole child is the condition
      intro h
      obtain ⟨_, hcount, h⟩ := bind_eq_ok_iff.1 h
      obtain ⟨child, hchildren⟩ := List.length_eq_one_iff.1 (requireChildren_eq_ok_iff.1 hcount)
      rw [hchildren] at h
      exact ⟨child, hchildren, read_eq_ok_iff.1 h⟩
    · rintro ⟨child, hchildren, hc⟩
      have hcount : requireChildren d 1 = .ok () :=
        requireChildren_eq_ok_iff.2 (by rw [hchildren]; rfl)
      refine bind_eq_ok_iff.2 ⟨(), hcount, ?_⟩
      rw [hchildren]
      exact read_eq_ok_iff.2 hc
  refine ⟨hok, ?_, fun other hname hchildren => ?_⟩
  · rw [not_exists]
    constructor
    · rintro ⟨m, hm⟩ child ⟨c, hc⟩
      cases hm.symm.trans ((hok c).2 ⟨child, hc⟩)
    · intro hnone
      cases hread : ofElement d with
      | error m => exact ⟨m, rfl⟩
      | ok c =>
        obtain ⟨child, hc⟩ := (hok c).1 hread
        exact absurd ⟨c, hc⟩ (hnone child)
  · -- nothing but the children is looked at, and the name for what is said of their number
    have htag : other.tag = d.tag := congrArg Xml.Name.base hname
    simp only [ofElement, requireChildren, hchildren, htag]

/-- A document with blanks in its condition and text of its own. -/
def sampleFilter : Element :=
  ⟨⟨none, "filter"⟩, .char 'x' (.element ⟨some "urn:c", "and"⟩
    (.char ' ' (.element ⟨none, "equals"⟩ (.element ⟨none, "groupId"⟩ .nil
        (.element ⟨none, "string"⟩ (.char ' ' (.char 'g' .nil)) .nil))
      (.element ⟨none, "not"⟩ (.element ⟨none, "defined"⟩ (.char 'p' .nil) .nil) (.char ' ' .nil))))
    (.char 'y' .nil))⟩

/-- The condition that it holds. -/
def sampleCondition : Condition := .and [.equals .group (.literal "g"), .not (.defined "p")]

theorem ofElement_eq_ok_iff_isCondition_sampleFilter :
    (∃ child, sampleFilter.children = [child] ∧ IsCondition child sampleCondition) ∧
      ofElement ⟨sampleFilter.name, .char 'z' sampleFilter.content⟩ = .ok sampleCondition := by
  obtain ⟨hok, -, htext⟩ := ofElement_eq_ok_iff_isCondition sampleFilter
  have hread : ofElement sampleFilter = .ok sampleCondition := by rfl
  exact ⟨(hok sampleCondition).1 hread, (htext _ rfl rfl).trans hread⟩

end Depot.Condition
