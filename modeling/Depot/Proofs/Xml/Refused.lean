import Depot.Proofs.Xml.ReadBack
/-!
# Written documents that are refused

The writer puts out every character of a text, also one that may not stand in a document: a control
as it is, and the last two code points of the basic plane as references. Either way the machine that
reads tokens comes to a fault there (`Jams`), whatever it has read before and whatever follows. So a
written document is refused if there is such a character in any text of its root
(`Document.ofText_document_of_not_isLegal`), and otherwise read
(`Document.ofText_document_of_isLegal`).
-/

namespace Depot.Xml

/-- From any place between tokens the text is read up to another such place. -/
def Passes (d : Dialect) (cs : List Char) : Prop :=
  ∀ n, ∃ n' tokens, LexState.run d (.text n) cs = some (.text n', tokens)

/-- From any place between tokens the text is no part of a document. -/
def Jams (d : Dialect) (cs : List Char) : Prop := ∀ n, LexState.run d (.text n) cs = none

variable {d : Dialect} {a b cs : List Char}

theorem Lexes.passes {k : Content} (h : Lexes d cs k) : Passes d cs := fun n =>
  have ⟨n', tokens, hrun, _⟩ := h n
  ⟨n', tokens, hrun⟩

theorem Passes.append (ha : Passes d a) (hb : Passes d b) : Passes d (a ++ b) := by
  intro n
  obtain ⟨m, tokens, hrun⟩ := ha n
  obtain ⟨m', more, hrun'⟩ := hb m
  refine ⟨m', tokens ++ more, ?_⟩
  rw [LexState.run_append, hrun]
  simp only [Option.bind_eq_bind, Option.bind_some, hrun']
  rfl

/-- A fault is not made good by what follows. -/
theorem Jams.append (h : Jams d a) (b : List Char) : Jams d (a ++ b) := by
  intro n
  rw [LexState.run_append, h n]
  rfl

/-- A fault comes after whatever is read without one. -/
theorem Passes.jams (ha : Passes d a) (hb : Jams d b) : Jams d (a ++ b) := by
  intro n
  obtain ⟨m, tokens, hrun⟩ := ha n
  rw [LexState.run_append, hrun]
  simp only [Option.bind_eq_bind, Option.bind_some, hb m]
  rfl

namespace Markup

/-- A character that may not stand in a document is a fault in either way in which it is put out. -/
theorem jams_escapeChar {c : Char} (h : isLegal c = false) : Jams d (escapeChar c) := by
  have hne : ∀ b, isLegal b = true → c ≠ b := by
    rintro b hb rfl
    rw [h] at hb
    cases hb
  intro n
  unfold escapeChar
  rw [if_neg (hne '&' (by decide)), if_neg (hne '<' (by decide)), if_neg (hne '>' (by decide))]
  split
  · -- a control, at which the machine stops
    rw [LexState.run, LexState.step, h]
    rfl
  · next hascii =>
    -- a reference to one of two code points, which is not resolved
    have hcode : c.toNat = 0xFFFE ∨ c.toNat = 0xFFFF := by
      unfold isLegal at h
      rw [if_neg (by omega)] at h
      simp only [Bool.and_eq_false_iff, bne_eq_false_iff_eq] at h
      exact h
    have hnone : Reference.char? c.toNat = none := by
      rcases hcode with hcode | hcode <;> rw [hcode] <;> rfl
    have hclose : LexState.step d (.reference ('#' :: (Text.decimal c.toNat).toList).reverse) ';' =
        none := by
      have hlegal : isLegal ';' = true := by decide
      simp [LexState.step, hlegal, ofChars?_codePoint, hnone]
    rw [LexState.run_append]
    rw [run_reference n (fun b hb => collected_of_mem_codePoint hb)]
    simp only [Option.bind_eq_bind, Option.bind_some, LexState.run, hclose]
    rfl

theorem jams_escape {cs : List Char} (h : ∃ c ∈ cs, isLegal c = false) :
    Jams d (cs.flatMap escapeChar) := by
  induction cs with
  | nil => exact absurd h (by simp)
  | cons c cs ih =>
    rw [List.flatMap_cons]
    cases hc : isLegal c with
    | false => exact (jams_escapeChar hc).append _
    | true =>
      obtain ⟨b, hb, hbad⟩ := h
      rcases List.mem_cons.1 hb with rfl | hb
      · rw [hc] at hbad
        cases hbad
      · exact (lexes_escapeChar hc).passes.jams (ih ⟨b, hb, hbad⟩)

/-- Elements on lines of their own are a fault if one of them is, and those before it are read or
are faults too. -/
theorem jams_writeLines {items : List Markup} {level : Nat}
    (hitems : ∀ item ∈ items, Passes d (write level item) ∨ Jams d (write level item))
    (hbad : ∃ item ∈ items, Jams d (write level item)) : Jams d (writeLines level items) := by
  induction items with
  | nil => exact absurd hbad (by simp)
  | cons item items ih =>
    have hjams : Jams d (write level item) →
        Jams d (indent level ++ write level item ++ ['\n'] ++ writeLines level items) := fun h =>
      (((lexes_indent level).passes.jams h).append _).append _
    rw [writeLines]
    -- this element is read and a later one jams, or it jams itself
    rcases hitems item List.mem_cons_self with hpass | hjam
    · obtain ⟨bad, hmem, hbad⟩ := hbad
      rcases List.mem_cons.1 hmem with rfl | hmem
      · exact hjams hbad
      · have hline := ((lexes_indent level).passes.append hpass).append lexes_lineEnd.passes
        exact hline.jams (ih (fun other hother => hitems other (List.mem_cons_of_mem item hother))
          ⟨bad, hmem, hbad⟩)
    · exact hjams hjam

/-- **Characters that may not stand in a document.** A written element is a fault if there is one in
its texts. -/
theorem jams_write {m : Markup} (h : m.Tagged) (hreturn : ∀ c ∈ m.chars, c ≠ '\r')
    (hbad : ∃ c ∈ m.chars, isLegal c = false) (level : Nat) : Jams d (write level m) := by
  have hstart : ∀ {tag : String}, IsTag tag → Passes d (startTag tag) := fun htag n =>
    ⟨0, _, run_startTag htag n⟩
  -- by the structure of the element; a text of its own stops at the character
  induction h generalizing level with
  | @text tag s htag =>
    rw [chars] at hbad
    have hne : s ≠ "" := by
      rintro rfl
      exact absurd hbad (by simp)
    rw [write, if_neg hne]
    exact ((hstart htag).jams (jams_escape hbad)).append _
  | @group tag items htag hitems ih =>
    rw [chars] at hreturn hbad
    have hreturn : ∀ item ∈ items, ∀ c ∈ item.chars, c ≠ '\r' :=
      fun item hitem c hc => hreturn c (mem_charsOf.2 ⟨item, hitem, hc⟩)
    -- an element with such a character is a fault, and one without is read
    have hcases : ∀ item ∈ items,
        Passes d (write (level + 1) item) ∨ Jams d (write (level + 1) item) := by
      intro item hitem
      by_cases hlegal : ∀ c ∈ item.chars, isLegal c = true
      · refine .inl (lexes_write (wellFormed_iff.2 ⟨hitems item hitem, fun c hc => ?_⟩) _).passes
        exact ⟨hlegal c hc, hreturn item hitem c hc⟩
      · refine .inr (ih item hitem (hreturn item hitem) ?_ _)
        simpa using hlegal
    -- some child holds the character, and the children before it are read or stop as well
    obtain ⟨c, hc, hlegal⟩ := hbad
    obtain ⟨bad, hmem, hc⟩ := mem_charsOf.1 hc
    have hlines : Jams d (writeLines (level + 1) items) :=
      jams_writeLines hcases ⟨bad, hmem, ih bad hmem (hreturn bad hmem) ⟨c, hc, hlegal⟩ _⟩
    cases items with
    | nil => cases hmem
    | cons item rest =>
      rw [write]
      exact ((((hstart htag).append lexes_lineEnd.passes).jams hlines).append _).append _

end Markup

namespace Document

/-- A document with a character that may not stand in one, in any text of its root, is refused. -/
theorem ofText_document_of_not_isLegal {comment : String}
    (hcomment : isComment comment.toList = true) {root : Markup} (hroot : root.Tagged)
    (hbad : ∃ c ∈ root.chars, isLegal c = false) :
    ofText (String.ofList (Markup.document comment root)) = .error .malformed := by
  obtain ⟨d, hd⟩ : ∃ d : Doctype, d = { letters := .common, standalone := false } := ⟨_, rfl⟩
  -- the machine reads the lines with their ends normalized
  have hbad : ∃ c ∈ root.normalized.chars, isLegal c = false := by
    simpa using mt (Markup.isLegal_chars_normalized_iff hroot).1 (by simpa using hbad)
  have hjams : Jams d.dialect (root.normalized.write 0 ++ ['\n']) :=
    (Markup.jams_write hroot.normalized
      (fun c hc => Markup.ne_carriageReturn_of_mem_normalized hroot hc) hbad 0).append _
  have htokens : tokens? d.dialect (root.normalized.write 0 ++ ['\n']) = none := by
    unfold tokens?
    rw [hjams 0]
    rfl
  rw [ofText_document_eq hcomment hroot hd, htokens]
  rfl

end Document

end Depot.Xml
