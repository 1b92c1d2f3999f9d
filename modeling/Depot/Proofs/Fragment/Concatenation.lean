import Depot.Proofs.Fragment.Grammar
import Depot.Proofs.Xml.Joint
import Mathlib
/-!
# Bare fragments one after the other

A bare fragment is put between the tags of an element, and that is read as a document. So it is read
exactly if it fills the element (`read_bare_iff`), whatever else stands in front of the tags: with a
declaration there, the document is the same to the reader (`ofText_declared`).

Two bare fragments that are read can be put one after the other, and give the records of the first
and then those of the second. Two things are to be shown of the text at the joint. The elements are
those of both parts, which is a matter of the markup alone (`Xml.Fills.append_normalized`). And the
whole is bare again: a text that is no document by itself, but starts like one, leaves its last
lexeme open, so it is not read (`isDocument_append`).
-/

namespace Depot.Fragment

open Xml (Element Fills IsTag LexState Markup Straddles normalizeLines)

/-- The full document that holds a bare fragment. -/
def declared (contents : String) : String :=
  "<?xml version=\"1.0\"?>" ++ ("<dependencies>" ++ contents ++ "</dependencies>")

/-! ### The document that a bare fragment stands for -/

section Documents

variable {contents : String}

theorem isTag_dependencies : IsTag "dependencies" := by decide

/-- The characters between the tags of the element. -/
theorem toList_wrapped (contents : String) :
    ("<dependencies>" ++ contents ++ "</dependencies>").toList =
      Markup.startTag "dependencies" ++ contents.toList ++ Markup.endTag "dependencies" := by
  rw [String.toList_append, String.toList_append]
  rfl

/-- Without a declaration, what is read is the element. -/
theorem ofText_wrap (hbare : isDocument contents = false) : Xml.Document.ofText (wrap contents) =
    Xml.Document.body ⟨.common, false,
      Markup.startTag "dependencies" ++ contents.toList ++ Markup.endTag "dependencies"⟩ := by
  have htext : (wrap contents).toList =
      Markup.startTag "dependencies" ++ contents.toList ++ Markup.endTag "dependencies" := by
    rw [wrap, hbare, if_neg Bool.false_ne_true, toList_wrapped]
  have hsplit : Xml.Declaration.split (wrap contents).toList =
      .ok (none, (wrap contents).toList) := by
    rw [htext]
    rfl
  rw [Xml.Document.ofText, Xml.Document.openingOfText_of_split (by rw [htext]; rfl) hsplit, htext]
  rfl

/-- A declaration that only has the version is split off. -/
theorem split_version (rest : List Char) :
    Xml.Declaration.split ("<?xml version=\"1.0\"?>".toList ++ rest) = .ok (some {}, rest) := by
  have hend : Xml.Declaration.splitEnd? (("<?xml version=\"1.0\"?>".toList ++ rest).drop 5) =
      some (" version=\"1.0\"".toList, rest) := rfl
  have hbody : Xml.Declaration.body? " version=\"1.0\"".toList = some {} := by decide +kernel
  have hpresent :
      Xml.Declaration.isPresent ("<?xml version=\"1.0\"?>".toList ++ rest) = true := rfl
  unfold Xml.Declaration.split
  rw [if_pos hpresent, hend]
  simp only [hbody]

/-- With a declaration in front, the same is read. -/
theorem ofText_declared (hbare : isDocument contents = false) :
    Xml.Document.ofText (declared contents) = Xml.Document.ofText (wrap contents) := by
  have htext : (declared contents).toList = "<?xml version=\"1.0\"?>".toList ++
      (Markup.startTag "dependencies" ++ contents.toList ++ Markup.endTag "dependencies") :=
    String.toList_append.trans (congrArg _ (toList_wrapped contents))
  have hsplit := split_version
    (Markup.startTag "dependencies" ++ contents.toList ++ Markup.endTag "dependencies")
  rw [← htext] at hsplit
  rw [ofText_wrap hbare, Xml.Document.ofText,
    Xml.Document.openingOfText_of_split (by rw [htext]; rfl) hsplit]
  rfl

/-- A bare fragment with a declaration and the tags around it is a full document. -/
theorem isDocument_declared (contents : String) : isDocument (declared contents) = true := by
  have htext : (declared contents).toList = "<?xml".toList ++ (" version=\"1.0\"?>".toList ++
      ("<dependencies>" ++ contents ++ "</dependencies>").toList) := String.toList_append
  unfold isDocument
  rw [htext]
  rfl

/-- **Bare fragments** are read exactly if they fill the element, as the records of what they fill
it with. -/
theorem read_bare_iff (hbare : isDocument contents = false) {source : String}
    {records : List FragmentRecord} : read contents source = .ok records ↔
      ∃ k, Fills Xml.Document.plainDoctype "dependencies" (normalizeLines contents.toList) k ∧
        readElements k.descendants = .ok records := by
  -- the element put around the text is no record, so only what is inside counts
  have hroot : ∀ k, readElements (Element.selfAndDescendants ⟨⟨none, "dependencies"⟩, k⟩) =
      .ok records ↔ readElements k.descendants = .ok records := by
    intro k
    have htag : readElement ⟨⟨none, "dependencies"⟩, k⟩ = .ok none :=
      readElement_of_other (show "dependencies" ∉ recordTags by decide)
    constructor
    · intro h
      obtain ⟨r, more, hr, hmore, rfl⟩ := exists_of_readElements_cons h
      obtain rfl := Except.ok.inj (htag.symm.trans hr)
      exact hmore
    · exact fun h => readElements_cons htag h
  constructor
  · intro h
    obtain ⟨root, hdocument⟩ := exists_root_of_read h
    rw [read_eq hdocument, mapError_eq_ok_iff] at h
    rw [ofText_wrap hbare] at hdocument
    obtain ⟨k, hk, rfl⟩ := (Xml.Document.body_wrapped_iff isTag_dependencies).1 hdocument
    exact ⟨k, hk, (hroot k).1 h⟩
  · rintro ⟨k, hk, h⟩
    have hdocument := (Xml.Document.body_wrapped_iff isTag_dependencies).2 ⟨k, hk, rfl⟩
    rw [← ofText_wrap hbare] at hdocument
    rw [read_eq hdocument, mapError_eq_ok_iff]
    exact (hroot k).2 h

end Documents

/-! ### Starting like a document -/

/-- A character that becomes no letter is that character. -/
theorem eq_of_toLower_eq {c b : Char} (h : c.toLower = b) (hb : b.isAlpha = false) : c = b := by
  have hupper : ¬ c.isUpper := fun hupper => by
    have halpha : c.toLower.isAlpha = true :=
      (Char.isAlpha_toLower_eq_isAlpha c).trans (Bool.or_eq_true_iff.2 (.inl hupper))
    exact Bool.false_ne_true (hb.symm.trans (h ▸ halpha))
  rw [← h, Char.toLower_eq_of_not_isUpper hupper]

/-- A text that starts like a declaration, as far as it goes, is not a sequence of tokens: its
instruction is not closed. -/
theorem isText_of_run_declaration {d : Xml.Dialect} {cs : List Char} (hne : cs ≠ [])
    (h : cs.map Char.toLower <+: "<?xml".toList) {last : LexState} {tokens : List Xml.Token}
    (hrun : LexState.run d (.text 0) (normalizeLines cs) = some (last, tokens)) :
    last.isText = false := by
  obtain ⟨c, cs, rfl⟩ := List.exists_cons_of_ne_nil hne
  obtain ⟨hc, hrest⟩ := List.cons_prefix_cons.1 (show c.toLower :: cs.map Char.toLower <+:
    '<' :: "?xml".toList from h)
  obtain rfl := eq_of_toLower_eq hc (by decide)
  -- an unfinished tag is no text; with a question mark it is the start of an instruction
  cases cs with
  | nil =>
    cases hrun
    rfl
  | cons c cs =>
    obtain ⟨hc, hletters⟩ := List.cons_prefix_cons.1 (show c.toLower :: cs.map Char.toLower <+:
      '?' :: "xml".toList from hrest)
    obtain rfl := eq_of_toLower_eq hc (by decide)
    have hxml : ∀ b ∈ "xml".toList, b.isAlpha = true := List.all_iff_forall_prop.1 (by decide)
    have halpha : ∀ b ∈ cs, b.isAlpha = true := fun b hb =>
      Char.isAlpha_toLower_eq_isAlpha b ▸ hxml _ (hletters.subset (List.mem_map_of_mem hb))
    have hlines : normalizeLines ('<' :: '?' :: cs) = '<' :: '?' :: cs := by
      refine Xml.normalizeLines_eq_self fun b hb => ?_
      simp only [List.mem_cons] at hb
      rcases hb with rfl | rfl | hb
      · decide
      · decide
      · exact Xml.ne_of_isAlpha (halpha b hb) (by decide)
    -- in the instruction there are only letters
    have hinside : ∀ b ∈ cs, Xml.isLegal b = true ∧ b ∉ ['-', '?', ']'] := fun b hb =>
      LexState.isLegal_and_not_mem_of_isAlpha (halpha b hb)
    obtain ⟨verbatim, hverbatim, hstate⟩ :=
      (LexState.IsVerbatim.instruction []).run (d := d) hinside
    have hopen : LexState.step d (.text 0) '<' = some (.markup, []) := rfl
    have hquestion : LexState.step d .markup '?' = some (.instruction [] false, []) := rfl
    -- two steps open the instruction, and the letters leave it open
    rw [hlines, LexState.run_cons_of_step hopen, LexState.run_cons_of_step hquestion,
      hverbatim] at hrun
    cases hrun
    cases hstate <;> rfl

/-- **Bare texts one after the other** are bare, if the first is what an element may hold. -/
theorem isDocument_append {a b : String} (ha : isDocument a = false) (hb : isDocument b = false)
    {d : Xml.Doctype} {tag : String} {k : Xml.Content}
    (hk : Fills d tag (normalizeLines a.toList) k) : isDocument (a ++ b) = false := by
  cases hwhole : isDocument (a ++ b) with
  | false => rfl
  | true =>
  exfalso
  have htake : ((a.toList ++ b.toList).take 5).map Char.toLower = "<?xml".toList := by
    unfold isDocument at hwhole
    rw [String.toList_append] at hwhole
    exact beq_iff_eq.1 hwhole
  by_cases hlong : 5 ≤ a.toList.length
  · -- what makes it a document stands in the first text
    rw [List.take_append_of_le_length hlong] at htake
    unfold isDocument at ha
    rw [htake] at ha
    cases ha
  · by_cases hnil : a.toList = []
    · rw [hnil, List.nil_append] at htake
      unfold isDocument at hb
      rw [htake] at hb
      cases hb
    · have hprefix : a.toList.map Char.toLower <+: "<?xml".toList := by
        rw [← htake, List.take_append, List.take_of_length_le (by omega), List.map_append]
        exact List.prefix_append _ _
      obtain ⟨n, tokens, hrun, -⟩ := hk
      exact nomatch isText_of_run_declaration hnil hprefix hrun

/-! ### One after the other -/

/-- **Bare fragments concatenate.** A bare fragment is read as the full document is that holds it.
Two of them that are read, with no end of quoted text across the joint, are read one after the other
as the records of the first and then those of the second. -/
theorem read_append {a source : String} (ha : isDocument a = false) :
    (∀ b ra rb, isDocument b = false → read a source = .ok ra → read b source = .ok rb →
      ¬ Straddles "]]>".toList a.toList b.toList → read (a ++ b) source = .ok (ra ++ rb)) ∧
    isDocument (declared a) = true ∧ read (declared a) source = read a source := by
  refine ⟨fun b ra rb hb hra hrb hjoint => ?_, isDocument_declared a, ?_⟩
  · -- both contents fill one element together, as no `]]>` arises at the joint
    obtain ⟨k, hk, hrecordsA⟩ := (read_bare_iff ha).1 hra
    obtain ⟨l, hl, hrecordsB⟩ := (read_bare_iff hb).1 hrb
    obtain ⟨m, hm, helements⟩ := hk.append_normalized hl hjoint
    refine (read_bare_iff (isDocument_append ha hb hk)).2 ⟨m, ?_, ?_⟩
    · rwa [String.toList_append]
    · rw [helements]
      exact readElements_append hrecordsA hrecordsB
  · -- the declared document is read as it stands, and has the root of the wrapped one
    have hwrap : wrap (declared a) = declared a := if_pos (isDocument_declared a)
    have hdocument : Xml.Document.ofText (wrap (declared a)) = Xml.Document.ofText (wrap a) := by
      rw [hwrap, ofText_declared ha]
    unfold read
    rw [hdocument]

/-- A floor, and text that ends with brackets and the first half of a line end. -/
def bracketedFloor : String := "<requiresJava>1.8</requiresJava>]]\r"

/-- The other half of the line end, and the rest of what would be a mark without it. -/
def laterFloor : String := "\n><requiresJavaDevel> 1.7 </requiresJavaDevel>"

theorem read_append_floors :
    read (bracketedFloor ++ laterFloor) "floors" = .ok [.floor "1.8" false, .floor "1.7" true] ∧
      isDocument (declared bracketedFloor) = true ∧
      read (declared bracketedFloor) "floors" = read bracketedFloor "floors" := by
  have hfloor : read bracketedFloor "floors" = .ok [.floor "1.8" false] :=
    eq_ok_of_toOption (by decide +kernel)
  have hlater : read laterFloor "floors" = .ok [.floor "1.7" true] :=
    eq_ok_of_toOption (by decide +kernel)
  obtain ⟨happend, hdocument, hdeclared⟩ := read_append (a := bracketedFloor) (by decide +kernel)
  exact ⟨happend laterFloor _ _ (by decide +kernel) hfloor hlater (by decide +kernel), hdocument,
    hdeclared⟩

end Depot.Fragment
