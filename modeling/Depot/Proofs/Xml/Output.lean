import Depot.Proofs.Xml.Lexing
/-!
# What is written

An element whose tags are made of letters (`Markup.Tagged`) is written with the characters of its
tags, those of markup and white space, and those in which the characters of its texts are escaped
(`Markup.mem_write_cases`). So the output is ASCII (`Markup.toNat_lt_of_mem_document`).

The carriage returns of texts are not escaped, and a reader takes every line end for a line feed. To
normalize what was written is to write the element with the line ends in its texts normalized
(`Markup.normalizeLines_write`).
-/

namespace Depot.Xml

/-! ### Line ends -/

/-- A character that is no carriage return stays. -/
theorem normalizeLines_cons_of_ne {c : Char} (h : c ≠ '\r') (cs : List Char) :
    normalizeLines (c :: cs) = c :: normalizeLines cs := by
  rw [normalizeLines.eq_def]
  split
  · next heq => cases heq
  · next heq => exact absurd (List.cons.inj heq).1 h
  · next heq =>
    cases heq
    rw [if_neg h]

/-- A carriage return without a line feed after it becomes one. -/
theorem normalizeLines_return {cs : List Char} (h : cs.head? ≠ some '\n') :
    normalizeLines ('\r' :: cs) = '\n' :: normalizeLines cs := by
  rw [normalizeLines.eq_def]
  split
  · next heq => cases heq
  · next heq =>
    rw [(List.cons.inj heq).2] at h
    exact absurd rfl h
  · next heq =>
    cases heq
    rfl

/-- What has no carriage returns is normalized on its own. -/
theorem normalizeLines_append {cs : List Char} (h : ∀ c ∈ cs, c ≠ '\r') (more : List Char) :
    normalizeLines (cs ++ more) = cs ++ normalizeLines more := by
  induction cs with
  | nil => rfl
  | cons c cs ih =>
    rw [List.cons_append, normalizeLines_cons_of_ne (h c List.mem_cons_self),
      ih fun b hb => h b (List.mem_cons_of_mem c hb), List.cons_append]

/-- A text without carriage returns keeps its line ends. -/
theorem normalizeLines_eq_self {cs : List Char} (h : ∀ c ∈ cs, c ≠ '\r') :
    normalizeLines cs = cs := by
  have happend := normalizeLines_append h []
  rwa [List.append_nil, normalizeLines, List.append_nil] at happend

/-- There are no carriage returns left. -/
theorem ne_carriageReturn_of_mem_normalizeLines {cs : List Char} {c : Char}
    (h : c ∈ normalizeLines cs) : c ≠ '\r' := by
  fun_induction normalizeLines cs with
  | case1 => cases h
  | case2 cs ih =>
    rcases List.mem_cons.1 h with rfl | h
    · decide
    · exact ih h
  | case3 b cs _ ih =>
    rcases List.mem_cons.1 h with rfl | h
    · split
      · decide
      · assumption
    · exact ih h

/-- All other characters stay. -/
theorem mem_normalizeLines_iff {cs : List Char} {c : Char} (hr : c ≠ '\r') (hn : c ≠ '\n') :
    c ∈ normalizeLines cs ↔ c ∈ cs := by
  fun_induction normalizeLines cs with
  | case1 => exact Iff.rfl
  | case2 cs ih => simp [hr, hn, ih]
  | case3 b cs _ ih =>
    rw [List.mem_cons, List.mem_cons, ih]
    refine or_congr_left ?_
    split
    · next hb => exact iff_of_false hn fun h => hr (h.trans hb)
    · exact Iff.rfl

/-- A text with every line end written as one line feed. -/
def normalizeText (s : String) : String := String.ofList (normalizeLines s.toList)

/-- Only of the empty text nothing is left. -/
theorem normalizeText_eq_empty_iff {s : String} : normalizeText s = "" ↔ s = "" := by
  have hnil : ∀ {cs : List Char}, normalizeLines cs = [] ↔ cs = [] := by
    intro cs
    fun_cases normalizeLines cs <;> simp
  rw [normalizeText, ← String.toList_eq_nil_iff, String.toList_ofList, hnil,
    String.toList_eq_nil_iff]

/-- A text is normalized exactly if there is no carriage return in it. -/
theorem normalizeText_eq_self_iff {s : String} :
    normalizeText s = s ↔ ∀ c ∈ s.toList, c ≠ '\r' := by
  constructor
  · intro h c hc
    rw [← h, normalizeText, String.toList_ofList] at hc
    exact ne_carriageReturn_of_mem_normalizeLines hc
  · intro h
    rw [normalizeText, normalizeLines_eq_self h, String.ofList_toList]

namespace Markup

/-! ### Elements with tags of letters -/

/-- The tags of the element and of all elements inside it are made of letters. -/
inductive Tagged : Markup → Prop where
  | text {tag s : String} (htag : IsTag tag) : Tagged (.text tag s)
  | group {tag : String} {items : List Markup} (htag : IsTag tag)
      (hitems : ∀ item ∈ items, Tagged item) : Tagged (.group tag items)

mutual

/-- The characters of all texts in the element. -/
def chars : Markup → List Char
  | .text _ s => s.toList
  | .group _ items => charsOf items

/-- The characters of all texts in elements. -/
def charsOf : List Markup → List Char
  | [] => []
  | item :: items => chars item ++ charsOf items

end

theorem mem_charsOf {items : List Markup} {c : Char} :
    c ∈ charsOf items ↔ ∃ item ∈ items, c ∈ item.chars := by
  induction items with
  | nil => simp [charsOf]
  | cons item items ih => simp [charsOf, ih]

theorem charsOf_append (as bs : List Markup) : charsOf (as ++ bs) = charsOf as ++ charsOf bs := by
  induction as with
  | nil => rfl
  | cons item as ih => rw [List.cons_append, charsOf, charsOf, ih, List.append_assoc]

/-! ### The characters of the output -/

/-- The characters in which a character is escaped are ASCII, and a carriage return only stands for
itself. -/
theorem of_mem_escapeChar {b c : Char} (h : b ∈ escapeChar c) :
    b.toNat < 0x80 ∧ (b = '\r' → c = '\r') := by
  -- what stands in a reference is ASCII and no line end
  have hamp : ∀ b ∈ "&amp;".toList, b.toNat < 0x80 ∧ b ≠ '\r' :=
    List.all_iff_forall_prop.1 (by decide)
  have hlt : ∀ b ∈ "&lt;".toList, b.toNat < 0x80 ∧ b ≠ '\r' :=
    List.all_iff_forall_prop.1 (by decide)
  have hgt : ∀ b ∈ "&gt;".toList, b.toNat < 0x80 ∧ b ≠ '\r' :=
    List.all_iff_forall_prop.1 (by decide)
  have hdigit : ∀ d < 10, (Text.digitChar d).toNat < 0x80 ∧ Text.digitChar d ≠ '\r' := by decide
  have hplain : b.toNat < 0x80 ∧ b ≠ '\r' → b.toNat < 0x80 ∧ (b = '\r' → c = '\r') :=
    fun h => ⟨h.1, fun hb => absurd hb h.2⟩
  unfold escapeChar at h
  -- three references by name, the character itself, and a reference by number
  split at h
  · exact hplain (hamp b h)
  · split at h
    · exact hplain (hlt b h)
    · split at h
      · exact hplain (hgt b h)
      · split at h
        · next hascii =>
          rw [List.mem_singleton.1 h]
          exact ⟨hascii, id⟩
        · rw [Text.decimal, String.toList_ofList] at h
          simp only [List.cons_append, List.mem_cons, List.mem_append, List.mem_map,
            List.not_mem_nil, or_false] at h
          refine hplain ?_
          rcases h with rfl | rfl | ⟨d, hd, rfl⟩ | rfl
          · decide
          · decide
          · exact hdigit d (Text.lt_of_mem_digitsOf hd)
          · decide

/-- The characters of markup and white space in the output. -/
def marks : List Char := ['<', '>', '/', ' ', '\n']

theorem of_mem_marks : ∀ c ∈ marks, c.toNat < 0x80 ∧ c ≠ '\r' :=
  List.all_iff_forall_prop.1 (by decide)

/-- The tags around an element are made of marks and letters. -/
theorem mem_tag_cases {tag : String} (htag : IsTag tag) {c : Char}
    (h : c ∈ emptyTag tag ∨ c ∈ startTag tag ∨ c ∈ endTag tag) :
    c ∈ marks ∨ c.isAlpha = true := by
  have hcases : c ∈ marks ∨ c ∈ tag.toList := by
    simp only [emptyTag, startTag, endTag, marks, List.cons_append, List.mem_cons, List.mem_append,
      List.not_mem_nil, or_false] at h ⊢
    rcases h with (h | h | h | h | h) | (h | h | h) | (h | h | h | h) <;> simp [h]
  exact hcases.imp_right (htag.isAlpha c)

theorem mem_marks_of_mem_indent {level : Nat} {c : Char} (h : c ∈ indent level) : c ∈ marks := by
  rw [List.eq_of_mem_replicate h]
  decide

/-- Lines are made of the elements on them, and of marks. -/
theorem mem_writeLines_cases {items : List Markup} {level : Nat} {c : Char}
    (h : c ∈ writeLines level items) : c ∈ marks ∨ ∃ item ∈ items, c ∈ write level item := by
  induction items with
  | nil => cases h
  | cons item items ih =>
    rw [writeLines] at h
    simp only [List.append_assoc, List.mem_append, List.mem_singleton] at h
    rcases h with h | h | rfl | h
    · exact .inl (mem_marks_of_mem_indent h)
    · exact .inr ⟨item, List.mem_cons_self, h⟩
    · exact .inl (by decide)
    · exact (ih h).imp_right fun ⟨other, hother, hc⟩ =>
        ⟨other, List.mem_cons_of_mem item hother, hc⟩

/-- **What a written element is made of.** Each character is one of markup or white space, a letter
of a tag, or one in which a character of a text is escaped. -/
theorem mem_write_cases {m : Markup} (h : m.Tagged) {level : Nat} {c : Char}
    (hc : c ∈ write level m) :
    c ∈ marks ∨ c.isAlpha = true ∨ ∃ b ∈ m.chars, c ∈ escapeChar b := by
  have htags : ∀ {tag : String}, IsTag tag → ∀ {m : Markup},
      c ∈ emptyTag tag ∨ c ∈ startTag tag ∨ c ∈ endTag tag →
      c ∈ marks ∨ c.isAlpha = true ∨ ∃ b ∈ m.chars, c ∈ escapeChar b :=
    fun htag _ h => (mem_tag_cases htag h).imp_right .inl
  -- along the element: what is not its text consists of tags, indents and line ends
  induction h generalizing level with
  | @text tag s htag =>
    rw [write] at hc
    split at hc
    · exact htags htag (.inl hc)
    · rcases List.mem_append.1 hc with hc | hc
      · rcases List.mem_append.1 hc with hc | hc
        · exact htags htag (.inr (.inl hc))
        · exact .inr (.inr (List.mem_flatMap.1 hc))
      · exact htags htag (.inr (.inr hc))
  | @group tag items htag _ ih =>
    cases items with
    | nil =>
      rw [write] at hc
      exact htags htag (.inl hc)
    | cons item rest =>
      rw [write] at hc
      simp only [List.append_assoc, List.mem_append, List.mem_singleton] at hc
      rcases hc with hc | rfl | hc | hc | hc
      · exact htags htag (.inr (.inl hc))
      · exact .inl (by decide)
      · -- the characters of an element on a line are among those of the group
        rcases mem_writeLines_cases hc with hc | ⟨other, hother, hc⟩
        · exact .inl hc
        · refine (ih other hother hc).imp_right (Or.imp_right ?_)
          exact fun ⟨b, hb, hescaped⟩ => ⟨b, mem_charsOf.2 ⟨other, hother, hb⟩, hescaped⟩
      · exact .inl (mem_marks_of_mem_indent hc)
      · exact htags htag (.inr (.inr hc))

/-- **The output is ASCII**, if the comment is. -/
theorem toNat_lt_of_mem_document {comment : String}
    (hcomment : ∀ c ∈ comment.toList, c.toNat < 0x80) {root : Markup} (hroot : root.Tagged)
    {c : Char} (hc : c ∈ document comment root) : c.toNat < 0x80 := by
  have hdeclaration : ∀ b ∈ declaration, b.toNat < 0x80 := List.all_iff_forall_prop.1 (by decide)
  have hopen : ∀ b ∈ "\n<!-- ".toList, b.toNat < 0x80 := List.all_iff_forall_prop.1 (by decide)
  have hclose : ∀ b ∈ " -->".toList, b.toNat < 0x80 := List.all_iff_forall_prop.1 (by decide)
  simp only [document, List.append_assoc, List.mem_append, List.mem_cons, List.not_mem_nil,
    or_false] at hc
  -- the declaration, the comment between its marks, the lines of the root, and line ends
  rcases hc with hc | hc | hc | hc | rfl | hc | rfl
  · exact hdeclaration c hc
  · exact hopen c hc
  · exact hcomment c hc
  · exact hclose c hc
  · decide
  · -- the root is made of marks, of letters in tags and of escaped characters
    rcases mem_write_cases hroot hc with hc | hc | ⟨b, -, hc⟩
    · exact (of_mem_marks c hc).1
    · have hbounds := toNat_of_isAlpha hc
      omega
    · exact (of_mem_escapeChar hc).1
  · decide

/-- A written element starts with `<` and a letter. -/
theorem write_eq_cons {m : Markup} (h : m.Tagged) (level : Nat) :
    ∃ c rest, c.isAlpha = true ∧ write level m = '<' :: c :: rest := by
  -- each tag starts with a letter, so all that is left is that a tag comes first
  have htag : ∀ {tag : String}, IsTag tag → ∃ c cs, c.isAlpha = true ∧ tag.toList = c :: cs := by
    intro tag htag
    cases hcs : tag.toList with
    | nil => exact absurd hcs htag.ne_nil
    | cons c cs => exact ⟨c, cs, htag.isAlpha c (hcs ▸ List.mem_cons_self), rfl⟩
  cases h with
  | @text tag s ht =>
    obtain ⟨c, cs, hc, hcs⟩ := htag ht
    rw [write]
    split
    · exact ⟨c, _, hc, by rw [emptyTag, hcs, List.cons_append, List.cons_append]⟩
    · exact ⟨c, _, hc, by simp only [startTag, hcs, List.cons_append]; rfl⟩
  | @group tag items ht hitems =>
    obtain ⟨c, cs, hc, hcs⟩ := htag ht
    cases items with
    | nil =>
      rw [write]
      exact ⟨c, _, hc, by rw [emptyTag, hcs, List.cons_append, List.cons_append]⟩
    | cons item rest =>
      rw [write]
      exact ⟨c, _, hc, by simp only [startTag, hcs, List.cons_append]; rfl⟩

/-! ### Line ends in the output -/

mutual

/-- The element with the line ends in its texts normalized. -/
def normalized : Markup → Markup
  | .text tag s => .text tag (normalizeText s)
  | .group tag items => .group tag (normalizedAll items)

/-- Elements with the line ends in their texts normalized. -/
def normalizedAll : List Markup → List Markup
  | [] => []
  | item :: items => normalized item :: normalizedAll items

end

theorem normalizedAll_eq_map (items : List Markup) :
    normalizedAll items = items.map normalized := by
  induction items with
  | nil => rfl
  | cons item items ih => rw [normalizedAll, ih, List.map_cons]

@[simp] theorem normalized_text (tag s : String) :
    (Markup.text tag s).normalized = .text tag (normalizeText s) := by
  rw [normalized]

@[simp] theorem normalized_group (tag : String) (items : List Markup) :
    (Markup.group tag items).normalized = .group tag (items.map normalized) := by
  rw [normalized, normalizedAll_eq_map]

/-- An element without carriage returns is normalized. -/
theorem normalized_eq_self {m : Markup} (h : m.Tagged) (hchars : ∀ c ∈ m.chars, c ≠ '\r') :
    m.normalized = m := by
  induction h with
  | text =>
    rw [chars] at hchars
    rw [normalized_text, normalizeText_eq_self_iff.2 hchars]
  | @group tag items _ _ ih =>
    have hitems : ∀ item ∈ items, item.normalized = item := fun item hitem =>
      ih item hitem fun c hc => hchars c (by rw [chars, mem_charsOf]; exact ⟨item, hitem, hc⟩)
    rw [normalized_group, List.map_congr_left hitems, List.map_id']

theorem Tagged.normalized {m : Markup} (h : m.Tagged) : m.normalized.Tagged := by
  induction h with
  | text htag =>
    rw [normalized_text]
    exact .text htag
  | group htag _ ih =>
    rw [normalized_group]
    refine .group htag fun item hitem => ?_
    obtain ⟨other, hother, rfl⟩ := List.mem_map.1 hitem
    exact ih other hother

/-- There are no carriage returns in a normalized element. -/
theorem ne_carriageReturn_of_mem_normalized {m : Markup} (h : m.Tagged) {c : Char}
    (hc : c ∈ m.normalized.chars) : c ≠ '\r' := by
  induction h with
  | text =>
    rw [normalized_text, chars, normalizeText, String.toList_ofList] at hc
    exact ne_carriageReturn_of_mem_normalizeLines hc
  | group _ _ ih =>
    rw [normalized_group, chars, mem_charsOf] at hc
    obtain ⟨item, hitem, hc⟩ := hc
    obtain ⟨other, hother, rfl⟩ := List.mem_map.1 hitem
    exact ih other hother hc

/-- All other characters stay, but for line feeds. -/
theorem mem_chars_normalized_iff {m : Markup} (h : m.Tagged) {c : Char} (hr : c ≠ '\r')
    (hn : c ≠ '\n') : c ∈ m.normalized.chars ↔ c ∈ m.chars := by
  induction h with
  | text =>
    rw [normalized_text, chars, chars, normalizeText, String.toList_ofList]
    exact mem_normalizeLines_iff hr hn
  | group _ _ ih =>
    rw [normalized_group, chars, chars, mem_charsOf, mem_charsOf]
    constructor
    · rintro ⟨item, hitem, hc⟩
      obtain ⟨other, hother, rfl⟩ := List.mem_map.1 hitem
      exact ⟨other, hother, (ih other hother).1 hc⟩
    · rintro ⟨item, hitem, hc⟩
      exact ⟨item.normalized, List.mem_map_of_mem hitem, (ih item hitem).2 hc⟩

/-- To normalize an element neither adds nor removes what may not stand in a document. -/
theorem isLegal_chars_normalized_iff {m : Markup} (h : m.Tagged) :
    (∀ c ∈ m.normalized.chars, isLegal c = true) ↔ ∀ c ∈ m.chars, isLegal c = true := by
  refine forall_congr' fun c => ?_
  by_cases hc : c = '\r' ∨ c = '\n'
  · -- line ends come and go, but both may stand in a document
    have hlegal : isLegal c = true := by rcases hc with rfl | rfl <;> decide
    exact iff_of_true (fun _ => hlegal) fun _ => hlegal
  · rw [mem_chars_normalized_iff h (fun h => hc (.inl h)) fun h => hc (.inr h)]

/-- Only a line feed is escaped to what starts with one. -/
theorem head?_escapeChar (c : Char) : ∃ b cs, escapeChar c = b :: cs ∧ (b = '\n' → c = '\n') := by
  have hreference : '&' = '\n' → c = '\n' := fun h => absurd h (by decide)
  unfold escapeChar
  split
  · exact ⟨'&', _, rfl, hreference⟩
  · split
    · exact ⟨'&', _, rfl, hreference⟩
    · split
      · exact ⟨'&', _, rfl, hreference⟩
      · split
        · exact ⟨c, [], rfl, id⟩
        · exact ⟨'&', _, rfl, hreference⟩

/-- The line ends in an escaped text are normalized before the tag after it. -/
theorem normalizeLines_escape (cs : List Char) {more : List Char} (h : more.head? ≠ some '\n') :
    normalizeLines (cs.flatMap escapeChar ++ more) =
      (normalizeLines cs).flatMap escapeChar ++ normalizeLines more := by
  fun_induction normalizeLines cs with
  | case1 => rfl
  | case2 cs ih =>
    show '\n' :: normalizeLines (cs.flatMap escapeChar ++ more) =
      '\n' :: ((normalizeLines cs).flatMap escapeChar ++ normalizeLines more)
    rw [ih]
  | case3 c cs hno ih =>
    rw [List.flatMap_cons, List.flatMap_cons, List.append_assoc, List.append_assoc, ← ih]
    split
    · next hc =>
      subst hc
      -- what follows the carriage return does not start with a line feed
      have hhead : (cs.flatMap escapeChar ++ more).head? ≠ some '\n' := by
        cases cs with
        | nil => exact h
        | cons b cs =>
          obtain ⟨a, as, ha, hfeed⟩ := head?_escapeChar b
          rw [List.flatMap_cons, ha]
          intro he
          obtain rfl := hfeed (Option.some.inj he)
          exact hno cs rfl rfl
      exact normalizeLines_return hhead
    · next hc => exact normalizeLines_append (fun b hb he => hc ((of_mem_escapeChar hb).2 he)) _

/-- The tags around an element are normalized already. -/
theorem normalizeLines_tag {tag : String} (htag : IsTag tag) {cs : List Char}
    (h : cs = emptyTag tag ∨ cs = startTag tag ∨ cs = endTag tag) (more : List Char) :
    normalizeLines (cs ++ more) = cs ++ normalizeLines more := by
  refine normalizeLines_append (fun c hc => ?_) more
  have hmem : c ∈ emptyTag tag ∨ c ∈ startTag tag ∨ c ∈ endTag tag := by
    rcases h with rfl | rfl | rfl
    · exact .inl hc
    · exact .inr (.inl hc)
    · exact .inr (.inr hc)
  rcases mem_tag_cases htag hmem with hc | hc
  · exact (of_mem_marks c hc).2
  · exact ne_of_isAlpha hc rfl

theorem normalizeLines_indent (level : Nat) (more : List Char) :
    normalizeLines (indent level ++ more) = indent level ++ normalizeLines more :=
  normalizeLines_append (fun c hc => by rw [List.eq_of_mem_replicate hc]; decide) more

/-- Elements on lines of their own, once it is known of each. -/
theorem normalizeLines_writeLines {items : List Markup} {level : Nat}
    (h : ∀ item ∈ items, ∀ more, normalizeLines (write level item ++ more) =
      write level item.normalized ++ normalizeLines more) (more : List Char) :
    normalizeLines (writeLines level items ++ more) =
      writeLines level (items.map normalized) ++ normalizeLines more := by
  induction items with
  | nil => rfl
  | cons item items ih =>
    have hrest := ih fun other hother => h other (List.mem_cons_of_mem item hother)
    rw [List.map_cons, writeLines, writeLines]
    simp only [List.append_assoc, normalizeLines_indent, h item List.mem_cons_self,
      List.singleton_append]
    rw [List.cons_append, normalizeLines_cons_of_ne (by decide), hrest, List.cons_append]

/-- **Line ends.** To normalize a written element is to write it normalized. -/
theorem normalizeLines_write {m : Markup} (h : m.Tagged) (level : Nat) (more : List Char) :
    normalizeLines (write level m ++ more) =
      write level m.normalized ++ normalizeLines more := by
  induction h generalizing level more with
  | @text tag s htag =>
    rw [normalized_text, write, write]
    by_cases hs : s = ""
    · subst hs
      exact normalizeLines_tag htag (.inl rfl) more
    · have hne : normalizeText s ≠ "" := fun h => hs (normalizeText_eq_empty_iff.1 h)
      rw [if_neg hs, if_neg hne]
      -- a carriage return at the end of the text stands before `<`, and so on its own
      have hend : (endTag tag ++ more).head? ≠ some '\n' := fun h => nomatch h
      simp only [List.append_assoc, normalizeLines_tag htag (.inr (.inl rfl)), escape,
        normalizeLines_escape _ hend, normalizeLines_tag htag (.inr (.inr rfl))]
      rw [normalizeText, String.toList_ofList]
  | @group tag items htag _ ih =>
    rw [normalized_group]
    cases items with
    | nil =>
      rw [write]
      exact normalizeLines_tag htag (.inl rfl) more
    | cons item rest =>
      have hlines := normalizeLines_writeLines fun other hother => ih other hother (level + 1)
      rw [List.map_cons, write, write, ← List.map_cons]
      simp only [List.append_assoc, normalizeLines_tag htag (.inr (.inl rfl)),
        List.cons_append, List.nil_append]
      rw [normalizeLines_cons_of_ne (by decide), hlines, normalizeLines_indent,
        normalizeLines_tag htag (.inr (.inr rfl))]

end Markup

end Depot.Xml
