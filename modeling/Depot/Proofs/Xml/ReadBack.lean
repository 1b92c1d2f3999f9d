import Depot.Proofs.Text.Utf8
import Depot.Proofs.Xml.Building
import Depot.Proofs.Xml.Output
import Depot.Xml.Document
/-!
# Written documents are read back

`Markup.element` says which element a written element is when it is read: the same tags and texts,
with the line ends and blanks that the writer puts between elements as text of its own. Every legal
text is kept as it is, inner blanks and markup characters included, with one exception: a carriage
return is written as it is and read as a line feed, so `Markup.WellFormed` leaves it out.

The main statement is `Document.ofText_document`: a written document, with its declaration and its
comment, is read as the element of its root. It follows the text through all stages: octets and back
(`Utf8.decode_encode`), the declaration, the line ends (`Markup.normalizeLines_write`), the comment
before the root, the machine that reads tokens (`Markup.lexes_write`), and the tree
(`tree?_of_spells`). With carriage returns in it, the document is read as the element of its root
all the same, with line ends normalized (`Document.ofText_document_of_isLegal`).
-/

namespace Depot.Xml

/-! ### The element that is read -/

namespace Markup

/-- The tag of an element. -/
def tag : Markup → String
  | .text tag _ => tag
  | .group tag _ => tag

@[simp] theorem tag_text (tag s : String) : (Markup.text tag s).tag = tag := rfl

mutual

/-- What is read inside an element that is written at a level. -/
def content (level : Nat) : Markup → Content
  | .text _ s => .ofChars s.toList
  | .group _ items =>
    match items with
    | [] => .nil
    | item :: rest =>
      .char '\n' ((contentOfLines (level + 1) (item :: rest)).append (.ofChars (indent level)))

/-- What is read of elements, each on its own lines. -/
def contentOfLines (level : Nat) : List Markup → Content
  | [] => .nil
  | item :: items => (Content.ofChars (indent level)).append
      (.element ⟨none, item.tag⟩ (content level item) (.char '\n' (contentOfLines level items)))

end

/-- The element that is read where an element is written at a level. -/
def element (m : Markup) (level : Nat) : Element := ⟨⟨none, m.tag⟩, m.content level⟩

/-- Elements that can be written so that they are read back: their tags are made of letters, and
their texts of characters that may stand in a document, without carriage returns. -/
inductive WellFormed : Markup → Prop where
  | text {tag s : String} (htag : IsTag tag)
      (hs : ∀ c ∈ s.toList, isLegal c = true ∧ c ≠ '\r') : WellFormed (.text tag s)
  | group {tag : String} {items : List Markup} (htag : IsTag tag)
      (hitems : ∀ item ∈ items, WellFormed item) : WellFormed (.group tag items)

theorem wellFormed_iff {m : Markup} :
    m.WellFormed ↔ m.Tagged ∧ ∀ c ∈ m.chars, isLegal c = true ∧ c ≠ '\r' := by
  constructor
  · intro h
    induction h with
    | text htag hs => exact ⟨.text htag, by rwa [chars]⟩
    | group htag _ ih =>
      refine ⟨.group htag fun item hitem => (ih item hitem).1, fun c hc => ?_⟩
      rw [chars, mem_charsOf] at hc
      obtain ⟨item, hitem, hc⟩ := hc
      exact (ih item hitem).2 c hc
  · rintro ⟨h, hchars⟩
    induction h with
    | text htag => exact .text htag (by rwa [chars] at hchars)
    | group htag _ ih =>
      refine .group htag fun item hitem => ih item hitem fun c hc => hchars c ?_
      rw [chars, mem_charsOf]
      exact ⟨item, hitem, hc⟩

/-! ### What a reader asks of the element -/

@[simp] theorem allChars_ofChars (cs : List Char) : (Content.ofChars cs).allChars = cs := by
  induction cs with
  | nil => rfl
  | cons c cs ih => rw [Content.ofChars, Content.allChars, ih]

@[simp] theorem children_ofChars (cs : List Char) : (Content.ofChars cs).children = [] := by
  induction cs with
  | nil => rfl
  | cons c cs ih => rw [Content.ofChars, Content.children, ih]

@[simp] theorem descendants_ofChars (cs : List Char) : (Content.ofChars cs).descendants = [] := by
  induction cs with
  | nil => rfl
  | cons c cs ih => rw [Content.ofChars, Content.descendants, ih]

/-- An element that holds text has that text. -/
@[simp] theorem allText_text (tag s : String) (level : Nat) :
    (element (.text tag s) level).allText = s := by
  rw [Element.allText, element, content, allChars_ofChars, String.ofList_toList]

/-- An element that holds text has no elements inside. -/
@[simp] theorem selfAndDescendants_text (tag s : String) (level : Nat) :
    (element (.text tag s) level).selfAndDescendants = [element (.text tag s) level] := by
  rw [Element.selfAndDescendants, element, content, descendants_ofChars]

theorem children_contentOfLines (level : Nat) (items : List Markup) :
    (contentOfLines level items).children = items.map fun item => item.element level := by
  induction items with
  | nil => rfl
  | cons item items ih =>
    rw [contentOfLines, Content.children_append, children_ofChars, List.nil_append,
      Content.children, Content.children, ih]
    rfl

theorem descendants_contentOfLines (level : Nat) (items : List Markup) :
    (contentOfLines level items).descendants =
      items.flatMap fun item => (item.element level).selfAndDescendants := by
  induction items with
  | nil => rfl
  | cons item items ih =>
    rw [contentOfLines, Content.descendants_append, descendants_ofChars, List.nil_append,
      Content.descendants, Content.descendants, ih]
    rfl

/-- The children of an element that holds elements are those. -/
@[simp] theorem children_group (tag : String) (items : List Markup) (level : Nat) :
    (element (.group tag items) level).children =
      items.map fun item => item.element (level + 1) := by
  cases items with
  | nil => rw [Element.children, element, content]; rfl
  | cons item items =>
    rw [Element.children, element, content, Content.children, Content.children_append,
      children_contentOfLines, children_ofChars, List.append_nil]

/-- An element that holds elements comes before all those inside it, in order. -/
@[simp] theorem selfAndDescendants_group (tag : String) (items : List Markup) (level : Nat) :
    (element (.group tag items) level).selfAndDescendants = element (.group tag items) level ::
      items.flatMap fun item => (item.element (level + 1)).selfAndDescendants := by
  cases items with
  | nil => rw [Element.selfAndDescendants, element, content]; rfl
  | cons item items =>
    rw [Element.selfAndDescendants]
    refine congrArg _ ?_
    rw [element, content, Content.descendants, Content.descendants_append,
      descendants_contentOfLines, descendants_ofChars, List.append_nil]

/-- The children of a given name are the elements that are written with that tag. -/
theorem childrenNamed_group (tag name : String) (items : List Markup) (level : Nat) :
    (element (.group tag items) level).childrenNamed name =
      (items.filter fun item => item.tag == name).map fun item => item.element (level + 1) := by
  rw [Element.childrenNamed, children_group, List.filter_map]
  rfl

/-! ### Reading elements -/

variable {d : Dialect}

/-- The blanks in front of an element. -/
theorem lexes_indent (level : Nat) : Lexes d (indent level) (.ofChars (indent level)) :=
  lexes_spaces fun _ hc => .inl (List.eq_of_mem_replicate hc)

/-- The end of a line. -/
theorem lexes_lineEnd : Lexes d ['\n'] (.ofChars ['\n']) :=
  lexes_spaces fun _ hc => .inr (List.mem_singleton.1 hc)

/-- Elements on lines of their own, once it is known of each how it is read. -/
theorem lexes_writeLines {items : List Markup} {level : Nat}
    (h : ∀ item ∈ items, Lexes d (write level item)
      (.element ⟨none, item.tag⟩ (content level item) .nil)) :
    Lexes d (writeLines level items) (contentOfLines level items) := by
  induction items with
  | nil => exact .nil
  | cons item items ih =>
    have hitem := h item List.mem_cons_self
    have hrest := ih fun other hother => h other (List.mem_cons_of_mem item hother)
    have hall := (((lexes_indent level).append hitem).append lexes_lineEnd).append hrest
    rw [Content.append_assoc, Content.append_assoc] at hall
    exact hall

/-- **Reading a written element.** At every level an element is read as the element with its
content. -/
theorem lexes_write {m : Markup} (h : m.WellFormed) (level : Nat) :
    Lexes d (write level m) (.element ⟨none, m.tag⟩ (content level m) .nil) := by
  induction h generalizing level with
  | @text tag s htag hs =>
    rw [write, content]
    split
    · next hempty =>
      subst hempty
      exact lexes_emptyTag htag
    · exact lexes_element htag (lexes_escape fun c hc => (hs c hc).1)
  | @group tag items htag _ ih =>
    cases items with
    | nil =>
      rw [write, content]
      exact lexes_emptyTag htag
    | cons item rest =>
      rw [write, content]
      -- inside, the elements stand on lines of their own, between the tags on theirs
      have hlines := lexes_writeLines fun other hother => ih other hother (level + 1)
      have hinside := lexes_element htag ((lexes_lineEnd.append hlines).append (lexes_indent level))
      rw [Content.append_assoc] at hinside
      simp only [List.append_assoc] at hinside ⊢
      exact hinside

/-- The tokens of a document are those of its root and of the line end after it. -/
theorem exists_tokens?_of_lexes {cs : List Char} {k : Content} (h : Lexes d cs k) :
    ∃ tokens, tokens? d (cs ++ ['\n']) = some (tokens ++ [.text '\n']) ∧ Spells tokens k := by
  obtain ⟨n, tokens, hrun, hspells⟩ := h 0
  have hstep : LexState.run d (.text n) ['\n'] = some (.text 0, [.text '\n']) := rfl
  refine ⟨tokens, ?_, hspells⟩
  unfold tokens?
  rw [LexState.run_append, hrun]
  simp only [Option.bind_eq_bind, Option.bind_some, hstep]
  rfl

end Markup

/-! ### What stands before the root -/

/-- May the text stand in a comment, between blanks? It must be legal, without carriage returns, and
hold no two hyphens next to one another. -/
def isComment : List Char → Bool
  | [] => true
  | '-' :: '-' :: _ => false
  | c :: cs => isLegal c && c != '\r' && isComment cs

/-- What `isComment` says of the first character and of the rest. -/
theorem isComment_cons {c : Char} {cs : List Char} (h : isComment (c :: cs) = true) :
    isLegal c = true ∧ c ≠ '\r' ∧ isComment cs = true ∧ (c = '-' → cs.head? ≠ some '-') := by
  rw [isComment.eq_def] at h
  split at h
  · next heq => cases heq
  · cases h
  · next b bs hno heq =>
    cases heq
    simp only [Bool.and_eq_true, bne_iff_ne, ne_eq] at h
    refine ⟨h.1.1, h.1.2, h.2, ?_⟩
    rintro rfl hhead
    cases cs with
    | nil => cases hhead
    | cons a as =>
      obtain rfl := Option.some.inj hhead
      exact absurd rfl (hno as rfl)

/-- A comment holds no carriage return. -/
theorem ne_carriageReturn_of_isComment {cs : List Char} (h : isComment cs = true) {b : Char}
    (hb : b ∈ cs) : b ≠ '\r' := by
  induction cs with
  | nil => exact nomatch hb
  | cons c cs ih =>
    obtain ⟨-, hc, hcs, -⟩ := isComment_cons h
    rcases List.mem_cons.1 hb with rfl | hb
    · exact hc
    · exact ih hcs hb

/-- A comment is skipped up to its end. The induction is on the text that is left; after a hyphen
the next character is none. -/
theorem skipMarkup_comment (letters : Letters) {cs : List Char} (h : isComment cs = true)
    {hyphens : Nat} (hhyphens : hyphens = 0 ∨ hyphens = 1 ∧ cs.head? ≠ some '-')
    (rest : List Char) :
    Doctype.skipMarkup letters (.comment hyphens) (cs ++ " -->".toList ++ rest) =
      .ok ((), rest) := by
  induction cs generalizing hyphens with
  | nil =>
    rcases hhyphens with rfl | ⟨rfl, -⟩
    · rfl
    · rfl
  | cons c cs ih =>
    obtain ⟨hlegal, -, hcs, hnext⟩ := isComment_cons h
    -- the next count of hyphens is one after a hyphen, else none
    have hstep : ∃ next, (next = 0 ∨ next = 1 ∧ cs.head? ≠ some '-') ∧
        LexState.step { letters } (.comment hyphens) c = some (.comment next, []) := by
      by_cases hc : c = '-'
      · rcases hhyphens with rfl | ⟨rfl, hhead⟩
        · refine ⟨1, .inr ⟨rfl, hnext hc⟩, ?_⟩
          rw [LexState.step, hlegal]
          simp [hc]
        · exact absurd (congrArg some hc) hhead
      · refine ⟨0, .inl rfl, ?_⟩
        have htwo : hyphens ≠ 2 := by omega
        rw [LexState.step, hlegal]
        simp [hc, htwo]
    obtain ⟨next, hnext, hstep⟩ := hstep
    rw [List.cons_append, List.cons_append, Doctype.skipMarkup, hstep]
    exact ih hcs hnext

namespace Document

/-- The declaration of a written document is split off. -/
theorem split_declaration (rest : List Char) :
    Declaration.split (Markup.declaration ++ rest) =
      .ok (some { encoding := some "US-ASCII" }, rest) := by
  have hpresent : Declaration.isPresent (Markup.declaration ++ rest) = true := rfl
  have hend : Declaration.splitEnd? ((Markup.declaration ++ rest).drop 5) =
      some (" version=\"1.0\" encoding=\"US-ASCII\"".toList, rest) := rfl
  have hbody : Declaration.body? " version=\"1.0\" encoding=\"US-ASCII\"".toList =
      some { encoding := some "US-ASCII" } := by decide +kernel
  unfold Declaration.split
  rw [hpresent, if_pos rfl, hend]
  simp only [hbody]

/-- A text that does not start with the mark of another charset is opened as it is. -/
theorem openingOfText_of_split {s : String}
    (hdetect : Charset.detect (Utf8.encode s.toList) = (.utf8, Utf8.encode s.toList))
    {d? : Option Declaration} {rest : List Char} (hsplit : Declaration.split s.toList =
      .ok (d?, rest)) : openingOfText s = .ok ⟨.common, d?.any (·.standalone), rest⟩ := by
  have hdecode : Charset.utf8.decode (Utf8.encode s.toList) = s.toList := Utf8.decode_encode _ _
  unfold openingOfText
  rw [Utf8.encodeString, hdetect]
  simp only [hdecode, hsplit]
  cases d? <;> rfl

/-- A document that starts with the declaration is opened as it is. -/
theorem openingOfText_declaration (rest : List Char) :
    openingOfText (String.ofList (Markup.declaration ++ rest)) =
      .ok ⟨.common, false, rest⟩ := by
  have htext : (String.ofList (Markup.declaration ++ rest)).toList = Markup.declaration ++ rest :=
    String.toList_ofList
  have hsplit := split_declaration rest
  rw [← htext] at hsplit
  exact openingOfText_of_split (by rw [htext]; rfl) hsplit

/-- The prolog ends where the root element starts. -/
theorem prolog_root {c : Char} (hc : c.isAlpha = true) {cs rest : List Char}
    (hspace : skipSpace cs = '<' :: c :: rest) {fuel : Nat} (hfuel : 0 < fuel) :
    prolog .common false fuel none cs =
      .ok ({ letters := .common, standalone := false }, '<' :: c :: rest) := by
  obtain ⟨fuel, rfl⟩ := Nat.exists_eq_succ_of_ne_zero (Nat.ne_of_gt hfuel)
  have hbang : c ≠ '!' := ne_of_isAlpha hc rfl
  have hquestion : c ≠ '?' := ne_of_isAlpha hc rfl
  unfold prolog
  rw [hspace]
  simp [Doctype.takeText?, Ne.symm hbang, Ne.symm hquestion]

/-- A comment between the declaration and the root is skipped. -/
theorem prolog_comment {comment : List Char} (hcomment : isComment comment = true) {c : Char}
    (hc : c.isAlpha = true) (rest : List Char) {fuel : Nat} (hfuel : 2 ≤ fuel) :
    prolog .common false fuel none
        ("\n<!-- ".toList ++ comment ++ " -->".toList ++ '\n' :: '<' :: c :: rest) =
      .ok ({ letters := .common, standalone := false }, '<' :: c :: rest) := by
  -- one round for the comment, and one that finds the root
  obtain ⟨fuel, rfl⟩ : ∃ k, fuel = k + 2 := ⟨fuel - 2, by omega⟩
  have hskip : Doctype.skipMarkup .common (.text 0)
      ("<!-- ".toList ++ (comment ++ " -->".toList ++ '\n' :: '<' :: c :: rest)) =
      .ok ((), '\n' :: '<' :: c :: rest) :=
    skipMarkup_comment .common hcomment (.inl rfl) ('\n' :: '<' :: c :: rest)
  have hroot : prolog .common false (fuel + 1) none ('\n' :: '<' :: c :: rest) =
      .ok ({ letters := .common, standalone := false }, '<' :: c :: rest) :=
    prolog_root hc rfl (Nat.succ_pos fuel)
  -- neither a doctype nor an instruction starts here, so this round skips the comment
  unfold prolog
  have hspace : skipSpace
      ("\n<!-- ".toList ++ comment ++ " -->".toList ++ '\n' :: '<' :: c :: rest) =
      "<!-- ".toList ++ (comment ++ " -->".toList ++ '\n' :: '<' :: c :: rest) := by
    simp only [List.append_assoc]
    rfl
  rw [hspace]
  have hdoctype : Doctype.takeText? "<!DOCTYPE"
      ("<!-- ".toList ++ (comment ++ " -->".toList ++ '\n' :: '<' :: c :: rest)) = none := rfl
  have hinstruction : Doctype.takeText? "<?"
      ("<!-- ".toList ++ (comment ++ " -->".toList ++ '\n' :: '<' :: c :: rest)) = none := rfl
  have hbegin : (Doctype.takeText? "<!--"
      ("<!-- ".toList ++ (comment ++ " -->".toList ++ '\n' :: '<' :: c :: rest))).isSome = true :=
    rfl
  simp only [hdoctype, hinstruction, hbegin, Option.isSome_none, Bool.false_or,
    if_neg Bool.false_ne_true, if_true]
  rw [hskip]
  exact hroot

/-- **Reading a written document.** Whether it is read is decided by the tokens of its root and by
the tree that they stand for, with line ends normalized. There is no document type, so there are no
rules for attributes. -/
theorem ofText_document_eq {comment : String} (hcomment : isComment comment.toList = true)
    {root : Markup} (hroot : root.Tagged) {d : Doctype}
    (hd : d = { letters := .common, standalone := false }) :
    ofText (String.ofList (Markup.document comment root)) =
      match (tokens? d.dialect (root.normalized.write 0 ++ ['\n'])).bind (tree? d) with
      | some root => .ok root
      | none => .error .malformed := by
  -- after the declaration come the comment, on a line of its own, and the root
  obtain ⟨front, hfront⟩ : ∃ front, front = "\n<!-- ".toList ++ comment.toList ++ " -->".toList ++
    ['\n'] := ⟨_, rfl⟩
  -- the text in three parts, and its line ends part by part
  have htext : Markup.document comment root =
      Markup.declaration ++ (front ++ (root.write 0 ++ ['\n'])) := by
    rw [hfront, Markup.document]
    simp only [List.append_assoc, List.singleton_append]
  have hlines : normalizeLines (front ++ (root.write 0 ++ ['\n'])) =
      front ++ (root.normalized.write 0 ++ ['\n']) := by
    have hopen : ∀ b ∈ "\n<!-- ".toList, b ≠ '\r' := List.all_iff_forall_prop.1 (by decide)
    have hclose : ∀ b ∈ " -->".toList, b ≠ '\r' := List.all_iff_forall_prop.1 (by decide)
    have hne : ∀ b ∈ front, b ≠ '\r' := by
      intro b hb
      rw [hfront] at hb
      simp only [List.append_assoc, List.mem_append, List.mem_singleton] at hb
      rcases hb with hb | hb | hb | rfl
      · exact hopen b hb
      · exact ne_carriageReturn_of_isComment hcomment hb
      · exact hclose b hb
      · decide
    rw [normalizeLines_append hne, Markup.normalizeLines_write hroot]
    rfl
  obtain ⟨c, more, hc, hwrite⟩ := Markup.write_eq_cons hroot.normalized 0
  -- the prolog ends where the root begins, which is at the first tag
  have hprolog : prolog .common false ((front ++ (root.normalized.write 0 ++ ['\n'])).length + 1)
      none (front ++ (root.normalized.write 0 ++ ['\n'])) =
      .ok (d, root.normalized.write 0 ++ ['\n']) := by
    rw [hd, hwrite, hfront, List.append_assoc _ ['\n']]
    exact prolog_comment hcomment hc (more ++ ['\n']) (by simp)
  unfold ofText body
  rw [htext, openingOfText_declaration]
  simp only [bind, Except.bind, hlines, hprolog]
  rfl

/-- A document without characters that may not stand in one is read as the element of its root, with
line ends normalized. -/
theorem ofText_document_of_isLegal {comment : String} (hcomment : isComment comment.toList = true)
    {root : Markup} (hroot : root.Tagged) (hlegal : ∀ c ∈ root.chars, isLegal c = true) :
    ofText (String.ofList (Markup.document comment root)) = .ok (root.normalized.element 0) := by
  have hwell : root.normalized.WellFormed := Markup.wellFormed_iff.2 ⟨hroot.normalized,
    fun c hc => ⟨(Markup.isLegal_chars_normalized_iff hroot).2 hlegal c hc,
      Markup.ne_carriageReturn_of_mem_normalized hroot hc⟩⟩
  obtain ⟨d, hd⟩ : ∃ d : Doctype, d = { letters := .common, standalone := false } := ⟨_, rfl⟩
  obtain ⟨tokens, htokens, hspells⟩ :=
    Markup.exists_tokens?_of_lexes (Markup.lexes_write (d := d.dialect) hwell 0)
  have htree : tree? d (tokens ++ [.text '\n']) = some (root.normalized.element 0) :=
    tree?_of_spells (by rw [hd]) hspells
  rw [ofText_document_eq hcomment hroot hd, htokens, Option.bind_some, htree]

/-- **Reading back a written document.** A document that is written with a comment and a root is
read as the element of that root. -/
theorem ofText_document {comment : String} (hcomment : isComment comment.toList = true)
    {root : Markup} (hroot : root.WellFormed) :
    ofText (String.ofList (Markup.document comment root)) = .ok (root.element 0) := by
  obtain ⟨htagged, hchars⟩ := Markup.wellFormed_iff.1 hroot
  rw [ofText_document_of_isLegal hcomment htagged fun c hc => (hchars c hc).1,
    Markup.normalized_eq_self htagged fun c hc => (hchars c hc).2]

end Document

end Depot.Xml
