import Depot.Proofs.Xml.Building
/-!
# Text between the tags of an element

Text may be put between a start tag and an end tag by pasting. Whether the whole is one element,
and which, is then a matter of the text alone (`tree?_wrapped_iff`): it must be read from tags to
tags by itself, with all its elements closed, and none but its own. `Fills` says so, without the
tags.

Two things could go wrong, and both refuse the document. The text could leave the machine within a
lexeme that swallows the end tag; but all lexemes that may hold a `<` need more than a tag to end
(`LexState.isText_of_run_endTag`). Or the text could close the element that it was put into; but
then the document is over, and nothing is left that the end tag could close
(`Builder.stack_eq_nil_of_run`).

As long as the element is open, what its text adds to it does not depend on what it holds already
(`Builder.run_inside`). The step lemma says this of one token, whatever is open by then.
-/

namespace Depot.Xml

/-! ### Lexemes that hold any text -/

namespace LexState

variable {d : Dialect}

/-- What is read of a text is what is read of its first character, and then of the others. -/
theorem run_cons_eq_some_iff {s last : LexState} {c : Char} {cs : List Char}
    {tokens : List Token} : run d s (c :: cs) = some (last, tokens) ↔
      ∃ next first more, step d s c = some (next, first) ∧ run d next cs = some (last, more) ∧
        first ++ more = tokens := by
  simp only [run, Option.bind_eq_bind, Option.bind_eq_some_iff, Prod.exists, Option.pure_def,
    Option.some.injEq, Prod.mk.injEq]
  constructor
  · rintro ⟨next, first, hstep, _, more, hrun, rfl, htokens⟩
    exact ⟨next, first, more, hstep, hrun, htokens⟩
  · rintro ⟨next, first, more, hstep, hrun, htokens⟩
    exact ⟨next, first, hstep, last, more, hrun, rfl, htokens⟩

/-- The machine is in a lexeme that may hold a `<`, and that has not begun to end. -/
inductive IsVerbatim : LexState → Prop
  | comment : IsVerbatim (.comment 0)
  | instruction (read : List Char) : IsVerbatim (.instruction read false)
  | quoted (read : List Char) : IsVerbatim (.quoted read 0)

/-- It goes on until there is one of the characters with which such lexemes end. -/
theorem IsVerbatim.step {s : LexState} (h : s.IsVerbatim) {c : Char} (hlegal : isLegal c = true)
    (hc : c ∉ ['-', '?', ']']) :
    ∃ next, LexState.step d s c = some (next, []) ∧ next.IsVerbatim := by
  simp only [List.mem_cons, List.not_mem_nil, or_false, not_or] at hc
  obtain ⟨hhyphen, hquestion, hbracket⟩ := hc
  cases h with
  | comment =>
    exact ⟨.comment 0, by simp [LexState.step, hlegal, hhyphen], .comment⟩
  | instruction read =>
    exact ⟨.instruction (c :: read) false, by simp [LexState.step, hlegal, hquestion],
      .instruction _⟩
  | quoted read =>
    exact ⟨.quoted (c :: read) 0, by simp [LexState.step, hlegal, hbracket], .quoted _⟩

theorem IsVerbatim.run {s : LexState} (h : s.IsVerbatim) {cs : List Char}
    (hcs : ∀ c ∈ cs, isLegal c = true ∧ c ∉ ['-', '?', ']']) :
    ∃ last, LexState.run d s cs = some (last, []) ∧ last.IsVerbatim := by
  induction cs generalizing s with
  | nil => exact ⟨s, rfl, h⟩
  | cons c cs ih =>
    obtain ⟨hlegal, hc⟩ := hcs c List.mem_cons_self
    obtain ⟨next, hstep, hnext⟩ := h.step (d := d) hlegal hc
    obtain ⟨last, hrun, hlast⟩ := ih hnext fun b hb => hcs b (List.mem_cons_of_mem c hb)
    exact ⟨last, by rw [run_cons_of_step hstep, hrun], hlast⟩

/-- Outside text a `<` is a fault, or part of a lexeme that may hold it. -/
theorem step_lessThan_cases {s : LexState} (h : s.isText = false) :
    step d s '<' = none ∨ ∃ next, step d s '<' = some (next, []) ∧ next.IsVerbatim := by
  have hlegal : isLegal '<' = true := by decide
  -- `<` is refused within a tag or a reference, and passed over where all is verbatim
  cases s with
  | text n => cases h
  | reference read => exact .inl rfl
  | markup => exact .inl rfl
  | startTag quote read => cases quote <;> exact .inl rfl
  | endTag read => exact .inl rfl
  | declaration read =>
    left
    have hdeclare : declare ('<' :: read) = none := by
      have hmem : '<' ∈ ('<' :: read).reverse := by simp
      have hmarks : '<' ∉ "--".toList ∧ '<' ∉ "[CDATA[".toList := by decide
      unfold declare
      rw [if_neg (by simp), if_neg, if_neg]
      · simp only [Bool.or_eq_true, List.isPrefixOf_iff_prefix, not_or]
        exact ⟨fun h => hmarks.1 (h.subset hmem), fun h => hmarks.2 (h.subset hmem)⟩
      · intro heq
        exact hmarks.2 (heq ▸ hmem)
    simp [step, hlegal, hdeclare]
  | comment hyphens =>
    by_cases htwo : hyphens = 2
    · subst htwo
      exact .inl rfl
    · exact .inr ⟨.comment 0, by simp [step, hlegal, htwo], .comment⟩
  | instruction read question => exact .inr ⟨_, rfl, .instruction _⟩
  | quoted read brackets => exact .inr ⟨_, rfl, .quoted _⟩

/-- A letter is legal, and nothing ends with it. -/
theorem isLegal_and_not_mem_of_isAlpha {c : Char} (h : c.isAlpha = true) :
    isLegal c = true ∧ c ∉ ['-', '?', ']'] := by
  have hall : ∀ b ∈ ['-', '?', ']'], b.isAlpha = false := List.all_iff_forall_prop.1 (by decide)
  exact ⟨isLegal_of_isAlpha h, fun hmem => ne_of_isAlpha h (hall c hmem) rfl⟩

/-- An end tag is one only in text. -/
theorem isText_of_run_endTag {tag : String} (htag : IsTag tag) {s last : LexState}
    {tokens : List Token} (h : run d s (Markup.endTag tag) = some (last, tokens))
    (hlast : last.isText = true) : s.isText = true := by
  cases hs : s.isText with
  | true => rfl
  | false =>
  rcases step_lessThan_cases (d := d) hs with hstep | ⟨next, hstep, hnext⟩
  · rw [Markup.endTag, List.cons_append, run, hstep] at h
    cases h
  · -- all of the tag is passed over, and the text does not end there
    have hrest : ∀ c ∈ '/' :: tag.toList ++ ['>'], isLegal c = true ∧ c ∉ ['-', '?', ']'] := by
      intro c hc
      simp only [List.cons_append, List.mem_cons, List.mem_append, List.not_mem_nil,
        or_false] at hc
      rcases hc with rfl | hc | rfl
      · decide
      · exact isLegal_and_not_mem_of_isAlpha (htag.isAlpha c hc)
      · decide
    obtain ⟨verbatim, hrun, hverbatim⟩ := hnext.run (d := d) hrest
    rw [Markup.endTag, List.cons_append, run_cons_of_step hstep, hrun] at h
    cases h
    cases hverbatim <;> cases hlast

end LexState

/-- **Tokens between tags.** A text between the tags of an element is a sequence of tokens exactly
if it is one by itself. -/
theorem tokens?_wrapped_iff {d : Dialect} {tag : String} (htag : IsTag tag) {cs : List Char}
    {tokens : List Token} :
    tokens? d (Markup.startTag tag ++ cs ++ Markup.endTag tag) = some tokens ↔
      ∃ n inner, LexState.run d (.text 0) cs = some (.text n, inner) ∧
        tokens = .startTag ⟨none, tag⟩ [] :: (inner ++ [.endTag tag.toList]) := by
  -- the start tag is read first, so the run goes on from the text behind it
  have hstart := run_startTag (d := d) htag 0
  unfold tokens?
  rw [List.append_assoc, LexState.run_append, hstart]
  simp only [Option.bind_eq_bind, Option.bind_some, LexState.run_append]
  constructor
  · intro h
    cases hinner : LexState.run d (.text 0) cs with
    | none => simp [hinner] at h
    | some r =>
      obtain ⟨s, inner⟩ := r
      cases hend : LexState.run d s (Markup.endTag tag) with
      | none => simp [hinner, hend] at h
      | some r =>
        obtain ⟨last, more⟩ := r
        simp only [hinner, hend, Option.bind_some, Option.pure_def] at h
        have hlast : last.isText = true := by
          cases hlast : last.isText with
          | true => rfl
          | false => simp [hlast] at h
        -- the end tag was read as one, so the text ends between tokens
        have hs := LexState.isText_of_run_endTag htag hend hlast
        cases s with
        | text n =>
          rw [run_endTag htag] at hend
          cases hend
          rw [if_pos hlast] at h
          exact ⟨n, inner, rfl, (Option.some.inj h).symm⟩
        | _ => cases hs
  · -- from a place in text the end tag is always read
    rintro ⟨n, inner, hinner, rfl⟩
    simp only [hinner, run_endTag htag, Option.bind_some, Option.pure_def]
    rfl

/-! ### What tokens add to an element -/

/-- The open element with other content, which is kept backwards. -/
def Frame.holding (frame : Frame) (k : Content) : Frame := { frame with content := k }

namespace Builder

variable {d : Doctype} {frame : Frame}

/-- Characters are added one by one. -/
theorem foldl_char_eq (cs : List Char) (k : Content) :
    cs.foldl (fun k c => .char c k) k = (Content.ofChars cs.reverse).append k := by
  induction cs generalizing k with
  | nil => rfl
  | cons c cs ih =>
    have hchars : ∀ as bs, Content.ofChars (as ++ bs) =
        (Content.ofChars as).append (Content.ofChars bs) := by
      intro as bs
      induction as with
      | nil => rfl
      | cons a as ih => exact congrArg (Content.char a) ih
    rw [List.foldl_cons, ih, List.reverse_cons, hchars, Content.append_assoc]
    rfl

/-- Once the root is closed, nothing is opened again. -/
theorem stack_eq_nil_of_run {b last : Builder} (hstack : b.stack = []) (hroot : b.root.isSome)
    {tokens : List Token} (h : run d b tokens = some last) : last.stack = [] := by
  induction tokens generalizing b with
  | nil => exact Option.some.inj h ▸ hstack
  | cons token tokens ih =>
    obtain ⟨stack, root⟩ := b
    obtain rfl : stack = [] := hstack
    obtain ⟨next, hstep, hrest⟩ : ∃ next, step d ⟨[], root⟩ token = some next ∧
        run d next tokens = some last := Option.bind_eq_some_iff.1 h
    -- behind the root only blanks are accepted
    cases token with
    | text c =>
      cases hc : isSpace c with
      | false => simp [step, addText, hc] at hstep
      | true =>
        simp only [step, addText, hc, if_true] at hstep
        obtain rfl := Option.some.inj hstep
        exact ih rfl hroot hrest
    | quoted cs => cases hstep
    | startTag name attributes =>
      have hroot : root.isSome = true := hroot
      simp [step, openElement, hroot] at hstep
    | endTag written => cases hstep

/-- What a start tag opens inside an open element. -/
def opens? (d : Doctype) (scopes : Scopes) (name : QName) (attributes : List Attribute) :
    Option Frame :=
  if allDistinct (attributes.map (·.name)) then do
    let attributes := d.complete name.written attributes
    let scopes ← scopes.declareAll? attributes
    let names ← scopes.attributeNames? attributes
    let full ← scopes.elementName? name
    if allDistinct names then some ⟨name.written, full, scopes, .nil⟩ else none
  else none

/-- Inside an open element, what a start tag opens depends on the scopes in force alone. -/
theorem openElement_eq_opens? {b : Builder} (hb : b.stack ≠ []) (name : QName)
    (attributes : List Attribute) : openElement d b name attributes =
      (opens? d b.scopes name attributes).map fun top => { b with stack := top :: b.stack } := by
  have hempty : b.stack.isEmpty = false := List.isEmpty_eq_false_iff.2 hb
  unfold openElement opens?
  -- on both sides the same checks are made in the same order
  simp only [hempty, Bool.false_and, Bool.false_eq_true, if_false]
  cases allDistinct (attributes.map (·.name)) with
  | false => rfl
  | true =>
    simp only [Bool.not_true, Bool.false_eq_true, if_false, if_true]
    cases b.scopes.declareAll? (d.complete name.written attributes) with
    | none => rfl
    | some scopes =>
      cases hnames : scopes.attributeNames? (d.complete name.written attributes) with
      | none => simp [hnames]
      | some names =>
        cases hfull : scopes.elementName? name with
        | none => simp [hnames, hfull]
        | some full => cases hdistinct : allDistinct names <;> simp [hnames, hfull, hdistinct]

/-- The scopes in force do not depend on what the outermost element holds. -/
theorem scopes_holding (inner : List Frame) (frame : Frame) (k k' : Content) :
    scopes ⟨inner ++ [frame.holding k], none⟩ = scopes ⟨inner ++ [frame.holding k'], none⟩ := by
  cases inner <;> rfl

/-- An end tag closes the element that was opened with its name. -/
theorem written_eq_of_closeElement {top : Frame} {outer : List Frame} {root : Option Element}
    {written : List Char} {b : Builder}
    (h : closeElement ⟨top :: outer, root⟩ written = some b) : top.written = written := by
  by_cases heq : top.written = written
  · exact heq
  · simp [closeElement, heq] at h

/-- An end tag closes one element. -/
theorem length_stack_of_closeElement {b last : Builder} {written : List Char}
    (h : b.closeElement written = some last) : b.stack.length = last.stack.length + 1 := by
  obtain ⟨stack, root⟩ := b
  cases stack with
  | nil => cases h
  | cons top outer =>
    obtain rfl := written_eq_of_closeElement h
    cases outer with
    | nil =>
      rw [closeElement_outermost] at h
      exact Option.some.inj h ▸ rfl
    | cons parent outer =>
      rw [closeElement_inner] at h
      exact Option.some.inj h ▸ rfl

/-- In the end everything is closed. -/
theorem stack_of_finish {b : Builder} {root : Element} (h : b.finish = some root) :
    b.stack = [] := by
  cases hstack : b.stack with
  | nil => rfl
  | cons top outer => simp [finish, hstack] at h

/-- **One token inside an element.** It closes the element, and with it the document, or it does the
same whatever the element holds: it changes what is open inside, and adds to the element. -/
theorem step_inside {inner : List Frame} {k : Content} {token : Token} {b : Builder}
    (h : step d ⟨inner ++ [frame.holding k], none⟩ token = some b) :
    (b.stack = [] ∧ b.root.isSome) ∨
    ∃ (inner' : List Frame) (more : Content), ∀ k',
      step d ⟨inner ++ [frame.holding k'], none⟩ token =
        some ⟨inner' ++ [frame.holding (more.append k')], none⟩ := by
  -- a token is about the innermost open element, which is this one or stands inside it
  cases token with
  | text c =>
    cases inner with
    | nil => exact .inr ⟨[], .char c .nil, fun k' => rfl⟩
    | cons top inner =>
      exact .inr ⟨{ top with content := .char c top.content } :: inner, .nil, fun k' => rfl⟩
  | quoted cs =>
    cases inner with
    | nil => exact .inr ⟨[], .ofChars cs.reverse, fun k' => by rw [← foldl_char_eq]; rfl⟩
    | cons top inner =>
      exact .inr ⟨{ top with content := cs.foldl (fun k c => .char c k) top.content } :: inner,
        .nil, fun k' => rfl⟩
  | startTag name attributes =>
    have hne : ∀ k', inner ++ [frame.holding k'] ≠ [] := fun k' => by simp
    have heq := fun k' => openElement_eq_opens? (d := d) (b := ⟨inner ++ [frame.holding k'], none⟩)
      (hne k') name attributes
    have hstep : openElement d ⟨inner ++ [frame.holding k], none⟩ name attributes = some b := h
    rw [heq k] at hstep
    obtain ⟨top, htop, -⟩ := Option.map_eq_some_iff.1 hstep
    refine .inr ⟨top :: inner, .nil, fun k' => (heq k').trans ?_⟩
    rw [scopes_holding inner frame k' k, htop]
    rfl
  | endTag written =>
    cases inner with
    | nil =>
      have hclose : closeElement ⟨[frame.holding k], none⟩ written = some b := h
      obtain rfl := written_eq_of_closeElement hclose
      have hcloses := closeElement_outermost none (frame.holding k)
      obtain rfl := Option.some.inj (hclose.symm.trans hcloses)
      exact .inl ⟨rfl, rfl⟩
    | cons top inner =>
      have hclose : closeElement ⟨top :: (inner ++ [frame.holding k]), none⟩ written = some b := h
      obtain rfl := written_eq_of_closeElement hclose
      -- what is closed goes to the element around it, which may be this one
      cases inner with
      | nil =>
        exact .inr ⟨[], .element top.name top.content.reverse .nil,
          fun k' => closeElement_inner [] none top (frame.holding k')⟩
      | cons parent inner =>
        exact .inr
          ⟨{ parent with content := .element top.name top.content.reverse parent.content } :: inner,
            .nil, fun k' => closeElement_inner (inner ++ [frame.holding k']) none top parent⟩

/-- **Tokens inside an element.** As long as the element stays open, they do the same whatever the
element holds. -/
theorem run_inside {inner : List Frame} {k : Content} {tokens : List Token} {b : Builder}
    (h : run d ⟨inner ++ [frame.holding k], none⟩ tokens = some b) (hopen : b.stack ≠ []) :
    ∃ (inner' : List Frame) (more : Content), ∀ k',
      run d ⟨inner ++ [frame.holding k'], none⟩ tokens =
        some ⟨inner' ++ [frame.holding (more.append k')], none⟩ := by
  induction tokens generalizing inner k with
  | nil => exact ⟨inner, .nil, fun k' => rfl⟩
  | cons token tokens ih =>
    obtain ⟨next, hstep, hrest⟩ : ∃ next, step d ⟨inner ++ [frame.holding k], none⟩ token =
        some next ∧ run d next tokens = some b := Option.bind_eq_some_iff.1 h
    -- the frame stays at the bottom, unless it is closed, and then no other is opened
    rcases step_inside hstep with ⟨hstack, hroot⟩ | ⟨inner', more, hsteps⟩
    · exact absurd (stack_eq_nil_of_run hstack hroot hrest) hopen
    · obtain rfl := Option.some.inj (hstep.symm.trans (hsteps k))
      obtain ⟨inner'', more', hruns⟩ := ih hrest
      refine ⟨inner'', more'.append more, fun k' => ?_⟩
      rw [run_cons (hsteps k'), hruns, Content.append_assoc]

/-- The tokens add the content to the element, whatever it holds, and leave it open. -/
def Adds (d : Doctype) (frame : Frame) (tokens : List Token) (k : Content) : Prop :=
  ∀ k', run d ⟨[frame.holding k'], none⟩ tokens =
    some ⟨[frame.holding (k.reverseOnto k')], none⟩

/-- Tokens one after the other add the contents one after the other. -/
theorem Adds.append {s t : List Token} {k l : Content} (hs : Adds d frame s k)
    (ht : Adds d frame t l) : Adds d frame (s ++ t) (k.append l) := by
  intro k'
  have honto : ∀ a b c : Content, (a.append b).reverseOnto c = b.reverseOnto (a.reverseOnto c) := by
    intro a b c
    induction a generalizing c with
    | nil => rfl
    | char ch rest ih => exact ih (.char ch c)
    | element n j rest _ ih => exact ih (.element n j c)
  rw [run_append, hs, Option.bind_some, ht, honto]

/-- Tokens that leave the element as the only one open add some content to it. -/
theorem exists_adds {tokens : List Token} {k : Content} {b : Builder}
    (h : run d ⟨[frame.holding k], none⟩ tokens = some b) (hopen : b.stack.length = 1) :
    ∃ l, Adds d frame tokens l ∧ b = ⟨[frame.holding (l.reverseOnto k)], none⟩ := by
  have hne : b.stack ≠ [] := fun hnil => by simp [hnil] at hopen
  have hinside : ∀ k', (⟨[frame.holding k'], none⟩ : Builder) = ⟨[] ++ [frame.holding k'], none⟩ :=
    fun _ => rfl
  rw [hinside] at h
  obtain ⟨inner, more, hruns⟩ := run_inside h hne
  simp only [← hinside] at h hruns
  obtain rfl := Option.some.inj (h.symm.trans (hruns k))
  obtain rfl : inner = [] := by simpa using hopen
  -- what was added is kept backwards
  have honto : ∀ k', more.append k' = more.reverse.reverseOnto k' := fun k' => by
    rw [Content.reverseOnto_eq, Content.reverse_reverse]
  exact ⟨more.reverse, fun k' => by rw [hruns, ← honto]; rfl, by rw [← honto]; rfl⟩

end Builder

/-! ### Text that fills an element -/

/-- The text is what an element of the tag may hold, and the content is what it holds then. -/
def Fills (d : Doctype) (tag : String) (cs : List Char) (k : Content) : Prop :=
  ∃ n tokens, LexState.run d.dialect (.text 0) cs = some (.text n, tokens) ∧
    Builder.Adds d (Builder.opened tag) tokens k

/-- Tokens between tags make an element exactly if they add its content to it. -/
theorem tree?_tags_iff {d : Doctype} (hd : d.rules = []) {tag : String} {inner : List Token}
    {root : Element} :
    tree? d (.startTag ⟨none, tag⟩ [] :: (inner ++ [.endTag tag.toList])) = some root ↔
      ∃ k, Builder.Adds d (Builder.opened tag) inner k ∧ root = ⟨⟨none, tag⟩, k⟩ := by
  have hstart : Builder.step d .empty (.startTag ⟨none, tag⟩ []) =
      some ⟨[Builder.opened tag], none⟩ := Builder.openElement_eq hd rfl rfl
  have hclose : ∀ k : Content, Builder.closeElement
      ⟨[(Builder.opened tag).holding (k.reverseOnto .nil)], none⟩ tag.toList =
      some ⟨[], some ⟨⟨none, tag⟩, k⟩⟩ := fun k => by
    have hcloses := Builder.closeElement_outermost none
      ((Builder.opened tag).holding (k.reverseOnto .nil))
    have hreverse : (k.reverseOnto .nil).reverse = k := k.reverse_reverse
    simp only [Frame.holding, hreverse] at hcloses
    exact hcloses
  -- the tags are read at both ends, so all depends on what is between them
  have htree : tree? d (.startTag ⟨none, tag⟩ [] :: (inner ++ [.endTag tag.toList])) =
      ((Builder.run d ⟨[(Builder.opened tag).holding .nil], none⟩ inner).bind fun b =>
        b.closeElement tag.toList).bind Builder.finish := by
    show (Builder.run d .empty _).bind Builder.finish = _
    rw [Builder.run_cons hstart, Builder.run_append]
    refine congrArg (Option.bind · Builder.finish) (Option.bind_congr fun b _ => ?_)
    exact Option.bind_fun_some (b.closeElement tag.toList)
  rw [htree]
  constructor
  · intro h
    obtain ⟨closed, hclosed, hfinish⟩ := Option.bind_eq_some_iff.1 h
    obtain ⟨b, hb, hend⟩ := Option.bind_eq_some_iff.1 hclosed
    -- the end tag closes the one element that is open
    have hlength : b.stack.length = 1 := by
      rw [Builder.length_stack_of_closeElement hend, Builder.stack_of_finish hfinish]
      rfl
    obtain ⟨k, hk, rfl⟩ := Builder.exists_adds hb hlength
    rw [hclose] at hend
    obtain rfl := Option.some.inj hend
    exact ⟨k, hk, (Option.some.inj hfinish).symm⟩
  · rintro ⟨k, hk, rfl⟩
    rw [hk, Option.bind_some, hclose]
    rfl

/-- **Pasting text between tags.** What is made of it is one element exactly if the text by itself
is what the element may hold. -/
theorem tree?_wrapped_iff {d : Doctype} (hd : d.rules = []) {tag : String} (htag : IsTag tag)
    {cs : List Char} {root : Element} :
    (tokens? d.dialect (Markup.startTag tag ++ cs ++ Markup.endTag tag)).bind (tree? d) =
      some root ↔ ∃ k, Fills d tag cs k ∧ root = ⟨⟨none, tag⟩, k⟩ := by
  simp only [Option.bind_eq_some_iff, tokens?_wrapped_iff htag]
  constructor
  · rintro ⟨_, ⟨n, inner, hrun, rfl⟩, htree⟩
    obtain ⟨k, hk, rfl⟩ := (tree?_tags_iff hd).1 htree
    exact ⟨k, ⟨n, inner, hrun, hk⟩, rfl⟩
  · rintro ⟨k, ⟨n, inner, hrun, hk⟩, rfl⟩
    exact ⟨_, ⟨n, inner, hrun, rfl⟩, (tree?_tags_iff hd).2 ⟨k, hk, rfl⟩⟩

end Depot.Xml
