import Depot.Proofs.Xml.Lexing
/-!
# Tokens as trees

The builder keeps the content of an open element backwards. Tokens that spell out content therefore
put that content, reversed, in front of what the innermost open element holds
(`Builder.run_of_spells`), and closing an element turns its content around again. The induction is
on how the tokens spell the content; an element inside is a run of its own, on a deeper stack.

Written documents declare no namespaces and no attributes, so as long as the document type gives
none either, the scopes in force are those at the root, and a name without a scope stays without a
namespace.
-/

namespace Depot.Xml

/-! ### Content backwards -/

namespace Content

/-- Content that was reversed in front of other content comes back, turned around. -/
theorem reverseOnto_reverseOnto (k a b : Content) :
    (k.reverseOnto a).reverseOnto b = a.reverseOnto (k.append b) := by
  induction k generalizing a with
  | nil => rfl
  | char c rest ih => exact ih (.char c a)
  | element n j rest _ ih => exact ih (.element n j a)

/-- Reversing twice changes nothing. -/
@[simp] theorem reverse_reverse (k : Content) : k.reverse.reverse = k := by
  show (k.reverseOnto nil).reverseOnto nil = k
  rw [reverseOnto_reverseOnto, append_nil]
  rfl

end Content

/-! ### The builder -/

namespace Builder

variable {d : Doctype} {tag : String} {outer : List Frame} {root : Option Element}

/-- What a start tag without attributes opens. -/
def opened (tag : String) : Frame := ⟨tag.toList, ⟨none, tag⟩, Scopes.initial, .nil⟩

/-- A start tag without scope and attributes opens an element without a namespace. -/
theorem openElement_eq (hd : d.rules = []) (hroot : (outer.isEmpty && root.isSome) = false)
    (hscopes : Builder.scopes ⟨outer, root⟩ = Scopes.initial) :
    openElement d ⟨outer, root⟩ ⟨none, tag⟩ [] = some ⟨opened tag :: outer, root⟩ := by
  -- without rules no attribute is supplied
  have hcomplete : d.complete tag.toList [] = [] := by
    unfold Doctype.complete
    rw [hd]
    rfl
  have hname : Scopes.elementName? Scopes.initial ⟨none, tag⟩ = some ⟨none, tag⟩ := rfl
  unfold openElement
  rw [hroot, if_neg Bool.false_ne_true]
  simp only [List.map_nil, allDistinct, Bool.not_true, Bool.false_eq_true, if_false, QName.written,
    hcomplete, hscopes]
  simp [Scopes.declareAll?, Scopes.attributeNames?, hname, allDistinct, opened]

/-- Closing an element inside another adds it to that. -/
theorem closeElement_inner (outer : List Frame) (root : Option Element) (frame parent : Frame) :
    closeElement ⟨frame :: parent :: outer, root⟩ frame.written =
      some ⟨{ parent with content := .element frame.name frame.content.reverse parent.content } ::
        outer, root⟩ := by
  unfold closeElement
  simp

/-- Closing the outermost element makes it the root. -/
theorem closeElement_outermost (root : Option Element) (frame : Frame) :
    closeElement ⟨[frame], root⟩ frame.written =
      some ⟨[], some ⟨frame.name, frame.content.reverse⟩⟩ := by
  unfold closeElement
  simp

theorem run_cons {b next : Builder} {token : Token} (h : step d b token = some next)
    (tokens : List Token) : run d b (token :: tokens) = run d next tokens := by
  show (step d b token).bind (fun b => run d b tokens) = _
  rw [h]
  rfl

theorem run_append (b : Builder) (s t : List Token) :
    run d b (s ++ t) = (run d b s).bind fun b => run d b t := by
  unfold run
  rw [List.foldlM_append]
  rfl

/-- **Building content.** Inside an element, tokens put the content that they spell in front of what
the element holds. -/
theorem run_of_spells (hd : d.rules = []) {tokens : List Token} {k : Content}
    (h : Spells tokens k) {frame : Frame} (hframe : frame.scopes = Scopes.initial) :
    run d ⟨frame :: outer, root⟩ tokens =
      some ⟨{ frame with content := k.reverseOnto frame.content } :: outer, root⟩ := by
  -- on how the tokens spell the content, for every stack, since an element inside has a deeper one
  induction h generalizing frame outer with
  | nil => rfl
  | @text c tokens k _ ih =>
    have hstep : step d ⟨frame :: outer, root⟩ (.text c) =
        some ⟨{ frame with content := .char c frame.content } :: outer, root⟩ := rfl
    rw [run_cons hstep]
    exact ih hframe
  | @quoted c tokens k _ ih =>
    have hstep : step d ⟨frame :: outer, root⟩ (.quoted [c]) =
        some ⟨{ frame with content := .char c frame.content } :: outer, root⟩ := rfl
    rw [run_cons hstep]
    exact ih hframe
  | @element tag inner tokens k rest _ _ ihinner ih =>
    have hopen : step d ⟨frame :: outer, root⟩ (.startTag ⟨none, tag⟩ []) =
        some ⟨opened tag :: frame :: outer, root⟩ := openElement_eq hd rfl hframe
    -- the content inside is built on the frame of the element, which is then closed
    have hinner : run d ⟨opened tag :: frame :: outer, root⟩ inner =
        some ⟨{ opened tag with content := k.reverseOnto .nil } :: frame :: outer, root⟩ :=
      ihinner rfl
    have hclose : step d ⟨{ opened tag with content := k.reverseOnto .nil } :: frame :: outer, root⟩
        (.endTag tag.toList) =
        some ⟨{ frame with content := .element ⟨none, tag⟩ k frame.content } :: outer, root⟩ := by
      have hcloses := closeElement_inner outer root
        { opened tag with content := k.reverseOnto .nil } frame
      have hreverse : (k.reverseOnto .nil).reverse = k := k.reverse_reverse
      simp only [hreverse] at hcloses
      exact hcloses
    rw [run_cons hopen, run_append, hinner, Option.bind_some]
    show run d ⟨{ opened tag with content := k.reverseOnto .nil } :: frame :: outer, root⟩ _ = _
    rw [run_cons hclose]
    exact ih hframe

end Builder

/-- **Building a document.** Tokens that spell one element, followed by the line end after it, are
the tree of that element. -/
theorem tree?_of_spells {d : Doctype} (hd : d.rules = []) {tokens : List Token} {tag : String}
    {k : Content} (h : Spells tokens (.element ⟨none, tag⟩ k .nil)) :
    tree? d (tokens ++ [.text '\n']) = some ⟨⟨none, tag⟩, k⟩ := by
  cases h with
  | @element _ inner tokens _ _ hinner hnil =>
    cases hnil
    -- the start tag opens the element, the tokens inside fill it, and the end tag closes it
    have hopen : Builder.step d .empty (.startTag ⟨none, tag⟩ []) =
        some ⟨[Builder.opened tag], none⟩ := Builder.openElement_eq hd rfl rfl
    have hrun : Builder.run d ⟨[Builder.opened tag], none⟩ inner =
        some ⟨[{ Builder.opened tag with content := k.reverseOnto .nil }], none⟩ :=
      Builder.run_of_spells hd hinner rfl
    have hclose : Builder.step d
        ⟨[{ Builder.opened tag with content := k.reverseOnto .nil }], none⟩ (.endTag tag.toList) =
        some ⟨[], some ⟨⟨none, tag⟩, k⟩⟩ := by
      have hcloses := Builder.closeElement_outermost none
        { Builder.opened tag with content := k.reverseOnto .nil }
      have hreverse : (k.reverseOnto .nil).reverse = k := k.reverse_reverse
      simp only [hreverse] at hcloses
      exact hcloses
    -- a blank behind the root changes nothing
    have hspace : Builder.step d ⟨[], some ⟨⟨none, tag⟩, k⟩⟩ (.text '\n') =
        some ⟨[], some ⟨⟨none, tag⟩, k⟩⟩ := rfl
    have hall : Builder.run d .empty
        (.startTag ⟨none, tag⟩ [] :: (inner ++ [.endTag tag.toList]) ++ [.text '\n']) =
        some ⟨[], some ⟨⟨none, tag⟩, k⟩⟩ := by
      rw [List.cons_append, Builder.run_cons hopen, List.append_assoc, Builder.run_append, hrun,
        Option.bind_some]
      show Builder.run d ⟨[{ Builder.opened tag with content := k.reverseOnto .nil }], none⟩ _ = _
      rw [List.singleton_append, Builder.run_cons hclose, Builder.run_cons hspace]
      rfl
    unfold tree?
    rw [hall]
    rfl

end Depot.Xml
