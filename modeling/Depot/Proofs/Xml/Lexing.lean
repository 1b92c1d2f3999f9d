import Depot.Xml.Tree
import Depot.Xml.Writer
import Mathlib.Data.Bool.AllAny
/-!
# Written text as tokens

The machine that reads element content is followed through everything that the writer of documents
puts out: escaped characters, start and end tags and empty tags. Two relations say what comes out.
`Spells` relates tokens to the content that they spell; it allows only what written documents hold,
single characters and elements without attributes or namespaces. `Lexes` relates a text to the
content that its tokens spell, from any place between tokens to another one, so that it is closed
under putting texts one after the other (`Lexes.append`).

A tag of a written document consists of ASCII letters (`IsTag`), which no part of the machine takes
for anything else. Every character that may stand in a document is written in a way that lexes as
that character (`lexes_escapeChar`).
-/

namespace Depot.Xml

/-! ### Tokens that spell content -/

/-- Tokens that spell out content: a character by itself or by a reference, and an element by its
tags around what is inside. -/
inductive Spells : List Token → Content → Prop where
  | nil : Spells [] .nil
  | text {c : Char} {tokens : List Token} {k : Content} (h : Spells tokens k) :
      Spells (.text c :: tokens) (.char c k)
  | quoted {c : Char} {tokens : List Token} {k : Content} (h : Spells tokens k) :
      Spells (.quoted [c] :: tokens) (.char c k)
  | element {tag : String} {inner tokens : List Token} {k rest : Content} (hinner : Spells inner k)
      (h : Spells tokens rest) :
      Spells (.startTag ⟨none, tag⟩ [] :: (inner ++ .endTag tag.toList :: tokens))
        (.element ⟨none, tag⟩ k rest)

/-- Tokens one after the other spell the contents one after the other. -/
theorem Spells.append {a b : List Token} {k l : Content} (ha : Spells a k) (hb : Spells b l) :
    Spells (a ++ b) (k.append l) := by
  induction ha with
  | nil => exact hb
  | text _ ih => exact .text ih
  | quoted _ ih => exact .quoted ih
  | element hinner _ _ ih =>
    rw [List.cons_append, List.append_assoc]
    exact .element hinner ih

/-- From any place between tokens the text is read up to another such place, and its tokens spell
the content. -/
def Lexes (d : Dialect) (cs : List Char) (k : Content) : Prop :=
  ∀ n, ∃ n' tokens, LexState.run d (.text n) cs = some (.text n', tokens) ∧ Spells tokens k

variable {d : Dialect}

theorem Lexes.nil : Lexes d [] .nil := fun n => ⟨n, [], rfl, .nil⟩

/-- Texts one after the other are read as their contents one after the other. -/
theorem Lexes.append {a b : List Char} {k l : Content} (ha : Lexes d a k) (hb : Lexes d b l) :
    Lexes d (a ++ b) (k.append l) := by
  intro n
  obtain ⟨m, tokens, hrun, hspells⟩ := ha n
  obtain ⟨m', more, hrun', hspells'⟩ := hb m
  refine ⟨m', tokens ++ more, ?_, hspells.append hspells'⟩
  rw [LexState.run_append, hrun]
  simp only [Option.bind_eq_bind, Option.bind_some, hrun']
  rfl

/-! ### Runs of the machine -/

namespace LexState

/-- A step without a token, and the rest. -/
theorem run_cons_of_step {s next : LexState} {c : Char} (h : step d s c = some (next, []))
    (cs : List Char) : run d s (c :: cs) = run d next cs := by
  rw [run, h]
  simp only [Option.bind_eq_bind, Option.bind_some]
  cases run d next cs <;> rfl

/-- A run without tokens, and a step that may give some. -/
theorem run_concat {s next last : LexState} {cs : List Char} {c : Char} {tokens : List Token}
    (hrun : run d s cs = some (next, [])) (hstep : step d next c = some (last, tokens)) :
    run d s (cs ++ [c]) = some (last, tokens) := by
  rw [run_append, hrun]
  simp only [Option.bind_eq_bind, Option.bind_some, run, hstep]
  simp

/-- A state that collects characters collects all characters of a text. -/
theorem run_collect (state : List Char → LexState) {cs : List Char}
    (h : ∀ c ∈ cs, ∀ read, step d (state read) c = some (state (c :: read), []))
    (read : List Char) :
    run d (state read) cs = some (state (cs.reverse ++ read), []) := by
  induction cs generalizing read with
  | nil => rfl
  | cons c cs ih =>
    rw [run_cons_of_step (h c List.mem_cons_self read),
      ih (fun b hb => h b (List.mem_cons_of_mem c hb)), List.reverse_cons, List.append_assoc,
      List.singleton_append]

/-- A reference begins, between tokens. -/
theorem step_ampersand (n : Nat) : step d (.text n) '&' = some (.reference [], []) := rfl

/-- Markup begins, between tokens. -/
theorem step_lessThan (n : Nat) : step d (.text n) '<' = some (.markup, []) := rfl

end LexState

/-! ### Characters -/

/-- A character that is no markup stands for itself. -/
theorem lexes_char {c : Char} (hlegal : isLegal c = true) (hlt : c ≠ '<') (hamp : c ≠ '&')
    (hgt : c ≠ '>') : Lexes d [c] (.char c .nil) := by
  intro n
  -- only how many closing brackets stand ahead changes between tokens
  have hstep : ∃ n', LexState.step d (.text n) c = some (.text n', [.text c]) := by
    simp only [LexState.step, hlegal, Bool.not_true, Bool.false_eq_true, if_false, hlt, hamp, hgt,
      false_and]
    split
    · exact ⟨_, rfl⟩
    · exact ⟨_, rfl⟩
  obtain ⟨n', h⟩ := hstep
  have hrun : LexState.run d (.text n) ([] ++ [c]) = some (.text n', [.text c]) :=
    LexState.run_concat rfl h
  exact ⟨n', [.text c], hrun, .text .nil⟩

/-- The characters of a reference are collected up to its end. -/
theorem run_reference (n : Nat) {body : List Char}
    (hbody : ∀ b ∈ body, isLegal b = true ∧ b ≠ ';' ∧ b ≠ '<') :
    LexState.run d (.text n) ('&' :: body) = some (.reference body.reverse, []) := by
  have hcollect : LexState.run d (.reference []) body =
      some (.reference (body.reverse ++ []), []) :=
    LexState.run_collect .reference (fun b hb read => by
      obtain ⟨hlegal, hsemi, hlt⟩ := hbody b hb
      simp [LexState.step, hlegal, hsemi, hlt]) []
  rw [LexState.run_cons_of_step (LexState.step_ampersand n), hcollect, List.append_nil]

/-- A reference stands for what it denotes. -/
theorem lexes_reference {body : List Char} {r : Reference} {c : Char}
    (hbody : ∀ b ∈ body, isLegal b = true ∧ b ≠ ';' ∧ b ≠ '<')
    (hread : Reference.ofChars? d.letters body = some r) (hc : r.resolve? = some c) :
    Lexes d ('&' :: (body ++ [';'])) (.char c .nil) := by
  intro n
  have hclose : LexState.step d (.reference body.reverse) ';' = some (.text 0, [.quoted [c]]) := by
    have hlegal : isLegal ';' = true := by decide
    simp [LexState.step, hlegal, hread, hc]
  exact ⟨0, [.quoted [c]], LexState.run_concat (run_reference n hbody) hclose, .quoted .nil⟩

/-- The digits of a number are read as that number. -/
theorem number?_digits (n : Nat) :
    Reference.number? 10 Text.asciiDigit? ((Text.digitsOf n).map Text.digitChar) = some n := by
  -- reading from the front adds to what is read so far, as putting the digits together does
  have hfold : ∀ (ds : List Nat) (m : Nat), (∀ d ∈ ds, d < 10) →
      (ds.map Text.digitChar).foldl
        (fun n? c => do return (← n?) * 10 + (← Text.asciiDigit? c)) (some m) =
      some (ds.foldl (fun n d => 10 * n + d) m) := by
    intro ds
    induction ds with
    | nil => intro m _; rfl
    | cons d ds ih =>
      intro m hds
      have hd := Text.asciiDigit?_digitChar (hds d List.mem_cons_self)
      rw [List.map_cons, List.foldl_cons, List.foldl_cons, hd]
      show List.foldl _ (some (m * 10 + d)) _ = _
      rw [ih (m * 10 + d) fun e he => hds e (List.mem_cons_of_mem d he), Nat.mul_comm]
  unfold Reference.number?
  have hne : ((Text.digitsOf n).map Text.digitChar).isEmpty = false := by
    rw [List.isEmpty_map]
    exact List.isEmpty_eq_false_iff.2 (Text.digitsOf_ne_nil n)
  rw [hne, if_neg Bool.false_ne_true,
    hfold _ 0 fun d hd => Text.lt_of_mem_digitsOf hd]
  exact congrArg some (Text.ofDigits_digitsOf n)

/-- A legal character is what its code point denotes. -/
theorem char?_toNat {c : Char} (h : isLegal c = true) : Reference.char? c.toNat = some c := by
  have hvalid : c.toNat < 0xD800 ∨ 0xDFFF < c.toNat ∧ c.toNat < 0x110000 := c.valid
  unfold Reference.char?
  rw [if_pos (by omega), Char.ofNat_toNat]
  exact if_pos h

/-- The characters of a reference by a code point are collected. -/
theorem collected_of_mem_codePoint {n : Nat} {b : Char}
    (h : b ∈ '#' :: (Text.decimal n).toList) : isLegal b = true ∧ b ≠ ';' ∧ b ≠ '<' := by
  have hdigit : ∀ d < 10, isLegal (Text.digitChar d) = true ∧ Text.digitChar d ≠ ';' ∧
      Text.digitChar d ≠ '<' := by decide
  rcases List.mem_cons.1 h with rfl | h
  · decide
  · rw [Text.decimal, String.toList_ofList] at h
    obtain ⟨d, hd, rfl⟩ := List.mem_map.1 h
    exact hdigit d (Text.lt_of_mem_digitsOf hd)

/-- A reference by a code point denotes its character, if there is one. -/
theorem ofChars?_codePoint (letters : Letters) (n : Nat) :
    Reference.ofChars? letters ('#' :: (Text.decimal n).toList) =
      (Reference.char? n).map .char := by
  have hdigit : ∀ d < 10, Text.digitChar d ≠ 'x' := by decide
  have hnumber := number?_digits n
  rw [Text.decimal, String.toList_ofList]
  cases hds : Text.digitsOf n with
  | nil => exact absurd hds (Text.digitsOf_ne_nil _)
  | cons e ds =>
    have he := hdigit e (Text.lt_of_mem_digitsOf (hds ▸ List.mem_cons_self))
    rw [hds, List.map_cons] at hnumber
    unfold Reference.ofChars?
    rw [List.map_cons]
    -- the first digit is no `x`, so the digits are decimal
    split
    · next heq => exact absurd (List.cons.inj (List.cons.inj heq).2).1 he
    · next heq =>
      obtain rfl := (List.cons.inj heq).2
      rw [hnumber]
      simp only [Option.bind_eq_bind, Option.bind_some]
      exact Option.map_eq_bind.symm
    · next hno => exact absurd rfl (hno _)

/-- A legal character referred to by its code point. -/
theorem lexes_codePoint {c : Char} (h : isLegal c = true) :
    Lexes d ('&' :: '#' :: (Text.decimal c.toNat).toList ++ [';']) (.char c .nil) := by
  have hread : Reference.ofChars? d.letters ('#' :: (Text.decimal c.toNat).toList) =
      some (.char c) := by
    rw [ofChars?_codePoint, char?_toNat h]
    rfl
  exact lexes_reference (fun b hb => collected_of_mem_codePoint hb) hread rfl

/-- **Escaped characters.** A legal character lexes, as it is written, as that character. -/
theorem lexes_escapeChar {c : Char} (h : isLegal c = true) :
    Lexes d (Markup.escapeChar c) (.char c .nil) := by
  unfold Markup.escapeChar
  -- three references by name, the character itself, and a reference by number
  split
  · next hc =>
    subst hc
    have hread : Reference.ofChars? d.letters "amp".toList = some (.entity "amp") := rfl
    exact lexes_reference (List.all_iff_forall_prop.1 (by decide)) hread rfl
  · split
    · next hc =>
      subst hc
      have hread : Reference.ofChars? d.letters "lt".toList = some (.entity "lt") := rfl
      exact lexes_reference (List.all_iff_forall_prop.1 (by decide)) hread rfl
    · split
      · next hc =>
        subst hc
        have hread : Reference.ofChars? d.letters "gt".toList = some (.entity "gt") := rfl
        exact lexes_reference (List.all_iff_forall_prop.1 (by decide)) hread rfl
      · next hamp hlt hgt =>
        split
        · exact lexes_char h hlt hamp hgt
        · exact lexes_codePoint h

/-- A text of legal characters lexes, as it is written, as that text. -/
theorem lexes_escape {cs : List Char} (h : ∀ c ∈ cs, isLegal c = true) :
    Lexes d (cs.flatMap Markup.escapeChar) (.ofChars cs) := by
  induction cs with
  | nil => exact .nil
  | cons c cs ih =>
    rw [List.flatMap_cons]
    exact (lexes_escapeChar (h c List.mem_cons_self)).append
      (ih fun b hb => h b (List.mem_cons_of_mem c hb))

/-- White space between elements stands for itself. -/
theorem lexes_spaces {cs : List Char} (h : ∀ c ∈ cs, c = ' ' ∨ c = '\n') :
    Lexes d cs (.ofChars cs) := by
  induction cs with
  | nil => exact .nil
  | cons c cs ih =>
    have hc : Lexes d [c] (.char c .nil) := by
      rcases h c List.mem_cons_self with rfl | rfl
      · exact lexes_char (by decide) (by decide) (by decide) (by decide)
      · exact lexes_char (by decide) (by decide) (by decide) (by decide)
    exact hc.append (ih fun b hb => h b (List.mem_cons_of_mem c hb))

/-! ### Tags -/

/-- The tags of written documents: ASCII letters, at least one. -/
structure IsTag (tag : String) : Prop where
  ne_nil : tag.toList ≠ []
  isAlpha : ∀ c ∈ tag.toList, c.isAlpha = true

instance (tag : String) : Decidable (IsTag tag) :=
  decidable_of_iff (tag.toList ≠ [] ∧ tag.toList.all Char.isAlpha = true)
    ⟨fun ⟨hne, h⟩ => ⟨hne, List.all_eq_true.1 h⟩, fun ⟨hne, h⟩ => ⟨hne, List.all_eq_true.2 h⟩⟩

/-- A letter differs from everything that is no letter. -/
theorem ne_of_isAlpha {c b : Char} (hc : c.isAlpha = true) (hb : b.isAlpha = false) : c ≠ b := by
  rintro rfl
  rw [hc] at hb
  cases hb

/-- The code points of ASCII letters. -/
theorem toNat_of_isAlpha {c : Char} (h : c.isAlpha = true) : 65 ≤ c.toNat ∧ c.toNat ≤ 122 := by
  change (decide (c.val ≥ 'A'.val ∧ c.val ≤ 'Z'.val) ||
    decide (c.val ≥ 'a'.val) && decide (c.val ≤ 'z'.val)) = true at h
  simp only [Bool.or_eq_true, Bool.and_eq_true, decide_eq_true_eq, ge_iff_le,
    UInt32.le_iff_toNat_le] at h
  have hupper : 'A'.val.toNat = 65 ∧ 'Z'.val.toNat = 90 := ⟨rfl, rfl⟩
  have hlower : 'a'.val.toNat = 97 ∧ 'z'.val.toNat = 122 := ⟨rfl, rfl⟩
  have hval : c.val.toNat = c.toNat := rfl
  omega

/-- A letter may stand in a document. -/
theorem isLegal_of_isAlpha {c : Char} (h : c.isAlpha = true) : isLegal c = true := by
  obtain ⟨hlow, hhigh⟩ := toNat_of_isAlpha h
  unfold isLegal
  rw [if_neg (by omega)]
  simp only [Bool.and_eq_true, bne_iff_ne, ne_eq]
  omega

/-- A letter may start a name, and continue one. -/
theorem isName_of_isAlpha {c : Char} (h : c.isAlpha = true) (letters : Letters) :
    isNameStart letters c = true ∧ isNameChar letters c = true := by
  have hascii : c.toNat < 0x80 := by
    have hbounds := toNat_of_isAlpha h
    omega
  unfold isNameStart isNameChar Char.isAlphanum
  rw [if_pos hascii, if_pos hascii, h]
  simp

/-- A list of which everything passes is taken whole. -/
theorem takeWhile_append_of_all {p : Char → Bool} {cs : List Char} (h : ∀ c ∈ cs, p c = true)
    (rest : List Char) (hrest : ∀ c ∈ rest.head?, p c = false) :
    (cs ++ rest).takeWhile p = cs ∧ (cs ++ rest).dropWhile p = rest := by
  have hstop : rest.takeWhile p = [] ∧ rest.dropWhile p = rest := by
    cases rest with
    | nil => exact ⟨rfl, rfl⟩
    | cons c rest =>
      have hc := hrest c rfl
      simp [hc]
  rw [List.takeWhile_append_of_pos h, List.dropWhile_append_of_pos h, hstop.1, hstop.2,
    List.append_nil]
  exact ⟨rfl, rfl⟩

section Tag

variable {tag : String} (htag : IsTag tag)
include htag

/-- A tag is read as a name without a scope, up to where no name goes on. -/
theorem qname?_tag (letters : Letters) (rest : List Char)
    (hrest : ∀ c ∈ rest.head?, isNameChar letters c = false ∧ c ≠ ':') :
    qname? letters (tag.toList ++ rest) = some (⟨none, tag⟩, rest) := by
  have hname := fun c hc => isName_of_isAlpha (htag.isAlpha c hc) letters
  -- the tag is taken whole, and no colon follows that would make it a scope
  have hsimple : simpleName? letters (tag.toList ++ rest) = some (tag.toList, rest) := by
    cases hcs : tag.toList with
    | nil => exact absurd hcs htag.ne_nil
    | cons c cs =>
      rw [hcs] at hname
      obtain ⟨htake, hdrop⟩ := takeWhile_append_of_all
        (fun b hb => (hname b (List.mem_cons_of_mem c hb)).2) rest (fun b hb => (hrest b hb).1)
      rw [List.cons_append, simpleName?, (hname c List.mem_cons_self).1, if_pos rfl, htake, hdrop]
  unfold qname?
  rw [hsimple]
  simp only [Option.bind_eq_bind, Option.bind_some, String.ofList_toList]
  split
  · exact absurd rfl (hrest ':' rfl).2
  · rfl

/-- Between `<` and the end of a tag the machine collects the letters. -/
theorem run_markup_tag : ∃ c cs, tag.toList = c :: cs ∧
    LexState.run d .markup tag.toList = some (.startTag none (cs.reverse ++ [c]), []) := by
  cases hcs : tag.toList with
  | nil => exact absurd hcs htag.ne_nil
  | cons c cs =>
    have halpha := htag.isAlpha
    rw [hcs] at halpha
    have hc := halpha c List.mem_cons_self
    -- the first letter opens a start tag, and the others are collected
    have hstep : LexState.step d .markup c = some (.startTag none [c], []) := by
      have hslash : c ≠ '/' := ne_of_isAlpha hc rfl
      have hbang : c ≠ '!' := ne_of_isAlpha hc rfl
      have hquestion : c ≠ '?' := ne_of_isAlpha hc rfl
      simp [LexState.step, isLegal_of_isAlpha hc, hslash, hbang, hquestion,
        (isName_of_isAlpha hc d.letters).1]
    refine ⟨c, cs, rfl, ?_⟩
    rw [LexState.run_cons_of_step hstep]
    refine LexState.run_collect (.startTag none) (fun b hb read => ?_) [c]
    have hb := halpha b (List.mem_cons_of_mem c hb)
    have hlt : b ≠ '<' := ne_of_isAlpha hb rfl
    have hgt : b ≠ '>' := ne_of_isAlpha hb rfl
    have hdouble : b ≠ '"' := ne_of_isAlpha hb rfl
    have hsingle : b ≠ '\'' := ne_of_isAlpha hb rfl
    simp [LexState.step, isLegal_of_isAlpha hb, hlt, hgt, hdouble, hsingle]

/-- A start tag. -/
theorem run_startTag (n : Nat) : LexState.run d (.text n) (Markup.startTag tag) =
    some (.text 0, [.startTag ⟨none, tag⟩ []]) := by
  obtain ⟨c, cs, hcs, hrun⟩ := run_markup_tag (d := d) htag
  have hread : Tag.start? d tag.toList = some [.startTag ⟨none, tag⟩ []] := by
    have hq := qname?_tag htag d.letters [] (fun c hc => nomatch hc)
    rw [List.append_nil] at hq
    unfold Tag.start?
    rw [hq]
    rfl
  have hclose : LexState.step d (.startTag none (cs.reverse ++ [c])) '>' =
      some (.text 0, [.startTag ⟨none, tag⟩ []]) := by
    have hreverse : (cs.reverse ++ [c]).reverse = tag.toList := by rw [hcs]; simp
    show LexState.closeStartTag d (cs.reverse ++ [c]) = _
    rw [LexState.closeStartTag, hreverse, hread]
    rfl
  rw [Markup.startTag, List.cons_append, LexState.run_cons_of_step (LexState.step_lessThan n)]
  exact LexState.run_concat hrun hclose

/-- An end tag. -/
theorem run_endTag (n : Nat) : LexState.run d (.text n) (Markup.endTag tag) =
    some (.text 0, [.endTag tag.toList]) := by
  have hslash : LexState.step d .markup '/' = some (.endTag [], []) := rfl
  -- the letters are collected behind the slash
  have hcollect : LexState.run d (.endTag []) tag.toList =
      some (.endTag (tag.toList.reverse ++ []), []) :=
    LexState.run_collect .endTag (fun c hc read => by
      have hc := htag.isAlpha c hc
      have hlt : c ≠ '<' := ne_of_isAlpha hc rfl
      have hgt : c ≠ '>' := ne_of_isAlpha hc rfl
      simp [LexState.step, isLegal_of_isAlpha hc, hlt, hgt]) []
  -- read together, they are a name and nothing else
  have hread : Tag.end? d.letters tag.toList = some (.endTag tag.toList) := by
    have hname := fun c hc => isName_of_isAlpha (htag.isAlpha c hc) d.letters
    obtain ⟨htake, hdrop⟩ := takeWhile_append_of_all
      (p := fun c => isNameChar d.letters c || c = ':')
      (fun c hc => by rw [(hname c hc).2, Bool.true_or]) [] (fun c hc => nomatch hc)
    rw [List.append_nil] at htake hdrop
    unfold Tag.end?
    rw [htake, hdrop]
    cases hcs : tag.toList with
    | nil => exact absurd hcs htag.ne_nil
    | cons c cs =>
      have hc := (hname c (hcs ▸ List.mem_cons_self)).1
      simp [hc]
  have hclose : LexState.step d (.endTag (tag.toList.reverse ++ [])) '>' =
      some (.text 0, [.endTag tag.toList]) := by
    rw [List.append_nil]
    show (Tag.end? d.letters tag.toList.reverse.reverse).map _ = _
    rw [List.reverse_reverse, hread]
    rfl
  rw [Markup.endTag, List.cons_append, List.cons_append,
    LexState.run_cons_of_step (LexState.step_lessThan n), LexState.run_cons_of_step hslash]
  exact LexState.run_concat hcollect hclose

/-- An element around what is inside. -/
theorem lexes_element {cs : List Char} {k : Content} (h : Lexes d cs k) :
    Lexes d (Markup.startTag tag ++ cs ++ Markup.endTag tag) (.element ⟨none, tag⟩ k .nil) := by
  intro n
  obtain ⟨m, tokens, hrun, hspells⟩ := h 0
  refine ⟨0, _, ?_, .element hspells .nil⟩
  rw [List.append_assoc, LexState.run_append, run_startTag htag]
  simp only [Option.bind_eq_bind, Option.bind_some, LexState.run_append, hrun, run_endTag htag]
  rfl

/-- A tag without content is an element that holds nothing. -/
theorem lexes_emptyTag :
    Lexes d (Markup.emptyTag tag) (.element ⟨none, tag⟩ .nil .nil) := by
  intro n
  obtain ⟨c, cs, hcs, hrun⟩ := run_markup_tag (d := d) htag
  -- a blank and the slash are collected with the name, and told apart when the tag closes
  have hspace : LexState.step d (.startTag none (cs.reverse ++ [c])) ' ' =
      some (.startTag none (' ' :: (cs.reverse ++ [c])), []) := rfl
  have hslash : LexState.step d (.startTag none (' ' :: (cs.reverse ++ [c]))) '/' =
      some (.startTag none ('/' :: ' ' :: (cs.reverse ++ [c])), []) := rfl
  -- what was collected is a name without attributes, closed by the slash
  have hread : Tag.start? d (tag.toList ++ [' ', '/']) =
      some [.startTag ⟨none, tag⟩ [], .endTag tag.toList] := by
    have hblank : isNameChar d.letters ' ' = false := rfl
    have hq := qname?_tag htag d.letters [' ', '/'] (fun c hc => by
      obtain rfl := Option.some.inj hc
      exact ⟨hblank, by decide⟩)
    unfold Tag.start?
    rw [hq]
    have hattributes : Tag.attributes? d (2 + 1) [' ', '/'] = some ([], true) := rfl
    simp [hattributes]
  -- the closing step reads what was collected, which stands in reverse
  have hclose : LexState.step d (.startTag none ('/' :: ' ' :: (cs.reverse ++ [c]))) '>' =
      some (.text 0, [.startTag ⟨none, tag⟩ [], .endTag tag.toList]) := by
    have hreverse : ('/' :: ' ' :: (cs.reverse ++ [c])).reverse = tag.toList ++ [' ', '/'] := by
      rw [hcs]
      simp
    show LexState.closeStartTag d ('/' :: ' ' :: (cs.reverse ++ [c])) = _
    rw [LexState.closeStartTag, hreverse, hread]
    rfl
  have hspells : Spells (.startTag ⟨none, tag⟩ [] :: ([] ++ .endTag tag.toList :: []))
      (.element ⟨none, tag⟩ .nil .nil) := .element .nil .nil
  -- from the start tag on, one step for each of the three characters left
  refine ⟨0, _, ?_, hspells⟩
  have htext : Markup.emptyTag tag = '<' :: (tag.toList ++ [' '] ++ ['/'] ++ ['>']) := by
    simp [Markup.emptyTag]
  rw [htext, LexState.run_cons_of_step (LexState.step_lessThan n)]
  exact LexState.run_concat (LexState.run_concat (LexState.run_concat hrun hspace) hslash) hclose

end Tag

end Depot.Xml
