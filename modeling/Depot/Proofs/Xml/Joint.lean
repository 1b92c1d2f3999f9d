import Depot.Proofs.Xml.ReadBack
import Depot.Proofs.Xml.Wrapped
/-!
# Texts that are joined inside an element

Two texts that each fill an element fill it together, one after the other (`Fills.append`), as if
nothing of the first could be seen from the second. One thing can be: how many closing brackets it
ends with, since the end of a section of quoted text may not stand in text. So the mark `]]>` must
not begin in the first text and end in the second (`Straddles`). The machine counts brackets; what
it has counted stands at the end of what it has read (`LexState.replicate_suffix_of_run`), and it
matters only where the mark is completed (`LexState.exists_run_of_le`).

Line ends are normalized before that, and a carriage return at the end of the first text makes one
line end with a line feed at the start of the second. Then the whole holds a line feed less than the
parts do, but the same elements (`Fills.append_normalized`).
-/

namespace Depot.Xml

/-- The mark begins at the end of the first text and ends at the start of the second. -/
def Straddles (mark a b : List Char) : Prop :=
  ∃ u v, u ≠ [] ∧ v ≠ [] ∧ u ++ v = mark ∧ u <:+ a ∧ v <+: b

/-- The mark is cut somewhere. -/
theorem straddles_iff {mark a b : List Char} : Straddles mark a b ↔
    ∃ n ∈ List.range mark.length, n ≠ 0 ∧ mark.take n <:+ a ∧ mark.drop n <+: b := by
  constructor
  · -- neither part of the mark is empty
    rintro ⟨u, v, hu, hv, rfl, hsuffix, hprefix⟩
    have hlength := List.length_pos_iff.2 hv
    refine ⟨u.length, List.mem_range.2 (by rw [List.length_append]; omega),
      mt List.length_eq_zero_iff.1 hu, ?_, ?_⟩
    · rwa [List.take_left']
      rfl
    · rwa [List.drop_left']
      rfl
  · rintro ⟨n, hn, hpos, hsuffix, hprefix⟩
    rw [List.mem_range] at hn
    refine ⟨mark.take n, mark.drop n, ?_, ?_, List.take_append_drop .., hsuffix, hprefix⟩
    · rw [ne_eq, List.take_eq_nil_iff]
      rintro (h | rfl)
      · exact hpos h
      · cases hn
    · rw [ne_eq, List.drop_eq_nil_iff]
      omega

instance (mark a b : List Char) : Decidable (Straddles mark a b) :=
  decidable_of_iff _ straddles_iff.symm

/-- The end of a section of quoted text. -/
def sectionEnd : List Char := [']', ']', '>']

/-! ### Brackets -/

/-- Some of equal characters are at the end of more of them. -/
theorem replicate_suffix_replicate {k n : Nat} (h : k ≤ n) (c : Char) :
    List.replicate k c <:+ List.replicate n c :=
  ⟨List.replicate (n - k) c, by rw [List.replicate_append_replicate, Nat.sub_add_cancel h]⟩

namespace LexState

variable {d : Dialect}

/-- No text follows what opens behind `<!`. -/
theorem declare_ne_text (read : List Char) (n : Nat) : declare read ≠ some (.text n) := by
  unfold declare
  split
  · simp
  split
  · simp
  split <;> simp

/-- Between tokens, brackets are ahead only where another one was read. -/
theorem step_text_cases {s : LexState} {c : Char} {n : Nat} {tokens : List Token}
    (h : step d s c = some (.text n, tokens)) :
    n = 0 ∨ ∃ m, s = .text m ∧ c = ']' ∧ n = min (m + 1) 2 := by
  cases hlegal : isLegal c with
  | false => simp [step, hlegal] at h
  | true =>
    simp only [step, hlegal, Bool.not_true, Bool.false_eq_true, if_false] at h
    -- by the state before the step: brackets count in text, and any other way back to it starts at
    -- none
    cases s with
    | text m =>
      simp only at h
      split at h
      · cases h
      split at h
      · cases h
      split at h
      · next hc =>
        cases h
        exact .inr ⟨m, rfl, hc, rfl⟩
      split at h
      · cases h
      · cases h
        exact .inl rfl
    | reference read =>
      simp only at h
      split at h
      · obtain ⟨r, -, h⟩ := Option.bind_eq_some_iff.1 h
        obtain ⟨b, -, h⟩ := Option.bind_eq_some_iff.1 h
        cases h
        exact .inl rfl
      · split at h <;> cases h
    | markup =>
      simp only at h
      grind
    | startTag quote read =>
      have hclose : ∀ r, closeStartTag d read = some r → r.1 = .text 0 := by
        intro r hr
        obtain ⟨tokens, -, rfl⟩ := Option.map_eq_some_iff.1 hr
        rfl
      cases quote <;> simp only at h <;> grind
    | endTag read =>
      simp only at h
      split at h
      · cases h
      · split at h
        · obtain ⟨token, -, h⟩ := Option.map_eq_some_iff.1 h
          cases h
          exact .inl rfl
        · cases h
    | declaration read =>
      obtain ⟨next, hnext, h⟩ := Option.map_eq_some_iff.1 h
      cases h
      exact absurd hnext (declare_ne_text _ n)
    | comment hyphens =>
      simp only at h
      grind
    | instruction read question =>
      simp only at h
      grind
    | quoted read brackets =>
      simp only at h
      grind

/-- **Brackets ahead** are those with which the text ends that has been read. -/
theorem replicate_suffix_of_run {s : LexState} {before cs : List Char} {n : Nat}
    {tokens : List Token} (h : run d s cs = some (.text n, tokens))
    (hs : ∀ m, s = .text m → m ≤ 2 ∧ List.replicate m ']' <:+ before) :
    n ≤ 2 ∧ List.replicate n ']' <:+ before ++ cs := by
  induction cs generalizing s before tokens with
  | nil =>
    obtain rfl := (Prod.mk.inj (Option.some.inj h)).1
    rw [List.append_nil]
    exact hs n rfl
  | cons c cs ih =>
    obtain ⟨next, first, more, hstep, hrun, -⟩ := run_cons_eq_some_iff.1 h
    rw [List.append_cons]
    refine ih hrun fun m hm => ?_
    subst hm
    rcases step_text_cases hstep with rfl | ⟨k, rfl, rfl, rfl⟩
    · exact ⟨Nat.zero_le 2, List.nil_suffix⟩
    · -- another bracket after those that were ahead
      have hall : List.replicate (k + 1) ']' <:+ before ++ [']'] := by
        rw [List.replicate_succ']
        exact List.suffix_append_self_iff.2 (hs k rfl).2
      exact ⟨Nat.min_le_right _ _,
        (replicate_suffix_replicate (Nat.min_le_left _ _) ']').trans hall⟩

/-- Where no bracket is read and no mark is completed, it does not matter how many brackets are
ahead. -/
theorem step_text_eq {c : Char} (hbracket : c ≠ ']') {k n : Nat} (hk : c = '>' → k ≠ 2)
    (hn : c = '>' → n ≠ 2) : step d (.text k) c = step d (.text n) c := by
  by_cases hc : c = '>'
  · simp [step, hc, hk hc, hn hc]
  · simp [step, hbracket, hc]

/-- **More brackets ahead** are as good as fewer, unless the text goes on with what is left of the
mark. -/
theorem exists_run_of_le {k n last : Nat} (hkn : k ≤ n) (hn : n ≤ 2) {cs : List Char}
    {tokens : List Token} (h : run d (.text k) cs = some (.text last, tokens))
    (hmark : ∀ m, k ≤ m → m ≤ n → ¬ sectionEnd.drop m <+: cs) :
    ∃ last', run d (.text n) cs = some (.text last', tokens) := by
  induction cs generalizing k n tokens with
  | nil =>
    obtain ⟨-, rfl⟩ := Prod.mk.inj (Option.some.inj h)
    exact ⟨n, rfl⟩
  | cons c cs ih =>
    rcases Nat.eq_or_lt_of_le hkn with rfl | hlt
    · exact ⟨last, h⟩
    obtain ⟨next, first, more, hstep, hrun, rfl⟩ := run_cons_eq_some_iff.1 h
    -- a bracket moves both counts on, and any other character ends them
    by_cases hc : c = ']'
    · subst hc
      have hbracket : ∀ m, step d (.text m) ']' = some (.text (min (m + 1) 2), [.text ']']) :=
        fun m => rfl
      obtain ⟨rfl, rfl⟩ := Prod.mk.inj (Option.some.inj ((hbracket k).symm.trans hstep))
      obtain ⟨last', hrun'⟩ := ih (n := min (n + 1) 2) (by omega) (by omega) hrun
        fun m hm hmn hprefix => by
          -- with this bracket, one more character is left of the mark
          refine hmark (m - 1) (by omega) (by omega) ?_
          have hdrop : sectionEnd.drop (m - 1) = ']' :: sectionEnd.drop m := by
            obtain rfl | rfl : m = 1 ∨ m = 2 := by omega
            · rfl
            · rfl
          rw [hdrop]
          exact (List.prefix_cons_inj ']').2 hprefix
      exact ⟨last', run_cons_eq_some_iff.2 ⟨_, _, more, hbracket n, hrun', rfl⟩⟩
    · have hnext : c = '>' → n ≠ 2 := by
        rintro rfl rfl
        exact hmark 2 hkn (Nat.le_refl 2) ⟨cs, rfl⟩
      have heq : step d (.text n) c = some (next, first) := by
        rw [← step_text_eq hc (k := k) (by omega) hnext, hstep]
      exact ⟨last, run_cons_eq_some_iff.2 ⟨next, first, more, heq, hrun, rfl⟩⟩

end LexState

/-! ### Line ends -/

/-- Line ends are normalized on either side of a joint, unless one is cut there. -/
theorem normalizeLines_append_of_ne {a b : List Char}
    (h : a.getLast? = some '\r' → b.head? ≠ some '\n') :
    normalizeLines (a ++ b) = normalizeLines a ++ normalizeLines b := by
  fun_induction normalizeLines a with
  | case1 => rfl
  | case2 cs ih =>
    have hrest : cs.getLast? = some '\r' → b.head? ≠ some '\n' := fun hlast =>
      h (by rw [List.getLast?_cons_cons, List.getLast?_cons, hlast]; rfl)
    show '\n' :: normalizeLines (cs ++ b) = '\n' :: (normalizeLines cs ++ normalizeLines b)
    rw [ih hrest]
  | case3 c cs hno ih =>
    have hrest : cs.getLast? = some '\r' → b.head? ≠ some '\n' := fun hlast =>
      h (by rw [List.getLast?_cons, hlast]; rfl)
    rw [List.cons_append, List.cons_append, ← ih hrest]
    split
    · next hc =>
      subst hc
      -- what follows the carriage return is no line feed, be it of the first text or of the second
      refine normalizeLines_return fun hhead => ?_
      cases cs with
      | nil => exact h rfl hhead
      | cons b' cs =>
        obtain rfl := Option.some.inj hhead
        exact hno cs rfl rfl
    · next hc => exact normalizeLines_cons_of_ne hc _

/-- A text without line feeds that normalized text starts with, starts the text itself. -/
theorem prefix_of_prefix_normalizeLines {u cs : List Char} (hu : '\n' ∉ u)
    (h : u <+: normalizeLines cs) : u <+: cs := by
  -- along the lines: `u` holds no line feed, so none in it was made of a carriage return
  fun_induction normalizeLines cs generalizing u with
  | case1 => exact h
  | case2 cs ih =>
    cases u with
    | nil => exact List.nil_prefix
    | cons b u =>
      obtain ⟨rfl, -⟩ := List.cons_prefix_cons.1 h
      exact absurd List.mem_cons_self hu
  | case3 c cs hno ih =>
    cases u with
    | nil => exact List.nil_prefix
    | cons b u =>
      obtain ⟨rfl, hrest⟩ := List.cons_prefix_cons.1 h
      have hc : c ≠ '\r' := by
        rintro rfl
        exact hu List.mem_cons_self
      rw [if_neg hc] at hu ⊢
      exact List.cons_prefix_cons.2 ⟨rfl, ih (fun hmem => hu (List.mem_cons_of_mem c hmem)) hrest⟩

/-- Every carriage return leaves a line feed. -/
theorem lineFeed_mem_normalizeLines {cs : List Char} (h : '\r' ∈ cs) :
    '\n' ∈ normalizeLines cs := by
  fun_induction normalizeLines cs with
  | case1 => cases h
  | case2 cs ih => exact List.mem_cons_self
  | case3 c cs hno ih =>
    rcases List.mem_cons.1 h with rfl | h
    · exact List.mem_cons_self
    · exact List.mem_cons_of_mem _ (ih h)

/-- A text without line feeds that normalized text ends with, ends the text itself. -/
theorem suffix_of_suffix_normalizeLines {u cs : List Char} (hu : '\n' ∉ u)
    (h : u <:+ normalizeLines cs) : u <:+ cs := by
  fun_induction normalizeLines cs with
  | case1 => exact h
  | case2 cs ih =>
    rcases List.suffix_cons_iff.1 h with rfl | h
    · exact absurd List.mem_cons_self hu
    · exact (ih h).trans ((List.suffix_cons '\n' cs).trans (List.suffix_cons '\r' _))
  | case3 c cs hno ih =>
    rcases List.suffix_cons_iff.1 h with rfl | h
    · -- all of the normalized text, so there was nothing to normalize
      have hall : ∀ b ∈ c :: cs, b ≠ '\r' := by
        rintro b hb rfl
        have hmem := lineFeed_mem_normalizeLines hb
        rw [normalizeLines.eq_3 c cs hno] at hmem
        exact hu hmem
      have hself : normalizeLines (c :: cs) = c :: cs := normalizeLines_eq_self hall
      rw [normalizeLines.eq_3 c cs hno] at hself
      exact hself ▸ List.suffix_refl _
    · exact (ih h).trans (List.suffix_cons c cs)

/-- A mark that straddles the joint of normalized texts straddles that of the texts. -/
theorem Straddles.of_normalizeLines {mark a b : List Char} (hmark : '\n' ∉ mark)
    (h : Straddles mark (normalizeLines a) (normalizeLines b)) : Straddles mark a b := by
  obtain ⟨u, v, hu, hv, rfl, hsuffix, hprefix⟩ := h
  rw [List.mem_append, not_or] at hmark
  exact ⟨u, v, hu, hv, rfl, suffix_of_suffix_normalizeLines hmark.1 hsuffix,
    prefix_of_prefix_normalizeLines hmark.2 hprefix⟩

/-- After a carriage return a line feed is none of its own. -/
theorem normalizeLines_append_lineFeed {a : List Char} (h : a.getLast? = some '\r')
    (b : List Char) : normalizeLines (a ++ '\n' :: b) = normalizeLines a ++ normalizeLines b ∧
      (normalizeLines a).getLast? = some '\n' := by
  obtain ⟨front, rfl⟩ := List.getLast?_eq_some_iff.1 h
  have hcut : ∀ more, normalizeLines (front ++ '\r' :: more) =
      normalizeLines front ++ normalizeLines ('\r' :: more) := fun more =>
    normalizeLines_append_of_ne fun _ hhead => nomatch hhead
  have hreturn : normalizeLines (front ++ ['\r']) = normalizeLines front ++ ['\n'] := hcut []
  rw [hreturn, List.append_assoc, List.append_assoc]
  refine ⟨hcut ('\n' :: b), ?_⟩
  rw [List.getLast?_append]
  rfl

/-! ### Texts that fill an element together -/

variable {d : Doctype} {tag : String}

/-- A text fills an element together with what follows it, unless the mark straddles the joint. -/
theorem Fills.append {a b : List Char} {k l : Content}
    (ha : Fills d tag a k) (hb : Fills d tag b l) (hjoint : ¬ Straddles sectionEnd a b) :
    Fills d tag (a ++ b) (k.append l) := by
  obtain ⟨n, tokens, hrun, hadds⟩ := ha
  obtain ⟨last, more, hrun', hadds'⟩ := hb
  have hbrackets : n ≤ 2 ∧ List.replicate n ']' <:+ [] ++ a :=
    LexState.replicate_suffix_of_run hrun fun m hm => by
      cases hm
      exact ⟨Nat.zero_le 2, List.nil_suffix⟩
  rw [List.nil_append] at hbrackets
  obtain ⟨last', hlast'⟩ := LexState.exists_run_of_le (Nat.zero_le n) hbrackets.1 hrun'
    fun m _ hmn hprefix => by
      cases m with
      | zero =>
        -- the second text would hold the whole mark
        obtain ⟨rest, rfl⟩ := hprefix
        have hnone : LexState.run d.dialect (.text 0) (sectionEnd ++ rest) = none := rfl
        exact nomatch hnone.symm.trans hrun'
      | succ m =>
        -- as many brackets of the mark stand at the end of the first text
        have htake : sectionEnd.take (m + 1) = List.replicate (m + 1) ']' := by
          obtain rfl | rfl : m = 0 ∨ m = 1 := by omega
          · rfl
          · rfl
        refine hjoint ⟨sectionEnd.take (m + 1), sectionEnd.drop (m + 1), ?_, ?_,
          List.take_append_drop .., ?_, hprefix⟩
        · rw [htake]
          exact List.cons_ne_nil _ _
        · rw [ne_eq, List.drop_eq_nil_iff, sectionEnd]
          simp only [List.length_cons, List.length_nil]
          omega
        · rw [htake]
          exact (replicate_suffix_replicate hmn ']').trans hbrackets.2
  refine ⟨last', tokens ++ more, ?_, hadds.append hadds'⟩
  rw [LexState.run_append, hrun, Option.bind_eq_bind, Option.bind_some]
  simp [hlast']

/-- What fills an element after a line feed does so without it. -/
theorem Fills.exists_of_lineFeed {cs : List Char} {l : Content} (h : Fills d tag ('\n' :: cs) l) :
    ∃ l', l = .char '\n' l' ∧ Fills d tag cs l' := by
  obtain ⟨n, tokens, hrun, hadds⟩ := h
  have hstep : LexState.step d.dialect (.text 0) '\n' = some (.text 0, [.text '\n']) := rfl
  obtain ⟨next, first, more, hnext, hmore, rfl⟩ := LexState.run_cons_eq_some_iff.1 hrun
  obtain ⟨rfl, rfl⟩ := Prod.mk.inj (Option.some.inj (hstep.symm.trans hnext))
  have hrest : Builder.run d ⟨[(Builder.opened tag).holding (.char '\n' .nil)], none⟩ more =
      some ⟨[(Builder.opened tag).holding (l.reverseOnto .nil)], none⟩ := hadds .nil
  obtain ⟨l', hadds', heq⟩ := Builder.exists_adds hrest rfl
  have hreverse : l.reverse = (Content.char '\n' l').reverse := by
    -- the line feed is the first thing that is added
    have hcontent := congrArg (fun b : Builder => b.stack.map (·.content)) heq
    exact (List.cons.inj hcontent).1
  refine ⟨l', ?_, n, more, hmore, hadds'⟩
  rw [← Content.reverse_reverse l, hreverse, Content.reverse_reverse]

/-- **Texts one after the other.** Two texts that fill an element once their line ends are
normalized fill it together, with the elements of both in order. -/
theorem Fills.append_normalized {a b : List Char} {k l : Content}
    (ha : Fills d tag (normalizeLines a) k) (hb : Fills d tag (normalizeLines b) l)
    (hjoint : ¬ Straddles sectionEnd a b) :
    ∃ m, Fills d tag (normalizeLines (a ++ b)) m ∧
      m.descendants = k.descendants ++ l.descendants := by
  have hmark : '\n' ∉ sectionEnd := by decide
  by_cases hcut : a.getLast? = some '\r' ∧ b.head? = some '\n'
  · obtain ⟨hlast, hhead⟩ := hcut
    obtain ⟨rest, rfl⟩ : ∃ rest, b = '\n' :: rest := List.head?_eq_some_iff.1 hhead
    obtain ⟨hwhole, hfeed⟩ := normalizeLines_append_lineFeed hlast rest
    rw [normalizeLines_cons_of_ne (by decide)] at hb
    obtain ⟨l', rfl, hrest⟩ := hb.exists_of_lineFeed
    have hjoint' : ¬ Straddles sectionEnd (normalizeLines a) (normalizeLines rest) := by
      -- the first text now ends with a line feed, and the mark has none
      rintro ⟨u, v, hu, -, huv, hsuffix, -⟩
      refine hmark (huv ▸ List.mem_append_left v ?_)
      obtain ⟨front, hfront⟩ := hsuffix
      rw [← hfront, List.getLast?_append, List.getLast?_eq_some_getLast hu] at hfeed
      exact Option.some.inj hfeed ▸ List.getLast_mem hu
    refine ⟨k.append l', hwhole ▸ ha.append hrest hjoint', ?_⟩
    rw [Content.descendants_append]
    rfl
  · have hwhole := normalizeLines_append_of_ne fun hlast hhead => hcut ⟨hlast, hhead⟩
    refine ⟨k.append l, hwhole ▸ ha.append hb fun h => hjoint (h.of_normalizeLines hmark), ?_⟩
    rw [Content.descendants_append]

/-! ### Documents made of one element -/

namespace Document

/-- What a document decides that declares no type, and not that it stands alone. -/
def plainDoctype : Doctype := { letters := .common, standalone := false }

/-- **One element as a document.** Text between tags is a document exactly if it fills the element,
once its line ends are normalized. -/
theorem body_wrapped_iff (htag : IsTag tag) {cs : List Char} {root : Element} :
    body ⟨.common, false, Markup.startTag tag ++ cs ++ Markup.endTag tag⟩ = .ok root ↔
      ∃ k, Fills plainDoctype tag (normalizeLines cs) k ∧ root = ⟨⟨none, tag⟩, k⟩ := by
  -- a tag has no carriage return, so the lines are those of the text inside
  have hend : normalizeLines (Markup.endTag tag) = Markup.endTag tag := by
    have htags := Markup.normalizeLines_tag htag (.inr (.inr rfl)) []
    rwa [List.append_nil, normalizeLines, List.append_nil] at htags
  have hlines : normalizeLines (Markup.startTag tag ++ cs ++ Markup.endTag tag) =
      Markup.startTag tag ++ normalizeLines cs ++ Markup.endTag tag := by
    have hhead : (Markup.endTag tag).head? ≠ some '\n' := by rintro ⟨⟩
    rw [List.append_assoc, Markup.normalizeLines_tag htag (.inr (.inl rfl)),
      normalizeLines_append_of_ne fun _ => hhead, hend, List.append_assoc]
  -- the text starts with `<` and a letter, so there is nothing before the root
  obtain ⟨c, rest, hc, hrest⟩ : ∃ c rest, c.isAlpha = true ∧
      Markup.startTag tag ++ normalizeLines cs ++ Markup.endTag tag = '<' :: c :: rest := by
    cases htext : tag.toList with
    | nil => exact absurd htext htag.ne_nil
    | cons c more =>
      exact ⟨c, _, htag.isAlpha c (htext ▸ List.mem_cons_self), by rw [Markup.startTag, htext]; rfl⟩
  have hprolog : prolog .common false (('<' :: c :: rest).length + 1) none ('<' :: c :: rest) =
      .ok (plainDoctype, '<' :: c :: rest) := prolog_root hc rfl (Nat.succ_pos _)
  rw [← tree?_wrapped_iff (d := plainDoctype) rfl htag, hrest]
  unfold body
  simp only [hlines, hrest, hprolog, bind, Except.bind]
  split
  · next element heq =>
    rw [heq]
    exact (Except.ok.injEq _ _).to_iff.trans (Option.some.injEq _ _).to_iff.symm
  · next heq =>
    rw [heq]
    exact iff_of_false (by rintro ⟨⟩) (by rintro ⟨⟩)

end Document

end Depot.Xml
