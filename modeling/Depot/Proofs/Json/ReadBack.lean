import Depot.Proofs.Decimal.Order
import Depot.Proofs.Dictionary
import Depot.Proofs.Json.Numbers
import Depot.Proofs.Json.OneLine
import Mathlib.Data.List.DropRight
/-!
# Written JSON is read back

What is written of a value is read as that value (`parse?_render`), whatever the texts in it. Three
things are asked of the value: its objects have distinct names (`IsProper`), since of two members
with one name only one is left; its integers have not too many digits (`isWritable_iff`); and its
floating point numbers are read as the nearest to the digits that are written for them (`readBack`).

The reader is followed along the text with what comes after it (`ReadsBack`): behind a value stands
a comma or the end of what it is part of, and nothing that could go on with a number.
-/

namespace Depot.Json

/-! ### Texts -/

/-- The result of reading a string with a character in front. -/
def withChar (c : Char) (r : List Char × List Char) : List Char × List Char := (c :: r.1, r.2)

/-- A character that stands for itself. -/
theorem stringBody?_plain {c : Char} (hc : IsPlain c) (hquote : c ≠ '"') (hbackslash : c ≠ '\\')
    (cs : List Char) : stringBody? (c :: cs) = (stringBody? cs).map (withChar c) := by
  have hlow : ¬ c.toNat < 0x20 := Nat.not_lt.2 hc
  rw [stringBody?.eq_def]
  -- only the last rule is for a character that stands for itself
  split
  · next heq => cases heq
  · next heq => exact absurd (List.cons.inj heq).1 hquote
  · next heq => exact absurd (List.cons.inj heq).1 hbackslash
  · next heq => exact absurd (List.cons.inj heq).1 hbackslash
  · next heq => exact absurd (List.cons.inj heq).1 hbackslash
  · next heq =>
    obtain ⟨rfl, rfl⟩ := List.cons.inj heq
    simp only [hlow, hbackslash, decide_false, Bool.or_self, Bool.false_eq_true, if_false]
    cases stringBody? cs <;> rfl

/-- A letter behind a backslash. -/
theorem stringBody?_letter {letter c : Char}
    (hletter : letter ∈ ['"', '\\', 'n', 'r', 't', 'b', 'f'])
    (hc : escaped? letter = some c) (cs : List Char) :
    stringBody? ('\\' :: letter :: cs) = (stringBody? cs).map (withChar c) := by
  have hu : letter ≠ 'u' := by
    rintro rfl
    exact absurd hletter (by decide)
  rw [stringBody?.eq_def]
  -- the rules for code units come first, and ask for the letter `u`
  split
  · next heq => cases heq
  · next heq => exact absurd (List.cons.inj heq).1 (by decide)
  · next heq => exact absurd (List.cons.inj (List.cons.inj heq).2).1 hu
  · next heq => exact absurd (List.cons.inj (List.cons.inj heq).2).1 hu
  · next heq =>
    obtain ⟨-, heq⟩ := List.cons.inj heq
    obtain ⟨rfl, rfl⟩ := List.cons.inj heq
    simp only [hc]
    cases stringBody? cs <;> rfl
  · next hno heq =>
    cases heq
    exact (hno _ _ rfl rfl).elim

/-- Without a code unit there is no string. -/
theorem stringBody?_eq_none {a b c d : Char} (h : codeUnit? a b c d = none) (cs : List Char) :
    stringBody? ('\\' :: 'u' :: a :: b :: c :: d :: cs) = none := by
  rw [stringBody?.eq_def]
  -- neither rule for code units can read one here
  split
  · next heq => cases heq
  · next heq => exact absurd (List.cons.inj heq).1 (by decide)
  · next heq =>
    cases heq
    simp [h]
  · next heq =>
    cases heq
    simp [h]
  · next hno heq =>
    cases heq
    exact (hno _ _ _ _ _ rfl rfl).elim
  · next hno heq =>
    cases heq
    exact (hno _ _ rfl rfl).elim

/-- A code unit that is not half of a pair. -/
theorem stringBody?_unit {a b c d : Char} {n : Nat} (hn : codeUnit? a b c d = some n)
    (hlow : n < 0x20) (cs : List Char) : stringBody? ('\\' :: 'u' :: a :: b :: c :: d :: cs) =
      (stringBody? cs).map (withChar (Char.ofNat n)) := by
  -- a unit this low is no surrogate, so it is a character by itself
  have hhigh : isHighSurrogate n = false := by
    simp only [isHighSurrogate, Bool.and_eq_false_iff, decide_eq_false_iff_not]
    omega
  have hchar : unitChar n = Char.ofNat n := by
    have hsecond : isLowSurrogate n = false := by
      simp only [isLowSurrogate, Bool.and_eq_false_iff, decide_eq_false_iff_not]
      omega
    simp [unitChar, hhigh, hsecond]
  -- the reader looks for a second escaped unit first, for a pair of surrogates
  rw [stringBody?.eq_def]
  split
  · next heq => cases heq
  · next heq => exact absurd (List.cons.inj heq).1 (by decide)
  · next e f g h more heq =>
    cases heq
    -- the code unit that follows is read by itself
    cases hnext : codeUnit? e f g h with
    | none =>
      rw [stringBody?_eq_none hnext]
      simp [hn]
    | some low =>
      simp only [hn, hhigh, hchar, Option.bind_eq_bind, Option.bind_some, Bool.false_and,
        Bool.false_eq_true, if_false]
      cases stringBody? ('\\' :: 'u' :: e :: f :: g :: h :: more) <;> rfl
  · next heq =>
    cases heq
    simp only [hn, hchar, Option.bind_eq_bind, Option.bind_some]
    cases stringBody? cs <;> rfl
  · next hno heq =>
    cases heq
    exact (hno _ _ _ _ _ rfl rfl).elim
  · next hno heq =>
    cases heq
    exact (hno _ _ rfl rfl).elim

/-- A written character is read back. -/
theorem stringBody?_escapeChar (c : Char) (cs : List Char) :
    stringBody? (escapeChar c ++ cs) = (stringBody? cs).map (withChar c) := by
  rcases escapeChar_cases c with ⟨letter, heq, hletter, hc⟩ | ⟨hlow, heq⟩ |
    ⟨heq, hc, hquote, hbackslash⟩
  · rw [heq]
    exact stringBody?_letter hletter hc cs
  · -- a code unit of four digits, of which the characters below the blank need no second one
    have hunit : ∀ n < 0x20, codeUnit? (Text.hexDigit (n / 16 / 16 / 16))
        (Text.hexDigit (n / 16 / 16)) (Text.hexDigit (n / 16)) (Text.hexDigit n) = some n := by
      decide
    have hread := stringBody?_unit (hunit c.toNat hlow) hlow cs
    rw [Char.ofNat_toNat] at hread
    rw [heq]
    exact hread
  · rw [heq]
    exact stringBody?_plain hc hquote hbackslash cs

/-- **Texts** are read as they were written. -/
theorem stringBody?_escaped (s rest : List Char) :
    stringBody? (s.flatMap escapeChar ++ '"' :: rest) = some (s, rest) := by
  induction s with
  | nil => rfl
  | cons c s ih =>
    rw [List.flatMap_cons, List.append_assoc, stringBody?_escapeChar, ih]
    rfl

/-! ### What is read -/

/-- The number that is read where a number is written. -/
def readBackFloat (x : Binary64) : Binary64 :=
  match scalar? (x.toText floatWords).toList with
  | some (.float y, _) => y
  | _ => x

mutual

/-- The value that is read where a value is written: the same, with the floating point numbers that
are read in it. -/
def readBack : Json → Json
  | .float x => .float (readBackFloat x)
  | .array items => .array (readBackItems items)
  | .object members => .object (readBackMembers members)
  | j => j

/-- The items that are read. -/
def readBackItems : List Json → List Json
  | [] => []
  | item :: items => item.readBack :: readBackItems items

/-- The members that are read. -/
def readBackMembers : List (String × Json) → List (String × Json)
  | [] => []
  | (name, value) :: members => (name, value.readBack) :: readBackMembers members

end

theorem readBackItems_eq_map (items : List Json) : readBackItems items = items.map readBack := by
  induction items with
  | nil => rfl
  | cons item items ih => exact congrArg (item.readBack :: ·) ih

theorem readBackMembers_eq_map (members : List (String × Json)) :
    readBackMembers members = members.map fun member => (member.1, member.2.readBack) := by
  induction members with
  | nil => rfl
  | cons member members ih => exact congrArg ((member.1, member.2.readBack) :: ·) ih

theorem names_readBackMembers (members : List (String × Json)) :
    Dictionary.names (readBackMembers members) = Dictionary.names members := by
  rw [readBackMembers_eq_map]
  exact Dictionary.names_map readBack members

/-- What is read where a member of an object is written. -/
theorem get?_readBackMembers (members : List (String × Json)) (name : String) :
    Dictionary.get? (readBackMembers members) name =
      (Dictionary.get? members name).map readBack := by
  rw [readBackMembers_eq_map]
  exact Dictionary.get?_map readBack members name

/-- The value has no floating point numbers in it. -/
inductive HasNoFloat : Json → Prop
  | null : HasNoFloat .null
  | bool (b : Bool) : HasNoFloat (.bool b)
  | int (n : Int) : HasNoFloat (.int n)
  | str (s : String) : HasNoFloat (.str s)
  | array {items : List Json} (h : ∀ item ∈ items, HasNoFloat item) : HasNoFloat (.array items)
  | object {members : List (String × Json)} (h : ∀ member ∈ members, HasNoFloat member.2) :
    HasNoFloat (.object members)

/-- Such a value is read as itself. -/
theorem HasNoFloat.readBack_eq {j : Json} (h : j.HasNoFloat) : j.readBack = j := by
  induction h with
  | null => rfl
  | bool b => rfl
  | int n => rfl
  | str s => rfl
  | array _ ih => rw [readBack, readBackItems_eq_map, List.map_congr_left ih, List.map_id']
  | object _ ih =>
    rw [readBack, readBackMembers_eq_map, List.map_congr_left fun member hmember =>
      congrArg (Prod.mk member.1) (ih member hmember), List.map_id']

/-- The names in every object of the value are distinct. -/
inductive IsProper : Json → Prop
  | null : IsProper .null
  | bool (b : Bool) : IsProper (.bool b)
  | int (n : Int) : IsProper (.int n)
  | float (x : Binary64) : IsProper (.float x)
  | str (s : String) : IsProper (.str s)
  | array {items : List Json} (h : ∀ item ∈ items, IsProper item) : IsProper (.array items)
  | object {members : List (String × Json)} (hnames : (Dictionary.names members).Nodup)
      (h : ∀ member ∈ members, IsProper member.2) : IsProper (.object members)

/-! ### Blanks -/

theorem skipBlanks_skipBlanks (cs : List Char) : skipBlanks (skipBlanks cs) = skipBlanks cs :=
  List.dropWhile_idempotent _ cs

/-- What skips blanks skips one. -/
theorem eq_of_skipBlanks {α : Type} {f : List Char → α} (hf : ∀ cs, f (skipBlanks cs) = f cs)
    (cs : List Char) : f (' ' :: cs) = f cs :=
  (hf (' ' :: cs)).symm.trans (hf cs)

theorem value?_skipBlanks (fuel : Nat) (cs : List Char) :
    value? fuel (skipBlanks cs) = value? fuel cs := by
  cases fuel with
  | zero => rfl
  | succ fuel => rw [value?, value?, skipBlanks_skipBlanks]

theorem items?_skipBlanks (fuel : Nat) (cs : List Char) :
    items? fuel (skipBlanks cs) = items? fuel cs := by
  cases fuel with
  | zero => rfl
  | succ fuel => rw [items?, items?, value?_skipBlanks]

theorem members?_skipBlanks (fuel : Nat) (before : List (String × Json)) (cs : List Char) :
    members? fuel before (skipBlanks cs) = members? fuel before cs := by
  cases fuel with
  | zero => rfl
  | succ fuel => rw [members?, members?, skipBlanks_skipBlanks]

/-! ### Values -/

/-- The text of the value is read, with what comes after it left over. -/
def ReadsBack (j : Json) : Prop :=
  ∀ fuel rest, 2 * j.chars.length ≤ fuel → NoNumberAhead rest →
    value? fuel (j.chars ++ rest) = some (j.readBack, rest)

/-- A word or a number starts with a character of its own. -/
theorem exists_cons_of_scalar? {cs : List Char} {r : Json × List Char}
    (h : scalar? cs = some r) :
    ∃ c more, cs = c :: more ∧ c ∉ [' ', '\t', '\n', '\r', '"', '[', '\x7b'] := by
  cases cs with
  | nil => cases h
  | cons c more =>
    refine ⟨c, more, rfl, fun hc => ?_⟩
    simp only [List.mem_cons, List.not_mem_nil, or_false] at hc
    rcases hc with rfl | rfl | rfl | rfl | rfl | rfl | rfl <;> cases h

/-- A word or a number is read as a value. -/
theorem value?_of_scalar? {cs : List Char} {r : Json × List Char} (h : scalar? cs = some r)
    (fuel : Nat) : value? (fuel + 1) cs = some r := by
  obtain ⟨c, more, rfl, hc⟩ := exists_cons_of_scalar? h
  simp only [List.mem_cons, List.not_mem_nil, or_false, not_or] at hc
  obtain ⟨hblank, htab, hfeed, hreturn, hquote, hbracket, hbrace⟩ := hc
  have hskip : skipBlanks (c :: more) = c :: more := by
    simp [skipBlanks, hblank, htab, hfeed, hreturn]
  rw [value?, hskip]
  -- the first character rules out a string, an array and an object
  split
  · next heq => exact absurd (List.cons.inj heq).1 hquote
  · next heq => exact absurd (List.cons.inj heq).1 hbracket
  · next heq => exact absurd (List.cons.inj heq).1 hbrace
  · exact h

theorem ReadsBack.of_scalar? {j : Json} (hne : j.chars ≠ [])
    (h : ∀ rest, NoNumberAhead rest → scalar? (j.chars ++ rest) = some (j.readBack, rest)) :
    ReadsBack j := by
  intro fuel rest hfuel hrest
  have hlength := List.length_pos_iff.2 hne
  obtain ⟨fuel, rfl⟩ : ∃ n, fuel = n + 1 := ⟨fuel - 1, by omega⟩
  exact value?_of_scalar? (h rest hrest) fuel

/-- What stands behind a value inside of another one. -/
theorem NoNumberAhead.of_mem {c : Char} (hc : c ∈ [',', ']', '\x7d']) (cs : List Char) :
    NoNumberAhead (c :: cs) := by
  have hall : ∀ c ∈ [',', ']', '\x7d'], Text.asciiDigit? c = none ∧ c ∉ ['.', 'e', 'E'] :=
    List.all_iff_forall_prop.1 (by decide)
  rintro b ⟨⟩
  exact hall c hc

/-- The end of a list is no value. -/
theorem value?_eq_none {cs more : List Char} (h : skipBlanks cs = ']' :: more) (fuel : Nat) :
    value? fuel cs = none := by
  cases fuel with
  | zero => rfl
  | succ fuel =>
    rw [value?, h]
    rfl

theorem items?_eq_none {cs more : List Char} (h : skipBlanks cs = ']' :: more) (fuel : Nat) :
    items? fuel cs = none := by
  cases fuel with
  | zero => rfl
  | succ fuel =>
    rw [items?, value?_eq_none h]
    rfl

/-- **Items** are read one after the other up to the end of the list. -/
theorem items?_itemChars {items : List Json} (hne : items ≠ []) (h : ∀ item ∈ items, ReadsBack item)
    {fuel : Nat} (hfuel : 2 * (itemChars items).length + 1 ≤ fuel) (rest : List Char) :
    items? fuel (itemChars items ++ ']' :: rest) = some (readBackItems items, rest) := by
  -- along the items, each with fuel enough for its own text
  induction items generalizing fuel with
  | nil => exact absurd rfl hne
  | cons item items ih =>
    obtain ⟨hitem, hitems⟩ := List.forall_mem_cons.1 h
    obtain ⟨fuel, rfl⟩ : ∃ n, fuel = n + 1 := ⟨fuel - 1, by omega⟩
    cases items with
    | nil =>
      have hvalue := hitem fuel (']' :: rest) (by rw [itemChars] at hfuel; omega)
        (.of_mem (by decide) rest)
      have hskip : skipBlanks (']' :: rest) = ']' :: rest := rfl
      rw [itemChars, items?, hvalue]
      simp only [hskip, Option.bind_eq_bind, Option.bind_some]
      rfl
    | cons next items =>
      -- behind the comma the others follow, whose text is shorter
      rw [itemChars_cons_cons, List.length_append, List.length_cons, List.length_cons] at hfuel
      have hlength : 2 * (itemChars (next :: items)).length + 1 ≤ fuel := by omega
      have hmore := ih (List.cons_ne_nil _ _) hitems hlength
      have hvalue := hitem fuel (',' :: ' ' :: (itemChars (next :: items) ++ ']' :: rest))
        (by omega) (.of_mem (by decide) _)
      have hskip : ∀ cs, skipBlanks (',' :: ' ' :: cs) = ',' :: ' ' :: cs := fun _ => rfl
      have hblank := eq_of_skipBlanks (items?_skipBlanks fuel)
      rw [itemChars_cons_cons, List.append_assoc, items?]
      simp only [List.cons_append, hvalue, hskip, hblank, hmore, Option.bind_eq_bind,
        Option.bind_some]
      rfl

/-- A member is read and set after those that are read already. Behind it are other members or the
end of the object. -/
theorem members?_member {name : String} {value : Json} (hvalue : ReadsBack value)
    {before : Dictionary Json} (hname : name ∉ Dictionary.names before) {fuel : Nat}
    (hfuel : 2 * value.chars.length ≤ fuel) {rest : List Char} (hrest : NoNumberAhead rest) :
    members? (fuel + 1) before (stringChars name ++ ':' :: ' ' :: value.chars ++ rest) =
      match skipBlanks rest with
      | ',' :: rest => members? fuel (before ++ [(name, value.readBack)]) rest
      | '\x7d' :: rest => some (before ++ [(name, value.readBack)], rest)
      | _ => none := by
  -- a name ends where its quote does, and nothing is skipped behind the colon but the blank
  have htext : ∀ cs, skipBlanks (stringChars name ++ cs) =
      '"' :: (name.toList.flatMap escapeChar ++ '"' :: cs) := fun cs => by
    simp [stringChars, skipBlanks]
  have hcolon : ∀ cs, skipBlanks (':' :: cs) = ':' :: cs := fun _ => rfl
  have hblank := eq_of_skipBlanks (value?_skipBlanks fuel)
  rw [List.append_assoc, members?]
  simp only [List.cons_append, htext, stringBody?_escaped, hcolon, hblank,
    hvalue fuel rest hfuel hrest, String.ofList_toList, Dictionary.put_of_not_mem hname,
    Option.bind_eq_bind, Option.bind_some]
  rfl

/-- **Members** are read one after the other up to the end of the object. -/
theorem members?_memberChars {members : List (String × Json)} (hne : members ≠ [])
    (h : ∀ member ∈ members, ReadsBack member.2) {before : Dictionary Json}
    (hnames : (Dictionary.names before ++ Dictionary.names members).Nodup)
    {fuel : Nat} (hfuel : 2 * (memberChars members).length + 1 ≤ fuel) (rest : List Char) :
    members? fuel before (memberChars members ++ '\x7d' :: rest) =
      some (before ++ readBackMembers members, rest) := by
  -- along the members, where those that are read already are in `before`
  induction members generalizing fuel before with
  | nil => exact absurd rfl hne
  | cons member members ih =>
    obtain ⟨name, value⟩ := member
    have hvalue : ReadsBack value := h _ List.mem_cons_self
    have hmembers : ∀ member ∈ members, ReadsBack member.2 := fun member hmember =>
      h member (List.mem_cons_of_mem _ hmember)
    obtain ⟨fuel, rfl⟩ : ∃ n, fuel = n + 1 := ⟨fuel - 1, by omega⟩
    -- the name is a new one, so the member goes to the end
    have hnew : name ∉ Dictionary.names before := fun hmem =>
      (List.nodup_append.1 hnames).2.2 name hmem name List.mem_cons_self rfl
    cases members with
    | nil =>
      rw [memberChars, List.length_append, List.length_cons, List.length_cons] at hfuel
      rw [memberChars, members?_member hvalue hnew (by omega) (.of_mem (by decide) rest)]
      rfl
    | cons next members =>
      rw [memberChars_cons_cons, List.length_append, List.length_append, List.length_cons,
        List.length_cons, List.length_cons, List.length_cons] at hfuel
      have hbefore : (Dictionary.names (before ++ [(name, value.readBack)]) ++
          Dictionary.names (next :: members)).Nodup := by
        rwa [Dictionary.names, List.map_append, List.append_assoc]
      have hlength : 2 * (memberChars (next :: members)).length + 1 ≤ fuel := by omega
      have hmore := ih (List.cons_ne_nil _ _) hmembers hbefore hlength
      have hbehind :
          NoNumberAhead (',' :: ' ' :: (memberChars (next :: members) ++ '\x7d' :: rest)) :=
        .of_mem (by decide) _
      rw [memberChars_cons_cons, List.append_assoc, List.cons_append, List.cons_append,
        members?_member hvalue hnew (by omega) hbehind]
      show members? fuel _ (' ' :: (memberChars (next :: members) ++ '\x7d' :: rest)) = _
      rw [eq_of_skipBlanks (members?_skipBlanks fuel _), hmore, List.append_assoc]
      rfl

/-! ### What can be written -/

/-- The integer stands in the value, at any depth. -/
inductive Holds (n : Int) : Json → Prop
  | int : Holds n (.int n)
  | item {items : List Json} {item : Json} (hmem : item ∈ items) (h : Holds n item) :
    Holds n (.array items)
  | member {members : List (String × Json)} {member : String × Json} (hmem : member ∈ members)
      (h : Holds n member.2) : Holds n (.object members)

/-- What can be written of a list are items that can be written. -/
theorem itemsWritable_iff {items : List Json} :
    itemsWritable items = true ↔ ∀ item ∈ items, item.isWritable = true := by
  induction items with
  | nil => exact iff_of_true rfl fun _ h => nomatch h
  | cons item items ih => rw [itemsWritable, Bool.and_eq_true, ih, List.forall_mem_cons]

/-- What can be written of an object are members whose values can be written. -/
theorem membersWritable_iff {members : List (String × Json)} :
    membersWritable members = true ↔ ∀ member ∈ members, member.2.isWritable = true := by
  induction members with
  | nil => exact iff_of_true rfl fun _ h => nomatch h
  | cons member members ih => rw [membersWritable, Bool.and_eq_true, ih, List.forall_mem_cons]

/-- A value can be written exactly if no integer in it has too many digits. -/
theorem isWritable_iff {j : Json} :
    j.isWritable = true ↔ ∀ n, Holds n j → n.natAbs < Nat.pow 10 maxDigits := by
  induction j using Json.induction with
  | null | bool | float | str => exact iff_of_true rfl fun n h => nomatch h
  | int k =>
    -- an integer holds none but itself
    rw [isWritable, decide_eq_true_iff, Text.length_digitsOf_le_iff (by decide)]
    exact ⟨fun h n hn => by cases hn; exact h, fun h => h k .int⟩
  | array items ih =>
    rw [isWritable, itemsWritable_iff]
    constructor
    · rintro h n (_ | ⟨hmem, hn⟩)
      exact (ih _ hmem).1 (h _ hmem) n hn
    · exact fun h item hmem => (ih item hmem).2 fun n hn => h n (.item hmem hn)
  | object members ih =>
    rw [isWritable, membersWritable_iff]
    constructor
    · rintro h n (_ | _ | ⟨hmem, hn⟩)
      exact (ih _ hmem).1 (h _ hmem) n hn
    · exact fun h member hmem => (ih member hmem).2 fun n hn => h n (.member hmem hn)

/-! ### Values -/

/-- **Values** are read as they were written. -/
theorem IsProper.readsBack {j : Json} (h : j.IsProper) (hwritable : j.isWritable = true) :
    ReadsBack j := by
  -- along the value, what is inside it being read back
  induction h with
  | null => exact .of_scalar? (by decide) fun _ _ => rfl
  | bool b =>
    cases b
    · exact .of_scalar? (by decide) fun _ _ => rfl
    · exact .of_scalar? (by decide) fun _ _ => rfl
  | int n =>
    have hread : ∀ rest, NoNumberAhead rest →
        scalar? ((Json.int n).chars ++ rest) = some (.int n, rest) := fun rest hrest => by
      rw [chars]
      exact scalar?_decimalInt (of_decide_eq_true hwritable) hrest
    refine .of_scalar? (fun hnil => ?_) hread
    have hnone := hread [] .nil
    rw [hnil] at hnone
    cases hnone
  | float x =>
    obtain ⟨y, hy⟩ := exists_scalar?_toText x
    have hplain := hy [] .nil
    rw [List.append_nil] at hplain
    have hback : (Json.float x).readBack = .float y := by
      rw [readBack, readBackFloat, hplain]
    refine .of_scalar? (fun hnil => ?_) fun rest hrest => ?_
    · rw [chars] at hnil
      rw [hnil] at hplain
      cases hplain
    · rw [hback, chars, hy rest hrest]
  | str s =>
    intro fuel rest hfuel _
    rw [chars] at hfuel ⊢
    have hlength : 0 < (stringChars s).length := Nat.succ_pos _
    obtain ⟨fuel, rfl⟩ : ∃ n, fuel = n + 1 := ⟨fuel - 1, by omega⟩
    have htext : skipBlanks (stringChars s ++ rest) =
        '"' :: (s.toList.flatMap escapeChar ++ '"' :: rest) := by
      simp [stringChars, skipBlanks]
    rw [value?, htext]
    simp only [stringBody?_escaped, Option.map_some, String.ofList_toList]
    rfl
  | @array items _ ih =>
    intro fuel rest hfuel _
    rw [isWritable, itemsWritable_iff] at hwritable
    rw [chars, List.length_append, List.length_cons, List.length_singleton] at hfuel
    obtain ⟨fuel, rfl⟩ : ∃ n, fuel = n + 1 := ⟨fuel - 1, by omega⟩
    have htext : skipBlanks ((Json.array items).chars ++ rest) =
        '[' :: (itemChars items ++ ']' :: rest) := by
      simp [chars, skipBlanks]
    rw [value?, htext]
    by_cases hne : items = []
    · subst hne
      rfl
    · have hlength : 2 * (itemChars items).length + 1 ≤ fuel := by omega
      have hitems := items?_itemChars hne (fun item hitem => ih item hitem (hwritable item hitem))
        hlength rest
      simp only
      split
      · next heq =>
        -- the end of the list is no item
        rw [items?_eq_none heq] at hitems
        cases hitems
      · rw [items?_skipBlanks, hitems]
        rfl
  | @object members hnames _ ih =>
    intro fuel rest hfuel _
    rw [isWritable, membersWritable_iff] at hwritable
    rw [chars, List.length_append, List.length_cons, List.length_singleton] at hfuel
    obtain ⟨fuel, rfl⟩ : ∃ n, fuel = n + 1 := ⟨fuel - 1, by omega⟩
    have htext : skipBlanks ((Json.object members).chars ++ rest) =
        '\x7b' :: (memberChars members ++ '\x7d' :: rest) := by
      simp [chars, skipBlanks]
    rw [value?, htext]
    by_cases hne : members = []
    · subst hne
      rfl
    · have hbefore : (Dictionary.names ([] : Dictionary Json) ++ Dictionary.names members).Nodup :=
        hnames
      have hlength : 2 * (memberChars members).length + 1 ≤ fuel := by omega
      have hmembers := members?_memberChars hne
        (fun member hmember => ih member hmember (hwritable member hmember)) hbefore hlength rest
      simp only
      split
      · next heq =>
        -- the end of the object is no member either
        rw [← members?_skipBlanks, heq] at hmembers
        cases fuel <;> cases hmembers
      · rw [members?_skipBlanks, hmembers]
        rfl

/-- **Reading back.** What is written of a value is read as that value. -/
theorem parse?_render {j : Json} (h : j.IsProper) (hwritable : j.isWritable = true) :
    parse? j.render = some j.readBack := by
  have hread := h.readsBack hwritable (2 * j.chars.length + 2) [] (by omega) .nil
  rw [List.append_nil] at hread
  unfold parse? parseChars? render
  rw [String.toList_ofList, hread]
  rfl

end Depot.Json
