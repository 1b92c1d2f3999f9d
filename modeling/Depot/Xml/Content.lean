import Depot.Xml.Name
/-!
# Elements and their content

The content of an element is a sequence of characters and elements. It is kept in one inductive
type, so that a function on trees is a plain recursion: along the sequence, and into each element.

The views name what a reader of records asks for: the child elements, the characters before the
first of them, the characters of this level, and all characters at any depth.
-/

namespace Depot.Xml

/-- Mixed content: characters and elements in document order. -/
inductive Content where
  | nil
  | char (c : Char) (rest : Content)
  | element (name : Name) (content rest : Content)
  deriving DecidableEq, Repr, Inhabited

/-- An element: its name and its content. -/
structure Element where
  name : Name
  content : Content
  deriving DecidableEq, Repr, Inhabited

/-- An element together with the characters that follow it up to the next one. -/
structure Placed where
  element : Element
  tail : List Char
  deriving DecidableEq, Repr

namespace Content

/-- One sequence after the other. -/
def append : Content → Content → Content
  | nil, d => d
  | char c rest, d => char c (append rest d)
  | element n k rest, d => element n k (append rest d)

/-- The sequence backwards, in front of another; what lies inside elements stays as it is. -/
def reverseOnto : Content → Content → Content
  | nil, acc => acc
  | char c rest, acc => reverseOnto rest (char c acc)
  | element n k rest, acc => reverseOnto rest (element n k acc)

/-- The sequence backwards. -/
def reverse (k : Content) : Content := reverseOnto k nil

/-- Characters as content. -/
def ofChars : List Char → Content
  | [] => nil
  | c :: cs => char c (ofChars cs)

/-- The child elements. -/
def children : Content → List Element
  | nil => []
  | char _ rest => children rest
  | element n k rest => ⟨n, k⟩ :: children rest

/-- The characters before the first child element. -/
def leadingChars : Content → List Char
  | char c rest => c :: leadingChars rest
  | _ => []

/-- The characters of this level, before, between and after the child elements. -/
def ownChars : Content → List Char
  | nil => []
  | char c rest => c :: ownChars rest
  | element _ _ rest => ownChars rest

/-- The characters at any depth. -/
def allChars : Content → List Char
  | nil => []
  | char c rest => c :: allChars rest
  | element _ k rest => allChars k ++ allChars rest

/-- The child elements, each with the characters that follow it. -/
def placed : Content → List Placed
  | nil => []
  | char _ rest => placed rest
  | element n k rest => ⟨⟨n, k⟩, leadingChars rest⟩ :: placed rest

/-- The elements at any depth, each before those inside it. -/
def descendants : Content → List Element
  | nil => []
  | char _ rest => descendants rest
  | element n k rest => ⟨n, k⟩ :: (descendants k ++ descendants rest)

attribute [local simp] append children ownChars allChars descendants

@[simp] theorem append_nil (k : Content) : k.append nil = k := by
  induction k <;> simp_all

@[simp] theorem append_assoc (a b c : Content) : (a.append b).append c = a.append (b.append c) := by
  induction a <;> simp_all

@[simp] theorem children_append (a b : Content) :
    (a.append b).children = a.children ++ b.children := by
  induction a <;> simp_all

@[simp] theorem ownChars_append (a b : Content) :
    (a.append b).ownChars = a.ownChars ++ b.ownChars := by
  induction a <;> simp_all

@[simp] theorem allChars_append (a b : Content) :
    (a.append b).allChars = a.allChars ++ b.allChars := by
  induction a <;> simp_all

@[simp] theorem descendants_append (a b : Content) :
    (a.append b).descendants = a.descendants ++ b.descendants := by
  induction a <;> simp_all

/-- Reversing in front of a sequence is reversing, then the sequence. -/
theorem reverseOnto_eq (k acc : Content) : k.reverseOnto acc = k.reverse.append acc := by
  have h : ∀ k acc more : Content,
      k.reverseOnto (acc.append more) = (k.reverseOnto acc).append more := by
    intro k
    induction k with
    | nil => intros; rfl
    | char c rest ih => intro acc more; exact ih (char c acc) more
    | element n j rest _ ih => intro acc more; exact ih (element n j acc) more
  simpa [reverse] using h k nil acc

end Content

namespace Element

/-- The local part of the element's name. -/
def tag (e : Element) : String := e.name.base

/-- The child elements. -/
def children (e : Element) : List Element := e.content.children

/-- The children of a given name. -/
def childrenNamed (e : Element) (tag : String) : List Element :=
  e.children.filter fun child => child.tag == tag

/-- The first child of a given name. -/
def child? (e : Element) (tag : String) : Option Element :=
  e.children.find? fun child => child.tag == tag

/-- The text before the first child element. -/
def leadingText (e : Element) : String := String.ofList e.content.leadingChars

/-- The text of the element's own level. -/
def ownText (e : Element) : String := String.ofList e.content.ownChars

/-- The text at any depth. -/
def allText (e : Element) : String := String.ofList e.content.allChars

/-- The element and all elements inside it, in document order. -/
def selfAndDescendants (e : Element) : List Element := e :: e.content.descendants

end Element

end Depot.Xml
