import Depot.Xml.Refusal
import Depot.Xml.Token
/-!
# The document type declaration

Before its root element a document may declare its type, with declarations of elements, attributes,
notations and entities in brackets. They are read because they decide three things about the rest:
an entity that is declared refuses the document; attributes may have default values, which matter
where they declare namespaces; and once the document refers to declarations kept elsewhere, an
entity that is not known may have been declared there.

Declarations that follow a reference to declarations kept elsewhere are checked for their form, but
are not in force unless the document says that it stands alone.
-/

namespace Depot.Xml

/-- The declaration of an attribute of an element, each by its name as written: is its value plain
text, and what is its default. -/
structure AttributeRule where
  element : String
  name : QName
  plain : Bool
  default : Option (List Char)
  deriving DecidableEq, Repr

/-- What a document type decides about the rest of the document. -/
structure Doctype where
  /-- The letters of the names of the document. -/
  letters : Letters
  /-- Does the document stand alone by its own declaration? -/
  standalone : Bool
  /-- Does it refer to declarations kept elsewhere? -/
  external : Bool := false
  /-- Are declarations still in force? -/
  inForce : Bool := true
  rules : List AttributeRule := []
  deriving DecidableEq, Repr

/-- What decides how the markup of the rest is read. -/
def Doctype.dialect (d : Doctype) : Dialect := ⟨d.letters, d.external && !d.standalone⟩

/-- The first declaration of an attribute counts. -/
def Doctype.addRule (d : Doctype) (rule : AttributeRule) : Doctype :=
  if d.rules.any fun r => r.element == rule.element && r.name == rule.name then d
  else { d with rules := d.rules ++ [rule] }

/-- Reading at the front of a text, which goes on with the rest. The letters of names are known. -/
abbrev Scan := ReaderT Letters (StateT (List Char) (Except Fault))

namespace Scan

/-- The document is not well formed. -/
def fail {α : Type} : Scan α := throw .malformed

/-- Goes on only where a condition holds. -/
def ensure (condition : Bool) : Scan Unit := if condition then pure () else fail

/-- Takes what a reader finds at the front of the text. -/
def take {α : Type} (read? : List Char → Option (α × List Char)) : Scan α := fun _ cs =>
  match read? cs with
  | some r => .ok r
  | none => .error .malformed

/-- How much is left to read; no loop takes more steps. -/
def fuel : Scan Nat := do return (← get).length + 1

end Scan

/-! ### Marks -/

/-- A mark in a declaration. -/
inductive Mark where
  | name (s : String)
  /-- A name with a scope. -/
  | qualified (s : String)
  /-- A word that is no name. -/
  | word
  /-- A name with a sign of repetition. -/
  | repeated
  /-- A keyword after a number sign. -/
  | keyword (s : String)
  | literal (cs : List Char)
  | percent
  /-- A reference to a parameter entity. -/
  | parameter
  | comma
  | bar
  | openBracket
  | closeBracket
  | openParen
  /-- A closing parenthesis, and whether a sign of repetition follows. -/
  | closeParen (repetition : Option Char)
  | close
  deriving DecidableEq, Repr

namespace Mark

/-- Does the text go on with white space or one of the given characters? -/
def endsAt (stops : List Char) : List Char → Bool
  | c :: _ => isSpace c || stops.contains c
  | [] => false

/-- What a word of name characters and colons is. -/
def ofWord (letters : Letters) (text : List Char) : Mark :=
  match text with
  | [] => word
  | c :: _ =>
    if isNameStart letters c then
      match text.dropWhile (isNameChar letters) with
      | [] => name (String.ofList text)
      | ':' :: d :: more =>
        if (d :: more).all (isNameChar letters) then qualified (String.ofList text) else word
      | _ => word
    else word

/-- Reads a word at the front of a text: a name, with a scope or with a sign of repetition, or
another word. -/
def word? (letters : Letters) (cs : List Char) : Option (Mark × List Char) :=
  let isPart (c : Char) : Bool := isNameChar letters c || c = ':'
  let text := cs.takeWhile isPart
  let rest := cs.dropWhile isPart
  if text.isEmpty then none
  else if endsAt ['>', ')', ',', '|', '[', '%'] rest then some (ofWord letters text, rest)
  else match rest with
    | c :: rest =>
      if (c = '+' ∨ c = '*' ∨ c = '?') ∧ ofWord letters text ≠ word then some (repeated, rest)
      else none
    | [] => none

/-- Reads the next mark of a declaration, after white space. -/
def next? (letters : Letters) (cs : List Char) : Option (Mark × List Char) :=
  match skipSpace cs with
  | [] => none
  | c :: rest =>
    if c = '"' ∨ c = '\'' then
      let body := rest.takeWhile (· != c)
      let rest := (rest.dropWhile (· != c)).drop 1
      if body.all isLegal && endsAt ['>', '%', '['] rest then some (literal body, rest) else none
    else if c = '%' then
      if endsAt ['%'] rest then some (percent, rest)
      else match simpleName? letters rest with
        | some (_, ';' :: rest) => some (parameter, rest)
        | _ => none
    else if c = ',' then some (comma, rest)
    else if c = '|' then some (bar, rest)
    else if c = '[' then some (openBracket, rest)
    else if c = ']' then if "]>".toList.isPrefixOf rest then none else some (closeBracket, rest)
    else if c = '(' then some (openParen, rest)
    else if c = ')' then
      -- without a quantifier one of these marks has to follow
      if endsAt ['>', ',', '|', ')'] rest then some (closeParen none, rest)
      else match rest with
        | r :: rest =>
          if r = '*' ∨ r = '?' ∨ r = '+' then some (closeParen (some r), rest) else none
        | [] => none
    else if c = '>' then some (close, rest)
    else if c = '#' then
      match simpleName? letters rest with
      | some (text, rest) =>
        if endsAt [')', '>', '%', '|'] rest then some (keyword (String.ofList text), rest) else none
      | none => none
    else word? letters (c :: rest)

/-- Reads the next mark. -/
def read : Scan Mark := do Scan.take (next? (← readThe Letters))

/-- Reads a mark that must be the end of the declaration. -/
def readClose : Scan Unit := do Scan.ensure ((← read) == close)

/-- Reads a mark that must be a literal. -/
def readLiteral : Scan (List Char) := do
  match ← read with
  | literal body => return body
  | _ => Scan.fail

/-- May the character stand in a public identifier? -/
def isPublicChar (c : Char) : Bool :=
  c.isAlphanum || " \r\n-'()+,./:=?;!*#@$_%".toList.contains c

/-- Reads a mark that must be a public identifier. -/
def readPublic : Scan Unit := do Scan.ensure ((← readLiteral).all isPublicChar)

/-- The name that a mark is, as written. -/
def name? : Mark → Option String
  | name s => some s
  | qualified s => some s
  | _ => none

/-- Reads a mark that must be a name, with a scope or without. -/
def readName : Scan String := do
  match (← read).name? with
  | some s => return s
  | none => Scan.fail

end Mark

/-! ### Declarations -/

namespace Doctype

/-- Is a text in the form of an entity's value: no parameter entities, and every reference in form?
`name` holds the characters of a reference so far, backwards. -/
def isEntityValue (letters : Letters) : (name : Option (List Char)) → List Char → Bool
  | none, [] => true
  | some _, [] => false
  | none, c :: cs => c != '%' && isEntityValue letters (if c = '&' then some [] else none) cs
  | some name, c :: cs =>
    if c = ';' then
      (Reference.ofChars? letters name.reverse).isSome && isEntityValue letters none cs
    else isEntityValue letters (some (c :: name)) cs

/-- Reads the rest of an external identifier after its keyword. -/
def readExternal (keyword : String) : Scan Unit := do
  if keyword = "SYSTEM" then
    let _ ← Mark.readLiteral
  else if keyword = "PUBLIC" then
    Mark.readPublic
    let _ ← Mark.readLiteral
  else Scan.fail

/-- An entity is declared, which refuses the document where the declaration is in force. -/
def declareEntity (inForce : Bool) : Scan Unit := if inForce then throw .entityDeclared else pure ()

/-- Reads the rest of an entity declaration after the entity's name. The entity is declared with its
value, with its notation, or at the end of the declaration, and nothing after that is looked at. -/
def readEntityValue (d : Doctype) (declares parameter : Bool) : Scan Unit := do
  match ← Mark.read with
  | .literal value =>
    declareEntity (d.inForce && declares)
    Scan.ensure (!d.inForce || isEntityValue d.letters none value)
    Mark.readClose
  | .name keyword =>
    readExternal keyword
    match ← Mark.read with
    | .close => declareEntity (d.inForce && declares)
    | .name "NDATA" =>
      -- only an entity that is no parameter may be unparsed
      Scan.ensure (!parameter)
      match ← Mark.read with
      | .name _ =>
        declareEntity (d.inForce && declares)
        Mark.readClose
      | _ => Scan.fail
    | _ => Scan.fail
  | _ => Scan.fail

/-- Reads an entity declaration. An entity that needs no declaration may be declared again. -/
def readEntity (d : Doctype) : Scan Unit := do
  match ← Mark.read with
  | .percent =>
    match ← Mark.read with
    | .name _ => readEntityValue d true true
    | _ => Scan.fail
  | .name name => readEntityValue d (Reference.predefined? name).isNone false
  | _ => Scan.fail

/-- Reads a notation declaration. -/
def readNotation : Scan Unit := do
  match ← Mark.read with
  | .name _ =>
    match ← Mark.read with
    | .name "SYSTEM" =>
      let _ ← Mark.readLiteral
      Mark.readClose
    | .name "PUBLIC" =>
      Mark.readPublic
      match ← Mark.read with
      | .close => pure ()
      | .literal _ => Mark.readClose
      | _ => Scan.fail
    | _ => Scan.fail
  | _ => Scan.fail

/-- May the mark be a choice among the values of an attribute? Notations must be named. -/
def isChoice (notations : Bool) : Mark → Bool
  | .name _ => true
  | .qualified _ => !notations
  | .word => !notations
  | _ => false

/-- Reads choices parted by bars, up to the closing parenthesis. -/
def readChoices (notations : Bool) : (fuel : Nat) → Scan Unit
  | 0 => Scan.fail
  | fuel + 1 => do
    Scan.ensure (isChoice notations (← Mark.read))
    match ← Mark.read with
    | .bar => readChoices notations fuel
    | .closeParen none => pure ()
    | _ => Scan.fail

/-- The types of attributes that are named by one word. -/
def typeNames : List String :=
  ["CDATA", "ID", "IDREF", "IDREFS", "ENTITY", "ENTITIES", "NMTOKEN", "NMTOKENS"]

/-- Reads the type of an attribute: is its value plain text? -/
def readType : Scan Bool := do
  match ← Mark.read with
  | .openParen =>
    readChoices false (← Scan.fuel)
    return false
  | .name "NOTATION" =>
    Scan.ensure ((← Mark.read) == .openParen)
    readChoices true (← Scan.fuel)
    return false
  | .name type =>
    Scan.ensure (typeNames.contains type)
    return type == "CDATA"
  | _ => Scan.fail

/-- Adds the rule of an attribute with a default value, whose references must be in order. -/
def addDefault (d : Doctype) (element : String) (name : QName) (plain : Bool) (body : List Char) :
    Scan Doctype :=
  if d.inForce then
    match Tag.resolve? d.dialect none body with
    | some value => return d.addRule ⟨element, name, plain, some value⟩
    | none => Scan.fail
  else return d

/-- Reads the default of an attribute and adds the attribute's rule. -/
def readDefault (d : Doctype) (element : String) (name : QName) (plain : Bool) : Scan Doctype := do
  match ← Mark.read with
  | .literal body => addDefault d element name plain body
  | .keyword "FIXED" => addDefault d element name plain (← Mark.readLiteral)
  | .keyword keyword =>
    Scan.ensure (keyword == "IMPLIED" || keyword == "REQUIRED")
    return if d.inForce then d.addRule ⟨element, name, plain, none⟩ else d
  | _ => Scan.fail

/-- A name as written, cut at its colon. -/
def cutName (s : String) : QName :=
  match s.toList.dropWhile (· != ':') with
  | _ :: base => ⟨some (String.ofList (s.toList.takeWhile (· != ':'))), String.ofList base⟩
  | [] => ⟨none, s⟩

/-- Reads the attributes of an attribute list declaration. -/
def readAttributes (element : String) : (fuel : Nat) → Doctype → Scan Doctype
  | 0, _ => Scan.fail
  | fuel + 1, d => do
    let mark ← Mark.read
    if mark = .close then return d
    match mark.name? with
    | some name =>
      let plain ← readType
      let d ← readDefault d element (cutName name) plain
      readAttributes element fuel d
    | none => Scan.fail

/-- Reads an attribute list declaration. -/
def readAttributeList (d : Doctype) : Scan Doctype := do
  let element ← Mark.readName
  readAttributes element (← Scan.fuel) d

/-- Reads the choices of mixed content after the first bar. -/
def readMixed : (fuel : Nat) → Scan Unit
  | 0 => Scan.fail
  | fuel + 1 => do
    let _ ← Mark.readName
    match ← Mark.read with
    | .bar => readMixed fuel
    | .closeParen (some '*') => pure ()
    | _ => Scan.fail

mutual

/-- Reads a member of nested groups, and what follows it. `signs` holds, for each open group, the
sign that parts its members, once it is known. -/
def readMember : (fuel : Nat) → (signs : List (Option Mark)) → Scan Unit
  | 0, _ => Scan.fail
  | fuel + 1, signs => do
    match ← Mark.read with
    | .openParen => readMember fuel (none :: signs)
    | .repeated => readSign fuel signs
    | mark =>
      Scan.ensure mark.name?.isSome
      readSign fuel signs

/-- Reads the sign after a member of nested groups, and what follows it. -/
def readSign : (fuel : Nat) → (signs : List (Option Mark)) → Scan Unit
  | 0, _ => Scan.fail
  | _ + 1, [] => Scan.fail
  | fuel + 1, sign :: outer => do
    match ← Mark.read with
    | .closeParen _ => if outer.isEmpty then pure () else readSign fuel outer
    | mark =>
      Scan.ensure ((mark == .comma || mark == .bar) && (sign.isNone || sign == some mark))
      readMember fuel (some mark :: outer)

end

/-- Reads an element declaration. -/
def readElement : Scan Unit := do
  let _ ← Mark.readName
  match ← Mark.read with
  | .name keyword =>
    Scan.ensure (keyword == "EMPTY" || keyword == "ANY")
    Mark.readClose
  | .openParen =>
    -- what stands here is read once more if it does not begin with text
    let inside ← get
    match ← Mark.read with
    | .keyword "PCDATA" =>
      match ← Mark.read with
      | .closeParen none => Mark.readClose
      | .closeParen (some '*') => Mark.readClose
      | .bar =>
        readMixed (← Scan.fuel)
        Mark.readClose
      | _ => Scan.fail
    | _ =>
      set inside
      readMember (2 * (← Scan.fuel)) [none]
      Mark.readClose
  | _ => Scan.fail

/-- Skips a comment or an instruction. -/
def skipMarkup (letters : Letters) (state : LexState) :
    List Char → Except Fault (Unit × List Char)
  | [] => .error .malformed
  | c :: cs =>
    match LexState.step { letters } state c with
    | some (next, _) => if next.isText then .ok ((), cs) else skipMarkup letters next cs
    | none => .error .malformed

/-- Skips the comment or instruction at the front of the text. -/
def skipComment : Scan Unit := fun letters => skipMarkup letters (.text 0)

/-- Takes a text at the front, if it is there. -/
def takeText? (text : String) (cs : List Char) : Option (Unit × List Char) :=
  if text.toList.isPrefixOf cs then some ((), cs.drop text.length) else none

/-- Takes a keyword at the front, if it is there and white space follows. -/
def takeKeyword? (keyword : String) (cs : List Char) : Option (Unit × List Char) :=
  match takeText? keyword cs with
  | some (_, rest) => if Mark.endsAt [] rest then some ((), rest) else none
  | none => none

/-- Reads the declarations in brackets, up to the end of the document type. -/
def readSubset : (fuel : Nat) → Doctype → Scan Doctype
  | 0, _ => Scan.fail
  | fuel + 1, d => do
    modify skipSpace
    let cs ← get
    if (takeText? "<?" cs).isSome || (takeText? "<!--" cs).isSome then
      skipComment
      readSubset fuel d
    else if (takeKeyword? "<!ENTITY" cs).isSome then
      Scan.take (takeKeyword? "<!ENTITY")
      readEntity d
      readSubset fuel d
    else if (takeKeyword? "<!ATTLIST" cs).isSome then
      Scan.take (takeKeyword? "<!ATTLIST")
      readSubset fuel (← readAttributeList d)
    else if (takeKeyword? "<!ELEMENT" cs).isSome then
      Scan.take (takeKeyword? "<!ELEMENT")
      readElement
      readSubset fuel d
    else if (takeKeyword? "<!NOTATION" cs).isSome then
      Scan.take (takeKeyword? "<!NOTATION")
      readNotation
      readSubset fuel d
    else
      match ← Mark.read with
      -- what a parameter entity holds is not read, and may change what follows
      | .parameter => readSubset fuel { d with external := true, inForce := d.standalone }
      | .closeBracket =>
        Mark.readClose
        return d
      | _ => Scan.fail

/-- Reads a document type declaration after its keyword. -/
def read (standalone : Bool) : Scan Doctype := do
  let d : Doctype := { letters := ← readThe Letters, standalone }
  let _ ← Mark.readName
  match ← Mark.read with
  | .openBracket => readSubset (← Scan.fuel) d
  | .close => return d
  | .name keyword =>
    readExternal keyword
    let d := { d with external := true }
    match ← Mark.read with
    | .openBracket => readSubset (← Scan.fuel) d
    | .close => return d
    | _ => Scan.fail
  | _ => Scan.fail

end Doctype

end Depot.Xml
