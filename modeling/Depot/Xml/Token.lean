import Depot.Text.Digit
import Depot.Xml.Name
/-!
# Tokens of element content

The text of an element, from its start tag on, is read by a machine that takes one character at a
time. It emits a token for each character of text, each character reference or section of quoted
text, and each tag; comments and processing instructions leave none. Because the machine goes on
from where a text leaves it, the tokens of two texts read one after the other are those of the first
followed by those that the second yields from the state reached (`run_append`).

A lexeme such as a tag is collected first and then read as a whole. No lexeme but quoted text, a
comment or an instruction may hold a `<`.
-/

namespace Depot.Xml

/-- What of a document decides how its markup is read. -/
structure Dialect where
  /-- The letters of its names. -/
  letters : Letters := .common
  /-- May an entity that is not known have been declared elsewhere? -/
  lenient : Bool := false
  deriving DecidableEq, Repr

/-- What a reference denotes: a character, or an entity by its name. -/
inductive Reference where
  | char (c : Char)
  | entity (name : String)
  deriving DecidableEq, Repr

namespace Reference

/-- A code point as a character, unless it is past the last, half of a pair, or may not stand in a
document. -/
def char? (n : Nat) : Option Char :=
  if n < 0x110000 ∧ ¬ (0xD800 ≤ n ∧ n ≤ 0xDFFF) then
    let c := Char.ofNat n
    if isLegal c then some c else none
  else none

/-- The number that digits of a base denote; some digit must be there. -/
def number? (base : Nat) (value? : Char → Option Nat) (cs : List Char) : Option Nat :=
  if cs.isEmpty then none
  else cs.foldl (fun n? c => do return (← n?) * base + (← value? c)) (some 0)

/-- Reads what stands between `&` and `;`. -/
def ofChars? (letters : Letters) (cs : List Char) : Option Reference :=
  match cs with
  | '#' :: 'x' :: digits => do return .char (← char? (← number? 16 Text.hexDigit? digits))
  | '#' :: digits => do return .char (← char? (← number? 10 Text.asciiDigit? digits))
  | _ => if isSimpleName letters cs then some (.entity (String.ofList cs)) else none

/-- The character of an entity that needs no declaration. -/
def predefined? (name : String) : Option Char :=
  match name with
  | "lt" => some '<'
  | "gt" => some '>'
  | "amp" => some '&'
  | "quot" => some '"'
  | "apos" => some '\''
  | _ => none

/-- The character that a reference denotes in text; an entity must be a predefined one. -/
def resolve? : Reference → Option Char
  | .char c => some c
  | .entity name => predefined? name

end Reference

/-- An attribute: its name as written, and its value with references and white space resolved. -/
structure Attribute where
  name : QName
  value : List Char
  deriving DecidableEq, Repr

/-- A piece of an element's text. -/
inductive Token where
  /-- A character that stands for itself. -/
  | text (c : Char)
  /-- The characters of a reference or of a section of quoted text. -/
  | quoted (cs : List Char)
  /-- A start tag. -/
  | startTag (name : QName) (attributes : List Attribute)
  /-- An end tag, its name as written. -/
  | endTag (name : List Char)
  deriving DecidableEq, Repr

/-! ### Tags -/

namespace Tag

/-- Resolves an attribute value, `name` being the characters of a reference so far, backwards. White
space of any kind becomes a blank. An entity that is not known here, but may be declared elsewhere,
is left out. -/
def resolve? (d : Dialect) : (name : Option (List Char)) → List Char → Option (List Char)
  | none, [] => some []
  | some _, [] => none
  | none, c :: cs =>
    if c = '<' then none
    else if c = '&' then resolve? d (some []) cs
    -- any blank is read as a space
    else (resolve? d none cs).map ((if isSpace c then ' ' else c) :: ·)
  | some name, c :: cs =>
    if c = ';' then
      match Reference.ofChars? d.letters name.reverse with
      | none => none
      | some r =>
        match r.resolve? with
        | some value => (resolve? d none cs).map (value :: ·)
        -- an entity that may be declared elsewhere stands for nothing
        | none => if d.lenient then resolve? d none cs else none
    else resolve? d (some (c :: name)) cs

/-- Reads one attribute. -/
def attribute? (d : Dialect) (cs : List Char) : Option (Attribute × List Char) := do
  let (name, rest) ← qname? d.letters cs
  match skipSpace rest with
  | '=' :: rest =>
    match skipSpace rest with
    | quote :: rest =>
      if quote = '"' ∨ quote = '\'' then
        match rest.dropWhile (· != quote) with
        | _ :: after =>
          let value ← resolve? d none (rest.takeWhile (· != quote))
          return (⟨name, value⟩, after)
        | [] => none
      else none
    | [] => none
  | _ => none

/-- Reads what follows the name in a start tag, up to the closing `>`: the attributes, each after
white space, and whether a slash makes the element an empty one. -/
def attributes? (d : Dialect) : (fuel : Nat) → List Char → Option (List Attribute × Bool)
  | 0, _ => none
  | _ + 1, [] => some ([], false)
  | _ + 1, ['/'] => some ([], true)
  | fuel + 1, c :: cs =>
    -- there is a blank in front of each attribute
    if isSpace c then
      match skipSpace cs with
      | [] => some ([], false)
      | ['/'] => some ([], true)
      | cs => do
        let (a, rest) ← attribute? d cs
        let (as, empty) ← attributes? d fuel rest
        return (a :: as, empty)
    else none

/-- Reads a start tag, between its angle brackets: the tokens that it stands for. -/
def start? (d : Dialect) (cs : List Char) : Option (List Token) := do
  let (name, rest) ← qname? d.letters cs
  let (attributes, empty) ← attributes? d (rest.length + 1) rest
  let tag := Token.startTag name attributes
  return if empty then [tag, .endTag (cs.take (cs.length - rest.length))] else [tag]

/-- Reads an end tag, between `</` and `>`. -/
def end? (letters : Letters) (cs : List Char) : Option Token :=
  let name := cs.takeWhile fun c => isNameChar letters c || c = ':'
  let rest := cs.dropWhile fun c => isNameChar letters c || c = ':'
  match name with
  | c :: _ => if isNameStart letters c && rest.all isSpace then some (.endTag name) else none
  | [] => none

end Tag

/-! ### Instructions -/

namespace Instruction

/-- Is it the target that is kept for declarations, in any case of its letters? -/
def isReservedTarget (target : List Char) : Bool := target.map Char.toLower == ['x', 'm', 'l']

/-- Is it the body of a processing instruction: a target, and white space before anything more? -/
def isWellFormed (letters : Letters) (body : List Char) : Bool :=
  match simpleName? letters body with
  | none => false
  | some (target, rest) =>
    !isReservedTarget target && (match rest with
      | [] => true
      | c :: _ => isSpace c)

end Instruction

/-! ### The machine -/

/-- Where the machine stands. Characters collected are kept backwards. -/
inductive LexState where
  /-- In text, after so many closing brackets, at most two of which count. -/
  | text (brackets : Nat)
  /-- In a reference. -/
  | reference (read : List Char)
  /-- After `<`. -/
  | markup
  /-- In a start tag, and in which quotes. -/
  | startTag (quote : Option Char) (read : List Char)
  /-- In an end tag. -/
  | endTag (read : List Char)
  /-- After `<!`, until it shows what begins. -/
  | declaration (read : List Char)
  /-- In a comment, after so many hyphens, at most two of which count. -/
  | comment (hyphens : Nat)
  /-- In a processing instruction, and whether a question mark was read last. -/
  | instruction (read : List Char) (question : Bool)
  /-- In a section of quoted text, after so many closing brackets, at most two of which count. -/
  | quoted (read : List Char) (brackets : Nat)
  deriving DecidableEq, Repr

namespace LexState

/-- A tag is complete. -/
def closeStartTag (d : Dialect) (read : List Char) : Option (LexState × List Token) :=
  (Tag.start? d read.reverse).map fun tokens => (.text 0, tokens)

/-- Goes on after `<!`. -/
def declare (read : List Char) : Option LexState :=
  if read = ['-', '-'] then some (.comment 0)
  else if read.reverse = "[CDATA[".toList then some (.quoted [] 0)
  else if read.reverse.isPrefixOf "--".toList || read.reverse.isPrefixOf "[CDATA[".toList then
    some (.declaration read)
  else none

/-- Takes one character. None is a fault: the text is not well formed. -/
def step (d : Dialect) (state : LexState) (c : Char) : Option (LexState × List Token) :=
  if !isLegal c then none
  else match state with
    | .text brackets =>
      if c = '<' then some (.markup, [])
      else if c = '&' then some (.reference [], [])
      else if c = ']' then some (.text (min (brackets + 1) 2), [.text c])
      -- the mark that ends a section is no text
      else if c = '>' ∧ brackets = 2 then none
      else some (.text 0, [.text c])
    | .reference read =>
      if c = ';' then do
        let r ← (← Reference.ofChars? d.letters read.reverse).resolve?
        return (.text 0, [.quoted [r]])
      else if c = '<' then none
      else some (.reference (c :: read), [])
    | .markup =>
      if c = '/' then some (.endTag [], [])
      else if c = '!' then some (.declaration [], [])
      else if c = '?' then some (.instruction [] false, [])
      else if isNameStart d.letters c then some (.startTag none [c], [])
      else none
    | .startTag none read =>
      if c = '<' then none
      else if c = '>' then closeStartTag d read
      else if c = '"' ∨ c = '\'' then some (.startTag (some c) (c :: read), [])
      else some (.startTag none (c :: read), [])
    | .startTag (some quote) read =>
      if c = '<' then none
      else some (.startTag (if c = quote then none else some quote) (c :: read), [])
    | .endTag read =>
      if c = '<' then none
      else if c = '>' then (Tag.end? d.letters read.reverse).map fun token => (.text 0, [token])
      else some (.endTag (c :: read), [])
    | .declaration read => (declare (c :: read)).map fun next => (next, [])
    | .comment hyphens =>
      -- two hyphens together only stand at the end
      if c = '-' then if hyphens = 2 then none else some (.comment (hyphens + 1), [])
      else if hyphens = 2 then if c = '>' then some (.text 0, []) else none
      else some (.comment 0, [])
    | .instruction read question =>
      if c = '>' ∧ question then
        -- without the question mark, which was read last
        if Instruction.isWellFormed d.letters (read.drop 1).reverse then some (.text 0, [])
        else none
      else some (.instruction (c :: read) (c = '?'), [])
    | .quoted read brackets =>
      -- the two brackets belong to the mark
      if c = '>' ∧ brackets = 2 then some (.text 0, [.quoted (read.drop 2).reverse])
      else some (.quoted (c :: read) (if c = ']' then min (brackets + 1) 2 else 0), [])

/-- Takes the characters of a text: the state reached and the tokens. -/
def run (d : Dialect) (state : LexState) : List Char → Option (LexState × List Token)
  | [] => some (state, [])
  | c :: cs => do
    let (next, tokens) ← step d state c
    let (last, more) ← run d next cs
    return (last, tokens ++ more)

/-- Is the machine between tokens? -/
def isText : LexState → Bool
  | .text _ => true
  | _ => false

/-- Two texts one after the other. -/
theorem run_append (d : Dialect) (state : LexState) (a b : List Char) :
    run d state (a ++ b) = (do
      let (next, tokens) ← run d state a
      let (last, more) ← run d next b
      return (last, tokens ++ more)) := by
  -- the first part is read to its end, in whatever state it is left
  induction a generalizing state with
  | nil =>
    cases h : run d state b with
    | none => simp [run, h]
    | some r => simp [run, h]
  | cons c a ih =>
    cases hstep : step d state c with
    | none => simp [run, hstep]
    | some r =>
      obtain ⟨next, tokens⟩ := r
      cases hrun : run d next a with
      | none => simp [run, hstep, ih, hrun]
      | some r =>
        obtain ⟨last, more⟩ := r
        cases hb : run d last b with
        | none => simp [run, hstep, ih, hrun, hb]
        | some r => simp [run, hstep, ih, hrun, hb]

end LexState

/-- The tokens of a text that ends between tokens; none where it is not well formed. -/
def tokens? (d : Dialect) (cs : List Char) : Option (List Token) := do
  let (last, tokens) ← LexState.run d (.text 0) cs
  if last.isText then return tokens else none

end Depot.Xml
