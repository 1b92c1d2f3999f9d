import Depot.Xml.Refusal
import Depot.Xml.Token
/-!
# The declaration at the start of a document

A document may start with a declaration of its version, its encoding and whether it stands alone.
The three come in this order, each after white space, and only the version is required. Nothing is
asked of the version itself.
-/

namespace Depot.Xml

/-- What a document declares of itself. -/
structure Declaration where
  encoding : Option String := none
  standalone : Bool := false
  deriving DecidableEq, Repr

namespace Declaration

/-- May the character stand in the value of an item? -/
def isValueChar (c : Char) : Bool := c.isAlphanum || c = '.' || c = '-' || c = '_'

/-- Reads the next item, a name and a quoted value, after white space; none at the end. -/
def item? (cs : List Char) : Option (Option (String × List Char) × List Char) :=
  match cs with
  | [] => some (none, [])
  | c :: _ =>
    if isSpace c then
      match skipSpace cs with
      | [] => some (none, [])
      | cs =>
        let name := cs.takeWhile fun c => c != '=' && !isSpace c && c.toNat < 0x80
        let rest := cs.drop name.length
        if name.isEmpty then none
        else match skipSpace rest with
          | '=' :: rest =>
            match skipSpace rest with
            | quote :: rest =>
              if quote = '"' ∨ quote = '\'' then
                let value := rest.takeWhile isValueChar
                match rest.drop value.length with
                | c :: rest =>
                  if c = quote then some (some (String.ofList name, value), rest) else none
                | [] => none
              else none
            | [] => none
          | _ => none
    else none

/-- Reads the last item, if there is one. -/
def standalone? (encoding : Option String) (item : Option (String × List Char)) (rest : List Char) :
    Option Declaration :=
  match item with
  | none => some { encoding }
  | some (name, value) =>
    if name = "standalone" ∧ rest.all isSpace then
      if value = "yes".toList then some { encoding, standalone := true }
      else if value = "no".toList then some { encoding }
      else none
    else none

/-- Reads what stands between the target and the end of the declaration. -/
def body? (cs : List Char) : Option Declaration := do
  let (first, rest) ← item? cs
  let (name, _) ← first
  if name ≠ "version" then none
  else
    let (second, rest) ← item? rest
    match second with
    | some ("encoding", value) =>
      match value with
      | c :: _ =>
        if c.isAlpha then
          let (third, rest) ← item? rest
          standalone? (some (String.ofList value)) third rest
        else none
      | [] => none
    | other => standalone? none other rest

/-- Splits a text at the first end of an instruction. -/
def splitEnd? : List Char → Option (List Char × List Char)
  | '?' :: '>' :: rest => some ([], rest)
  | c :: cs => (splitEnd? cs).map fun (body, rest) => (c :: body, rest)
  | [] => none

/-- Does a text start with a declaration? -/
def isPresent : List Char → Bool
  | '<' :: '?' :: 'x' :: 'm' :: 'l' :: c :: _ => isSpace c || c = '?'
  | _ => false

/-- Reads the declaration at the front of a document, if there is one, and what follows it. -/
def split (cs : List Char) : Except Fault (Option Declaration × List Char) :=
  if isPresent cs then
    match splitEnd? (cs.drop 5) with
    | some (body, rest) =>
      match body? body with
      | some d => .ok (some d, rest)
      | none => .error .malformed
    | none => .error .malformed
  else .ok (none, cs)

end Declaration

end Depot.Xml
