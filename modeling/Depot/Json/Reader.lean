import Depot.Binary64.Basic
import Depot.Json.Basic
import Depot.Text.Digit
/-!
# Reading JSON

`Json.parse?` reads one value with blanks around it and nothing else. Beside the standard's grammar
it takes the words `NaN`, `Infinity` and `-Infinity`. A number with a fraction or an exponent is a
floating point number, any other an integer, of no more than `maxDigits` digits. A name that occurs
twice in an object keeps its first place and its last value.
-/

namespace Depot.Json

/-- Drops the blanks that may stand between tokens. -/
def skipBlanks (cs : List Char) : List Char :=
  cs.dropWhile fun c => c = ' ' || c = '\t' || c = '\n' || c = '\r'

/-- Drops a given word. -/
def dropWord? (word : String) (cs : List Char) : Option (List Char) :=
  if word.toList.isPrefixOf cs then some (cs.drop word.length) else none

/-- The code unit that four hexadecimal digits denote. -/
def codeUnit? : Char → Char → Char → Char → Option Nat
  | a, b, c, d => do
    let high := (← Text.hexDigit? a) * 16 + (← Text.hexDigit? b)
    return (high * 16 + (← Text.hexDigit? c)) * 16 + (← Text.hexDigit? d)

/-- Is the code unit the first half of a pair? -/
def isHighSurrogate (n : Nat) : Bool := 0xD800 ≤ n && n ≤ 0xDBFF

/-- Is the code unit the second half of a pair? -/
def isLowSurrogate (n : Nat) : Bool := 0xDC00 ≤ n && n ≤ 0xDFFF

/-- The character of a code unit that is not part of a pair; half a pair is replaced. -/
def unitChar (n : Nat) : Char :=
  if isHighSurrogate n || isLowSurrogate n then '\uFFFD' else Char.ofNat n

/-- The character that a letter stands for after a backslash. -/
def escaped? (c : Char) : Option Char :=
  match c with
  | '"' => some '"'
  | '\\' => some '\\'
  | '/' => some '/'
  | 'b' => some '\x08'
  | 'f' => some '\x0c'
  | 'n' => some '\n'
  | 'r' => some '\r'
  | 't' => some '\t'
  | _ => none

/-- Reads the rest of a string after its opening quote: its characters, and what follows the closing
quote. Two escaped halves of a pair are one character. -/
def stringBody? : List Char → Option (List Char × List Char)
  | [] => none
  | '"' :: cs => some ([], cs)
  -- two units are read together, as they may be one character
  | '\\' :: 'u' :: a :: b :: c :: d :: '\\' :: 'u' :: e :: f :: g :: h :: cs => do
    let high ← codeUnit? a b c d
    match codeUnit? e f g h with
    | some low =>
      if isHighSurrogate high && isLowSurrogate low then
        let (body, rest) ← stringBody? cs
        return (Char.ofNat (0x10000 + (high - 0xD800) * 0x400 + (low - 0xDC00)) :: body, rest)
      else
        -- the second unit may be the first one of a pair
        let (body, rest) ← stringBody? ('\\' :: 'u' :: e :: f :: g :: h :: cs)
        return (unitChar high :: body, rest)
    | none => none
  | '\\' :: 'u' :: a :: b :: c :: d :: cs => do
    let n ← codeUnit? a b c d
    let (body, rest) ← stringBody? cs
    return (unitChar n :: body, rest)
  | '\\' :: c :: cs => do
    let c ← escaped? c
    let (body, rest) ← stringBody? cs
    return (c :: body, rest)
  | c :: cs =>
    -- control characters have to be escaped
    if c.toNat < 0x20 || c = '\\' then none
    else do
      let (body, rest) ← stringBody? cs
      return (c :: body, rest)

/-- Reads a fraction: its digits, if there is one, and the rest. -/
def fraction (cs : List Char) : Option (List Nat) × List Char :=
  match cs with
  | '.' :: rest =>
    match Text.splitDigits rest with
    | ([], _) => (none, cs)
    | (ds, rest) => (some ds, rest)
  | _ => (none, cs)

/-- Reads an exponent, if there is one, and the rest. -/
def exponent (cs : List Char) : Option Int × List Char :=
  match cs with
  | e :: rest =>
    if e = 'e' ∨ e = 'E' then
      let (negative, rest) := Text.splitSign rest
      match Text.splitDigits rest with
      | ([], _) => (none, cs)
      | (ds, rest) =>
        let n := Text.ofDigits ds
        (some (if negative then -(n : Int) else n), rest)
    else (none, cs)
  | [] => (none, cs)

/-- Reads the digits before the point, and the rest. A zero stands alone. -/
def wholePart (cs : List Char) : List Nat × List Char :=
  match cs with
  | '0' :: rest => ([0], rest)
  | _ => Text.splitDigits cs

/-- Reads a number after its sign. -/
def number? (negative : Bool) (cs : List Char) : Option (Json × List Char) :=
  let (whole, rest) := wholePart cs
  if whole.isEmpty then none
  else
    let (frac?, rest) := fraction rest
    let (exp?, rest) := exponent rest
    match frac?, exp? with
    | none, none =>
      if maxDigits < whole.length then none
      else
        let n := Text.ofDigits whole
        some (.int (if negative then -(n : Int) else n), rest)
    | _, _ =>
      -- the digits on both sides of the point make up one coefficient
      let frac := frac?.getD []
      let place : Int := exp?.getD 0 - (frac.length : Nat)
      some (.float (Binary64.ofDecimal negative (Text.ofDigits (whole ++ frac)) place), rest)

/-- Reads a value that is a word or a number. -/
def scalar? (cs : List Char) : Option (Json × List Char) :=
  match cs with
  | '-' :: rest =>
    match dropWord? "Infinity" rest with
    | some rest => some (.float (.infinite true), rest)
    | none => number? true rest
  | _ =>
    let words : List (String × Json) :=
      [("null", .null), ("true", .bool true), ("false", .bool false), ("NaN", .float .notANumber),
        ("Infinity", .float (.infinite false))]
    match words.findSome? fun w => (dropWord? w.1 cs).map fun rest => (w.2, rest) with
    | some r => some r
    | none => number? false cs

mutual

/-- Reads a value at the front of a text; `fuel` bounds the number of steps. -/
def value? : (fuel : Nat) → List Char → Option (Json × List Char)
  | 0, _ => none
  | fuel + 1, cs =>
    match skipBlanks cs with
    | '"' :: rest => (stringBody? rest).map fun (body, rest) => (.str (String.ofList body), rest)
    | '[' :: rest =>
      match skipBlanks rest with
      | ']' :: rest => some (.array [], rest)
      | rest => (items? fuel rest).map fun (items, rest) => (.array items, rest)
    | '\x7b' :: rest =>
      match skipBlanks rest with
      | '\x7d' :: rest => some (.object [], rest)
      | rest => (members? fuel [] rest).map fun (members, rest) => (.object members, rest)
    | rest => scalar? rest

/-- Reads the items of an array up to its end. -/
def items? : (fuel : Nat) → List Char → Option (List Json × List Char)
  | 0, _ => none
  | fuel + 1, cs => do
    let (item, rest) ← value? fuel cs
    match skipBlanks rest with
    | ',' :: rest =>
      let (items, rest) ← items? fuel rest
      return (item :: items, rest)
    | ']' :: rest => return ([item], rest)
    | _ => none

/-- Reads the members of an object up to its end, after those already read. -/
def members? : (fuel : Nat) → List (String × Json) → List Char →
    Option (List (String × Json) × List Char)
  | 0, _, _ => none
  | fuel + 1, members, cs =>
    match skipBlanks cs with
    | '"' :: rest => do
      let (name, rest) ← stringBody? rest
      match skipBlanks rest with
      | ':' :: rest =>
        let (value, rest) ← value? fuel rest
        -- of a name that is repeated the last value counts
        let members := Dictionary.put members (String.ofList name) value
        match skipBlanks rest with
        | ',' :: rest => members? fuel members rest
        | '\x7d' :: rest => return (members, rest)
        | _ => none
      | _ => none
    | _ => none

end

/-- Reads a text that is one JSON value. -/
def parseChars? (cs : List Char) : Option Json :=
  match value? (2 * cs.length + 2) cs with
  | some (j, rest) => if (skipBlanks rest).isEmpty then some j else none
  | none => none

/-- Reads a text that is one JSON value. -/
def parse? (s : String) : Option Json := parseChars? s.toList

end Depot.Json
