import Depot.Binary64.Fixed
import Depot.Logging.Fault
import Depot.Logging.Spelling
/-!
# Messages with arguments

A message is written with conversions, each of which stands for an argument: a percent sign, perhaps
the name of a member in parentheses, flags, a width and a precision, of which either may itself be
an argument, and a letter that says how to spell the argument. Two percent signs stand for one.
`Piece.ofChars` reads a template, and `Piece.fillAll` puts the arguments in.

The arguments are a list of values, all of which must be used, or a single value. If that is a list
or an object it need not be used, and the members of an object are asked for by their names. A
message without arguments, or with a value that counts as nothing, is taken as it is.
-/

namespace Depot.Message

open Logging (Fault Value)

/-- A width or precision. -/
inductive Measure where
  | given (n : Nat)
  /-- It is the next argument. -/
  | argument
  deriving DecidableEq, Repr

/-- How to spell an argument. -/
structure Conversion where
  /-- The name of the member that is the argument. -/
  name : Option String := none
  leftAligned : Bool := false
  /-- Positive numbers have a sign. -/
  signed : Bool := false
  /-- Positive numbers have a blank in place of a sign. -/
  spaced : Bool := false
  alternate : Bool := false
  zeroFilled : Bool := false
  width : Measure := .given 0
  precision : Option Measure := none
  deriving DecidableEq, Repr

/-- A piece of a template. -/
inductive Piece where
  | char (c : Char)
  /-- A conversion with its letter, and where the letter stands. -/
  | conversion (how : Conversion) (letter : Char) (place : Nat)
  /-- What has been read of a conversion before it turns out to be at fault. -/
  | broken (how : Conversion) (fault : Fault)
  /-- The template ends within a name. -/
  | unclosedName
  deriving DecidableEq, Repr

/-! ### Reading templates -/

/-- How far a conversion is read. -/
inductive Stage where
  | begun
  /-- In the name, after so many parentheses that are not closed; its characters backwards. -/
  | name (depth : Nat) (read : List Char)
  | flags
  | width
  | widthDone
  | precision
  | precisionDigits
  | precisionDone
  | size
  deriving DecidableEq, Repr

/-- What a character does to a conversion. -/
inductive Step where
  /-- It belongs to the conversion. -/
  | more (stage : Stage) (how : Conversion)
  /-- It is the letter. -/
  | letter
  | fault (fault : Fault)
  deriving DecidableEq, Repr

/-- A flag. -/
def withFlag? (how : Conversion) (c : Char) : Option Conversion :=
  match c with
  | '-' => some { how with leftAligned := true }
  | '+' => some { how with signed := true }
  | ' ' => some { how with spaced := true }
  | '#' => some { how with alternate := true }
  | '0' => some { how with zeroFilled := true }
  | _ => none

/-- The greatest width. -/
def maxWidth : Nat := Nat.pow 2 63 - 1

/-- The greatest precision. -/
def maxPrecision : Nat := Nat.pow 2 31 - 1

/-- A measure with one more digit, unless it gets too big. -/
def withDigit? (m : Measure) (d max : Nat) : Option Measure :=
  match m with
  | .given n => if max < 10 * n + d then none else some (.given (10 * n + d))
  | .argument => some .argument

/-- Takes a character that may stand before the letter, but no longer in a measure. -/
def takeSize (how : Conversion) (c : Char) : Step :=
  if c = 'h' ∨ c = 'l' ∨ c = 'L' then .more .size how else .letter

/-- Takes a character that may follow the width. -/
def takeAfterWidth (how : Conversion) (c : Char) : Step :=
  if c = '.' then .more .precision { how with precision := some (.given 0) } else takeSize how c

/-- Takes a character into the name of an argument. -/
def takeName (how : Conversion) (depth : Nat) (read : List Char) (c : Char) : Step :=
  if c = '(' then .more (.name (depth + 1) (c :: read)) how
  else if c = ')' then
    match depth with
    | 0 => .more .flags { how with name := some (String.ofList read.reverse) }
    | depth + 1 => .more (.name depth (c :: read)) how
  else .more (.name depth (c :: read)) how

/-- Takes a character that may be a flag. -/
def takeFlag (how : Conversion) (c : Char) : Step :=
  match withFlag? how c, Text.asciiDigit? c with
  | some how, _ => .more .flags how
  | none, some d => .more .width { how with width := .given d }
  | none, none =>
    if c = '*' then .more .widthDone { how with width := .argument } else takeAfterWidth how c

/-- Takes a digit into the width. -/
def takeWidth (how : Conversion) (d : Nat) : Step :=
  match withDigit? how.width d maxWidth with
  | some width => .more .width { how with width }
  | none => .fault .widthTooBig

/-- Takes a digit into the precision. -/
def takePrecision (how : Conversion) (d : Nat) : Step :=
  match withDigit? (how.precision.getD (.given 0)) d maxPrecision with
  | some precision => .more .precisionDigits { how with precision := some precision }
  | none => .fault .precisionTooBig

/-- Takes a character into a conversion. -/
def take (stage : Stage) (how : Conversion) (c : Char) : Step :=
  match stage, Text.asciiDigit? c with
  | .begun, _ => if c = '(' then .more (.name 0 []) how else takeFlag how c
  | .name depth read, _ => takeName how depth read c
  | .flags, _ => takeFlag how c
  | .width, some d => takeWidth how d
  | .width, none => takeAfterWidth how c
  | .widthDone, _ => takeAfterWidth how c
  | .precision, some d => takePrecision how d
  | .precision, none =>
    if c = '*' then .more .precisionDone { how with precision := some .argument }
    else takeSize how c
  | .precisionDigits, some d => takePrecision how d
  | .precisionDigits, none => takeSize how c
  | .precisionDone, _ => takeSize how c
  | .size, _ => .letter

/-- What a conversion is at the end of the template. -/
def atEnd : Stage → Conversion → Piece
  | .name _ _, _ => .unclosedName
  | _, how => .broken how .incompleteConversion

/-- Reads the pieces of a template from a place on; within a conversion, what is read of it. -/
def Piece.ofChars : (within : Option (Stage × Conversion)) → (place : Nat) → List Char → List Piece
  | none, _, [] => []
  | some (stage, how), _, [] => [atEnd stage how]
  | none, place, c :: cs =>
    if c = '%' then ofChars (some (.begun, {})) (place + 1) cs
    else .char c :: ofChars none (place + 1) cs
  | some (stage, how), place, c :: cs =>
    if stage = .begun ∧ c = '%' then .char '%' :: ofChars none (place + 1) cs
    else match take stage how c with
      | .more stage how => ofChars (some (stage, how)) (place + 1) cs
      | .letter => .conversion how c place :: ofChars none (place + 1) cs
      | .fault fault => [.broken how fault]

/-! ### Spelling arguments -/

/-- A conversion whose measures are known. -/
structure Shape where
  how : Conversion
  leftAligned : Bool
  width : Nat
  precision : Option Nat

/-- An argument as it is spelled: a sign and the mark of its base, and the rest. Only a number may
be filled with zeros. -/
structure Spelled where
  sign : List Char := []
  mark : List Char := []
  body : List Char
  zeroFilled : Bool := false

/-- Fills a spelled argument up to a width that can be held. -/
def Spelled.fill (s : Spelled) (shape : Shape) : List Char :=
  let gap := shape.width - (s.sign.length + s.mark.length + s.body.length)
  if shape.leftAligned then s.sign ++ s.mark ++ s.body ++ List.replicate gap ' '
  else if s.zeroFilled then s.sign ++ s.mark ++ List.replicate gap '0' ++ s.body
  else List.replicate gap ' ' ++ s.sign ++ s.mark ++ s.body

/-- The sign to write. -/
def signOf (how : Conversion) (negative : Bool) : List Char :=
  if negative then ['-'] else if how.signed then ['+'] else if how.spaced then [' '] else []

/-- A text, cut to the precision. -/
def spellText (shape : Shape) (cs : List Char) : Spelled :=
  { body := match shape.precision with
      | some n => cs.take n
      | none => cs }

/-- A text with all characters past ASCII escaped. -/
def escapeBeyondAscii (cs : List Char) : List Char :=
  cs.flatMap fun c => if c.toNat < 0x80 then [c] else Text.escapeCode c

/-- An argument as an integer. -/
def integer : Value → Except Fault Int
  | .json (.int n) => .ok n
  | .json (.bool b) => .ok b.toNat
  | _ => .error .wrongKind

/-- An argument as an integer, a fraction being cut off. -/
def cutInteger : Value → Except Fault Int
  | .json (.float x) =>
    match x, x.toFraction? with
    | _, some (num, den) => .ok (Int.tdiv num den)
    | .infinite _, none => .error .outOfRange
    | _, none => .error .noInteger
  | arg => integer arg

/-- The length at which a text is too long to hold. -/
def maxLength : Nat := Nat.pow 2 30

/-- A number of digits to be written, unless it is too great. -/
def checkDigits (n : Nat) : Except Fault Nat := if maxLength < n then .error .tooLong else .ok n

/-- An integer in a base, with as many digits as the precision asks for. -/
def spellInteger (shape : Shape) (base : Nat) (mark : List Char) (capital : Bool) (n : Int) :
    Spelled :=
  let digits := Nat.toDigits base n.natAbs
  let digits := List.replicate ((shape.precision.getD 0) - digits.length) '0' ++ digits
  { sign := signOf shape.how (n < 0)
    mark := if shape.how.alternate then mark else []
    body := if capital then digits.map Char.toUpper else digits
    zeroFilled := shape.how.zeroFilled }

/-- An argument as a number. -/
def number : Value → Except Fault Binary64
  | .json (.float x) => .ok x
  | arg => do
    let x := Binary64.ofInt (← integer arg)
    if x.isFinite then return x else throw .outOfRange

/-- No double precision number has more digits. -/
def mostDigits : Nat := 1100

/-- The places or digits of a number by one of the letters `e`, `f`, `g`. Only the last of these
leaves out zeros at the end, and does so unless asked not to. -/
def places (shape : Shape) (letter : Char) : Except Fault Nat :=
  let n := shape.precision.getD 6
  if letter = 'g' ∧ !shape.how.alternate then .ok (min n mostDigits) else checkDigits n

/-- A number by one of the letters `e`, `f`, `g` and their capitals. -/
def spellNumber (shape : Shape) (letter : Char) (x : Binary64) : Except Fault Spelled :=
  let e := if letter.isUpper then 'E' else 'e'
  let word (s : String) : List Char := s.toList.map fun c => if letter.isUpper then c.toUpper else c
  let spelled (negative : Bool) (body : List Char) : Spelled :=
    { sign := signOf shape.how negative, body, zeroFilled := shape.how.zeroFilled }
  match x, x.toFraction? with
  | .finite negative _ _, some (num, den) => do
    let num := num.natAbs
    let places ← places shape letter.toLower
    return spelled negative <| match letter.toLower with
      | 'e' => Binary64.scientificPlaces e num den places shape.how.alternate
      | 'f' => Binary64.placedText num den places shape.how.alternate
      | _ => Binary64.generalText e num den places shape.how.alternate
  | .infinite negative, _ => .ok (spelled negative (word "inf"))
  | _, _ => .ok (spelled false (word "nan"))

/-- An argument as one character. -/
def spellCharacter : Value → Except Fault Spelled
  | .json (.str s) => if s.length = 1 then .ok { body := s.toList } else .error .wrongKind
  | arg => do
    let n ← integer arg
    if 0 ≤ n ∧ n < 0x110000 then return { body := [Char.ofNat n.toNat] } else throw .outOfRange

/-- The greatest precision of an integer. -/
def maxIntegerPrecision : Nat := maxPrecision - 3

/-- Spells an integer by a letter. -/
def spellIntegerBy (shape : Shape) (letter : Char) (n : Int) : Except Fault Spelled :=
  if maxIntegerPrecision < shape.precision.getD 0 then .error .outOfRange
  else do
    let _ ← checkDigits (shape.precision.getD 0)
    return match letter with
      | 'o' => spellInteger shape 8 ['0', 'o'] false n
      | 'x' => spellInteger shape 16 ['0', 'x'] false n
      | 'X' => spellInteger shape 16 ['0', 'X'] true n
      | _ => spellInteger shape 10 [] false n

/-- The letters for integers. -/
def integerLetters : List Char := ['d', 'i', 'u', 'o', 'x', 'X']

/-- The letters for numbers. -/
def numberLetters : List Char := ['e', 'E', 'f', 'F', 'g', 'G']

/-- Spells an argument by a letter. -/
def spell (shape : Shape) (letter : Char) (place : Nat) (arg : Value) : Except Fault Spelled :=
  if letter = 's' then .ok (spellText shape arg.spelledChars)
  else if letter = 'r' then .ok (spellText shape arg.quotedChars)
  else if letter = 'a' then .ok (spellText shape (escapeBeyondAscii arg.quotedChars))
  else if letter = 'c' then spellCharacter arg
  else if integerLetters.contains letter then do
    let n ← if ['d', 'i', 'u'].contains letter then cutInteger arg else integer arg
    spellIntegerBy shape letter n
  else if numberLetters.contains letter then do spellNumber shape letter (← number arg)
  else .error (.unknownLetter letter place)

/-! ### Putting arguments in -/

/-- What a message is made with. -/
inductive Arguments where
  | listed (values : List Value)
  | single (value : Value)
  deriving Repr

namespace Arguments

/-- The values to be used one by one. -/
def values : Arguments → List Value
  | listed values => values
  | single value => [value]

/-- The single value, where it is one that has members or items, and so need not be used. -/
def collection? : Arguments → Option Json
  | single (.json (.object members)) => some (.object members)
  | single (.json (.array items)) => some (.array items)
  | _ => none

/-- Is there nothing to make a message with? -/
def isNothing : Arguments → Bool
  | listed values => values.isEmpty
  | single value => value.isNothing

end Arguments

/-- The arguments from which a conversion takes its own: those that are left, or the member that it
names. -/
def sources (collection? : Option Json) (how : Conversion) (args : List Value) :
    Except Fault (List Value) :=
  match how.name, collection? with
  | none, _ => .ok args
  | some name, some (.object members) =>
    match Dictionary.get? members name with
    | some value => .ok [.json value]
    | none => .error .missingName
  | some _, _ => .error .wrongKind

/-- A measure that must fit a word of so many bits, and the arguments that are left. -/
def takeMeasure (bits : Nat) (m : Measure) (args : List Value) :
    Except Fault (Int × List Value) :=
  match m, args with
  | .given n, args => .ok (n, args)
  | .argument, arg :: rest => do
    let n ← integer arg
    let bound := Int.ofNat (Nat.pow 2 (bits - 1))
    if -bound ≤ n ∧ n < bound then return (n, rest) else throw .outOfRange
  | .argument, [] => .error .wrongKind

/-- The width of which a number is the measure. The least word, which has no opposite, asks for
none. -/
def widthOf (n : Int) : Nat := if maxWidth < n.natAbs then 0 else n.natAbs

/-- The shape of a conversion, and the arguments that are left. A negative width aligns to the
left. -/
def takeShape (how : Conversion) (args : List Value) : Except Fault (Shape × List Value) := do
  let (width, args) ← takeMeasure 64 how.width args
  let leftAligned := how.leftAligned || decide (width < 0)
  match how.precision with
  | none => return (⟨how, leftAligned, widthOf width, none⟩, args)
  | some m =>
    let (precision, args) ← takeMeasure 32 m args
    return (⟨how, leftAligned, widthOf width, some precision.toNat⟩, args)

/-- A piece with its arguments, and the arguments that are left. -/
def Piece.fill (collection? : Option Json) (args : List Value) :
    Piece → Except Fault (List Char × List Value)
  | .char c => .ok ([c], args)
  | .unclosedName => .error (if collection?.isSome then .incompleteName else .wrongKind)
  | .broken how fault => do
    let _ ← takeShape how (← sources collection? how args)
    throw fault
  | .conversion how letter place => do
    let (shape, args) ← takeShape how (← sources collection? how args)
    match args with
    | [] => throw .wrongKind
    | arg :: args =>
      let spelled ← spell shape letter place arg
      if maxLength < shape.width then throw .tooLong else return (spelled.fill shape, args)

/-- Pieces with their arguments, all of which must be used unless they are a collection. -/
def Piece.fillAll (collection? : Option Json) : List Piece → List Value → Except Fault (List Char)
  | [], args => if args.isEmpty || collection?.isSome then .ok [] else .error .wrongKind
  | piece :: pieces, args => do
    let (front, args) ← piece.fill collection? args
    let back ← fillAll collection? pieces args
    return front ++ back

/-- A template with its arguments; without arguments it is taken as it is. -/
def fill (template : String) (args : Arguments) : Except Fault String :=
  if args.isNothing then .ok template
  else
    let pieces := Piece.ofChars none 0 template.toList
    (Piece.fillAll args.collection? pieces args.values).map String.ofList

end Depot.Message
