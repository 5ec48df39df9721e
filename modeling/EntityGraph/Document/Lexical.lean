import EntityGraph.Document.Basic
import EntityGraph.Json.Reader
import EntityGraph.Name

/-!
The words of a document: names, numbers, strings and punctuation. White space, commas and comments
stand between them without a meaning. A word that is fixed is recognised by its letters alone, so
that what follows it need not be set apart; only the word before the type of a fragment is.
-/

namespace EntityGraph.Lexical

/-- What is left to read. -/
abbrev Input := List Char

/-- The ends of lines. -/
def isLineEnd (c : Char) : Bool := c = '\n' || c = '\r'

/-- Characters without a meaning. -/
def isBlank (c : Char) : Bool :=
  c = ' ' || c = ',' || c = '\t' || isLineEnd c || c.toNat = 0xFEFF

/-- Skips what has no meaning. The flag tells that a comment has begun. -/
def skipFrom : Bool → Input → Input
  | _, [] => []
  | true, c :: cs => skipFrom (!isLineEnd c) cs
  | false, c :: cs =>
    if c = '#' then skipFrom true cs else if isBlank c then skipFrom false cs else c :: cs

/-- Skips blanks and comments. -/
def skip (cs : Input) : Input := skipFrom false cs

/-! ### Words -/

/-- Takes a fixed word off the input, blanks before it. -/
def word? (w : String) (cs : Input) : Option Input := Json.Reader.word? w.toList (skip cs)

/-- A name and what follows it. -/
def bareName? : Input → Option (String × Input)
  | [] => none
  | c :: cs =>
    if Name.isStart c then
      let (rest, after) := cs.span Name.isRest
      some (String.ofList (c :: rest), after)
    else none

/-- A name, blanks before it. -/
def name? (cs : Input) : Option (String × Input) := bareName? (skip cs)

/-- A name that blanks set apart from what stands before it. A comment does not. -/
def apartName? (cs : Input) : Option (String × Input) :=
  match cs.span isBlank with
  | ([], _) => none
  | (_, rest) => bareName? rest

/-! ### Numbers -/

/-- The digits before the point: a zero, or digits that start with another one. -/
def whole? (cs : Input) : Option (List Char × Input) :=
  match cs with
  | '0' :: rest => some (['0'], rest)
  | cs =>
    match Json.Reader.digits cs with
    | ([], _) => none
    | (ds, rest) => some (ds, rest)

/-- The digits after a point. A point without digits is left alone. -/
def fraction (cs : Input) : Option (List Char) × Input :=
  match Json.Reader.fraction? cs with
  | some (ds, rest) => (ds, rest)
  | none => (none, cs)

/-- An exponent. A letter without digits is left alone. -/
def exponent (cs : Input) : Option Int × Input :=
  match Json.Reader.exponent? cs with
  | some (n, rest) => (n, rest)
  | none => (none, cs)

/-- The literal of a number. -/
def numberLiteral? : Json → Option Literal
  | .int n => some (.int n)
  | .float x => some (.float x)
  | _ => none

/-- A number. -/
def number? (cs : Input) : Option (Literal × Input) := do
  let (neg, cs) := match cs with
    | '-' :: rest => (true, rest)
    | cs => (false, cs)
  let (whole, rest) ← whole? cs
  let (frac, rest) := fraction rest
  let (exp, rest) := exponent rest
  let v ← Json.Reader.number? neg whole frac exp
  let l ← numberLiteral? v
  some (l, rest)

/-! ### Strings -/

/-- The character of four hexadecimal digits. Surrogates stand for none. -/
def scalar? (cs : Input) : Option (Char × Input) := do
  let (n, rest) ← Json.Reader.hexUnit? cs
  if 0xD800 ≤ n ∧ n < 0xE000 then none else some (Char.ofNat n, rest)

/-- The characters of a string up to its closing quote, collected in reverse. -/
def chars? : Nat → Input → List Char → Option (String × Input)
  | 0, _, _ => none
  | _ + 1, '"' :: rest, acc => some (String.ofList acc.reverse, rest)
  | fuel + 1, '\\' :: 'u' :: rest, acc => do
    let (c, rest) ← scalar? rest
    chars? fuel rest (c :: acc)
  | fuel + 1, '\\' :: e :: rest, acc => do
    let c ← Json.Reader.shortEscape? e
    chars? fuel rest (c :: acc)
  | fuel + 1, c :: rest, acc => if isLineEnd c then none else chars? fuel rest (c :: acc)
  | _ + 1, [], _ => none

/-- The characters of a block up to its three closing quotes, collected in reverse. Three quotes
after a backslash do not close the block, and the backslash stays with them. -/
def blockChars? : List Char → Input → Option (List Char × Input)
  | acc, '\\' :: '"' :: '"' :: '"' :: rest => blockChars? ('"' :: '"' :: '"' :: '\\' :: acc) rest
  | acc, '"' :: '"' :: '"' :: rest => some (acc.reverse, rest)
  | acc, c :: rest => blockChars? (c :: acc) rest
  | _, [] => none

/-- The lines of a text, the first of them collected in reverse so far. -/
def linesFrom : List Char → List Char → List (List Char)
  | acc, [] => [acc.reverse]
  | acc, '\r' :: '\n' :: rest => acc.reverse :: linesFrom [] rest
  | acc, c :: rest =>
    if isLineEnd c then acc.reverse :: linesFrom [] rest else linesFrom (c :: acc) rest

/-- The blanks that indent a line. -/
def isIndent (c : Char) : Bool := c = ' ' || c = '\t'

/-- The width of the indent of a line that holds more than blanks. -/
def indent? (line : List Char) : Option Nat :=
  if line.all isIndent then none else some (line.takeWhile isIndent).length

/-- Drops lines of blanks at the start. -/
def dropBlank (lines : List (List Char)) : List (List Char) :=
  lines.dropWhile fun l => l.all isIndent

/-- Takes the common indent off a line that is long enough. -/
def outdent (width : Nat) (line : List Char) : List Char :=
  if width ≤ line.length then line.drop width else line

/-- The text of a block: without the indent that all lines but the first share, and without blank
lines at both ends. -/
def blockText (cs : List Char) : String :=
  match linesFrom [] cs with
  | [] => ""
  | first :: rest =>
    let width := ((rest.filterMap indent?).min?).getD 0
    let lines := first :: rest.map (outdent width)
    let kept := (dropBlank (dropBlank lines).reverse).reverse
    String.ofList (['\n'].intercalate kept)

/-- A string, given what follows its first quote. -/
def string? (cs : Input) : Option (String × Input) :=
  let block := match cs with
    | '"' :: '"' :: rest => (blockChars? [] rest).map fun (b, rest) => (blockText b, rest)
    | _ => none
  match block with
  | some r => some r
  | none => chars? (cs.length + 1) cs []

end EntityGraph.Lexical
