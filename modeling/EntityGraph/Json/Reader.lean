import EntityGraph.Json.Basic
import EntityGraph.Number.Decimal

/-!
Reading JSON text. A key that an object repeats keeps its first place and its last value. An
integer literal that fits 64 bits is an integer; every other number, `-0` included, is a double.
-/

namespace EntityGraph.Json.Reader

/-- What is left to read. -/
abbrev Input := List Char

/-- The white space of JSON. -/
def isSpace (c : Char) : Bool := c = ' ' || c = '\t' || c = '\n' || c = '\r'

/-- Skips white space. -/
def skip (cs : Input) : Input := cs.dropWhile isSpace

/-- Takes a fixed word off the input. -/
def word? : List Char → Input → Option Input
  | [], cs => some cs
  | w :: ws, c :: cs => if w = c then word? ws cs else none
  | _ :: _, [] => none

/-- The value of a hexadecimal digit. -/
def hexValue? (c : Char) : Option Nat :=
  if '0' ≤ c ∧ c ≤ '9' then some (c.toNat - '0'.toNat)
  else if 'a' ≤ c ∧ c ≤ 'f' then some (c.toNat - 'a'.toNat + 10)
  else if 'A' ≤ c ∧ c ≤ 'F' then some (c.toNat - 'A'.toNat + 10)
  else none

/-- Four hexadecimal digits. -/
def hexUnit? : Input → Option (Nat × Input)
  | a :: b :: c :: d :: rest => do
    let a ← hexValue? a
    let b ← hexValue? b
    let c ← hexValue? c
    let d ← hexValue? d
    some (((a * 16 + b) * 16 + c) * 16 + d, rest)
  | _ => none

/-- The character of an escape after `\u`, where two surrogates make one character. -/
def unicodeEscape? (cs : Input) : Option (Char × Input) := do
  let (hi, rest) ← hexUnit? cs
  if 0xD800 ≤ hi ∧ hi < 0xDC00 then
    match rest with
    | '\\' :: 'u' :: rest =>
      let (lo, rest) ← hexUnit? rest
      if 0xDC00 ≤ lo ∧ lo < 0xE000 then
        some (Char.ofNat (0x10000 + (hi - 0xD800) * 0x400 + (lo - 0xDC00)), rest)
      else none
    | _ => none
  else if 0xDC00 ≤ hi ∧ hi < 0xE000 then none
  else some (Char.ofNat hi, rest)

/-- The character of a one-letter escape. -/
def shortEscape? : Char → Option Char
  | '"' => some '"'
  | '\\' => some '\\'
  | '/' => some '/'
  | 'b' => some (Char.ofNat 8)
  | 'f' => some (Char.ofNat 12)
  | 'n' => some '\n'
  | 'r' => some '\r'
  | 't' => some '\t'
  | _ => none

/-- The characters of a string up to its closing quote, collected in reverse. -/
def chars? : Nat → Input → List Char → Option (String × Input)
  | 0, _, _ => none
  | _ + 1, '"' :: rest, acc => some (String.ofList acc.reverse, rest)
  | fuel + 1, '\\' :: 'u' :: rest, acc => do
    let (c, rest) ← unicodeEscape? rest
    chars? fuel rest (c :: acc)
  | fuel + 1, '\\' :: e :: rest, acc => do
    let c ← shortEscape? e
    chars? fuel rest (c :: acc)
  | fuel + 1, c :: rest, acc => if c.toNat < 32 then none else chars? fuel rest (c :: acc)
  | _ + 1, [], _ => none

/-- The digits at the start of the input. -/
def digits (cs : Input) : List Char × Input := cs.span Char.isDigit

/-- The number that digits spell. -/
def digitsValue (ds : List Char) : Nat := ds.foldl (fun n c => n * 10 + (c.toNat - '0'.toNat)) 0

/-- An exponent, if one follows: its sign and its digits. -/
def exponent? : Input → Option (Option Int × Input)
  | c :: rest =>
    if c = 'e' ∨ c = 'E' then
      let (neg, rest) :=
        match rest with
        | '-' :: r => (true, r)
        | '+' :: r => (false, r)
        | r => (false, r)
      match digits rest with
      | ([], _) => none
      | (ds, rest) =>
        let n : Int := digitsValue ds
        some (some (if neg then -n else n), rest)
    else some (none, c :: rest)
  | [] => some (none, [])

/-- The digits after a point, if one follows. -/
def fraction? : Input → Option (Option (List Char) × Input)
  | '.' :: rest =>
    match digits rest with
    | ([], _) => none
    | (ds, rest) => some (some ds, rest)
  | cs => some (none, cs)

/-- The number of a sign, the digits before and after the point, and an exponent. -/
def number? (neg : Bool) (whole : List Char) (frac : Option (List Char)) (exp : Option Int) :
    Option Json :=
  match frac, exp with
  | none, none =>
    let n : Int := digitsValue whole
    if neg ∧ n = 0 then some (.float ⟨true, 0⟩)
    else
      let n := if neg then -n else n
      if Fits n then some (.int n) else ((Decimal.ofLiteral whole [] 0).toBinary64? neg).map .float
  | frac, exp =>
    ((Decimal.ofLiteral whole (frac.getD []) (exp.getD 0)).toBinary64? neg).map .float

/-- A number literal. -/
def numberLiteral? (cs : Input) : Option (Json × Input) := do
  let (neg, cs) := match cs with
    | '-' :: r => (true, r)
    | r => (false, r)
  let (whole, rest) ← match digits cs with
    | ([], _) => none
    | ('0' :: _ :: _, _) => none
    | (ds, rest) => some (ds, rest)
  let (frac, rest) ← fraction? rest
  let (exp, rest) ← exponent? rest
  let v ← number? neg whole frac exp
  some (v, rest)

mutual

/-- A value and what follows it. -/
def value? : Nat → Input → Option (Json × Input)
  | 0, _ => none
  | fuel + 1, cs =>
    match skip cs with
    | '"' :: rest => (chars? (rest.length + 1) rest []).map fun (s, rest) => (.str s, rest)
    | '[' :: rest =>
      match skip rest with
      | ']' :: rest => some (.arr [], rest)
      | rest => (elems? fuel rest []).map fun (xs, rest) => (.arr xs, rest)
    | '{' :: rest =>
      match skip rest with
      | '}' :: rest => some (.obj [], rest)
      | rest => (members? fuel rest []).map fun (fs, rest) => (.obj (Fields.ofList fs), rest)
    | 't' :: rest => (word? ['r', 'u', 'e'] rest).map fun rest => (.bool true, rest)
    | 'f' :: rest => (word? ['a', 'l', 's', 'e'] rest).map fun rest => (.bool false, rest)
    | 'n' :: rest => (word? ['u', 'l', 'l'] rest).map fun rest => (.null, rest)
    | cs => numberLiteral? cs

/-- The elements of a list up to its closing bracket, collected in reverse. -/
def elems? : Nat → Input → List Json → Option (List Json × Input)
  | 0, _, _ => none
  | fuel + 1, cs, acc => do
    let (v, rest) ← value? fuel cs
    match skip rest with
    | ',' :: rest => elems? fuel rest (v :: acc)
    | ']' :: rest => some ((v :: acc).reverse, rest)
    | _ => none

/-- The members of an object up to its closing brace, collected in reverse. -/
def members? : Nat → Input → List (String × Json) → Option (List (String × Json) × Input)
  | 0, _, _ => none
  | fuel + 1, cs, acc =>
    match skip cs with
    | '"' :: rest => do
      let (key, rest) ← chars? (rest.length + 1) rest []
      match skip rest with
      | ':' :: rest =>
        let (v, rest) ← value? fuel rest
        match skip rest with
        | ',' :: rest => members? fuel rest ((key, v) :: acc)
        | '}' :: rest => some (((key, v) :: acc).reverse, rest)
        | _ => none
      | _ => none
    | _ => none

end

end Reader

/-- Reads a JSON text. -/
def read? (text : String) : Option Json :=
  let cs := text.toList
  match Reader.value? (cs.length + 1) cs with
  | some (v, rest) => if (Reader.skip rest).isEmpty then some v else none
  | none => none

end EntityGraph.Json
