import EntityGraph.Toml.Basic
import EntityGraph.Json.Reader
import EntityGraph.Timestamp

/-!
The scalars of TOML: strings in their four forms, and the numbers, booleans, dates and times that
are written without quotes.
-/

namespace EntityGraph.Toml

open Json.Reader (hexValue?)

/-- What is left to read. -/
abbrev Input := List Char

/-! ### Characters -/

/-- Blanks inside a line. -/
def isBlank (c : Char) : Bool := c = ' ' || c = '\t'

/-- Control characters, which only the tab may break. -/
def isControl (c : Char) : Bool := (c.toNat < 32 && c ≠ '\t') || c.toNat = 127

/-- Skips blanks. -/
def skipBlanks (cs : Input) : Input := cs.dropWhile isBlank

/-- A line end, if one follows. -/
def newline? : Input → Option Input
  | '\n' :: rest => some rest
  | '\r' :: '\n' :: rest => some rest
  | _ => none

/-- Skips a comment up to the end of its line. Control characters are refused. -/
def comment? : Input → Option Input
  | '#' :: rest =>
    let rest := rest.dropWhile fun c => !isControl c
    match rest with
    | [] => some []
    | '\n' :: _ => some rest
    | '\r' :: '\n' :: _ => some rest
    | _ => none
  | cs => some cs

/-- Skips blanks, comments and line ends. -/
def skipLines? : Nat → Input → Option Input
  | 0, _ => none
  | fuel + 1, cs => do
    let rest ← comment? (skipBlanks cs)
    match newline? rest with
    | some rest => skipLines? fuel rest
    | none => some rest

/-! ### Strings -/

/-- The number that hexadecimal digits spell, of a fixed count. -/
def hexNumber? : Nat → Input → Nat → Option (Nat × Input)
  | 0, cs, acc => some (acc, cs)
  | n + 1, c :: cs, acc => do
    let d ← hexValue? c
    hexNumber? n cs (acc * 16 + d)
  | _ + 1, [], _ => none

/-- The character of a code point that is one. -/
def scalarChar? (n : Nat) : Option Char :=
  if h : n.isValidChar then some (Char.ofNatAux n h) else none

/-- The character of an escape, after its backslash. -/
def escape? : Input → Option (Char × Input)
  | 'b' :: rest => some (Char.ofNat 8, rest)
  | 't' :: rest => some ('\t', rest)
  | 'n' :: rest => some ('\n', rest)
  | 'f' :: rest => some (Char.ofNat 12, rest)
  | 'r' :: rest => some ('\r', rest)
  | 'e' :: rest => some (Char.ofNat 27, rest)
  | '"' :: rest => some ('"', rest)
  | '\\' :: rest => some ('\\', rest)
  | 'x' :: rest => (hexNumber? 2 rest 0).bind fun (n, rest) => (scalarChar? n).map (·, rest)
  | 'u' :: rest => (hexNumber? 4 rest 0).bind fun (n, rest) => (scalarChar? n).map (·, rest)
  | 'U' :: rest => (hexNumber? 8 rest 0).bind fun (n, rest) => (scalarChar? n).map (·, rest)
  | _ => none

/-- A string of one line with escapes, after its opening quote. -/
def basicString? : Nat → Input → List Char → Option (String × Input)
  | 0, _, _ => none
  | _ + 1, '"' :: rest, acc => some (String.ofList acc.reverse, rest)
  | fuel + 1, '\\' :: rest, acc => do
    let (c, rest) ← escape? rest
    basicString? fuel rest (c :: acc)
  | fuel + 1, c :: rest, acc => if isControl c then none else basicString? fuel rest (c :: acc)
  | _ + 1, [], _ => none

/-- A string of one line without escapes, after its opening quote. -/
def literalString? (cs : Input) : Option (String × Input) :=
  match cs.span fun c => !isControl c && c ≠ '\'' with
  | (s, '\'' :: rest) => some (String.ofList s, rest)
  | _ => none

/-- The quotes at the start of the input, at most five. -/
def quoteRun (q : Char) (cs : Input) : Nat := ((cs.take 5).takeWhile (· = q)).length

/-- Skips blanks and line ends. -/
def skipEmptyLines : Nat → Input → Input
  | 0, cs => cs
  | fuel + 1, cs =>
    let rest := skipBlanks cs
    match newline? rest with
    | some rest => skipEmptyLines fuel rest
    | none => rest

/-- The input after a backslash at the end of a line: the blanks and line ends that follow are
dropped. -/
def continuation? (cs : Input) : Option Input :=
  (newline? (skipBlanks cs)).map fun rest => skipEmptyLines (rest.length + 1) rest

/-- A string of several lines, after its three opening quotes. Up to two quotes may stand before
the closing three, and a line end is kept in the form it is written in. -/
def longString? (q : Char) (escapes : Bool) : Nat → Input → List Char → Option (String × Input)
  | 0, _, _ => none
  | fuel + 1, cs, acc =>
    let run := quoteRun q cs
    if 3 ≤ run then
      some (String.ofList (List.replicate (run - 3) q ++ acc).reverse, cs.drop run)
    else
      match cs with
      | [] => none
      | c :: rest =>
        if c = '\\' && escapes then
          match continuation? rest with
          | some rest => longString? q escapes fuel rest acc
          | none => do
            let (c, rest) ← escape? rest
            longString? q escapes fuel rest (c :: acc)
        else
          match c, rest with
          | '\n', rest => longString? q escapes fuel rest ('\n' :: acc)
          | '\r', '\n' :: rest => longString? q escapes fuel rest ('\n' :: '\r' :: acc)
          | c, rest => if isControl c then none else longString? q escapes fuel rest (c :: acc)

/-- The line end right after the opening quotes of a long string is not part of it. -/
def dropNewline (cs : Input) : Input := (newline? cs).getD cs

/-- A string in one of the four forms. -/
def string? : Input → Option (String × Input)
  | '"' :: '"' :: '"' :: rest => longString? '"' true (rest.length + 1) (dropNewline rest) []
  | '\'' :: '\'' :: '\'' :: rest => longString? '\'' false (rest.length + 1) (dropNewline rest) []
  | '"' :: rest => basicString? (rest.length + 1) rest []
  | '\'' :: rest => literalString? rest
  | _ => none

/-! ### Numbers -/

/-- Digits of a base with single underscores between them. -/
def digits? (isDigit : Char → Bool) : List Char → Option (List Char)
  | [] => none
  | [c] => if isDigit c then some [c] else none
  | c :: '_' :: rest => if isDigit c then (digits? isDigit rest).map (c :: ·) else none
  | c :: rest => if isDigit c then (digits? isDigit rest).map (c :: ·) else none

/-- The number that digits of a base spell. -/
def based (base : Nat) (ds : List Char) : Nat :=
  ds.foldl (fun n c => n * base + (hexValue? c).getD 0) 0

/-- A sign and what follows it. -/
def sign : List Char → Bool × List Char
  | '-' :: rest => (true, rest)
  | '+' :: rest => (false, rest)
  | cs => (false, cs)

/-- The integer of a sign and a magnitude, if it fits 128 bits with a sign or without. -/
def integer? (neg : Bool) (n : Nat) : Option Toml :=
  let n : Int := if neg then -(n : Int) else n
  if -170141183460469231731687303715884105728 ≤ n ∧ n < 340282366920938463463374607431768211456 then
    some (.int n)
  else none

/-- Decimal digits without a leading zero. -/
def decimal? (cs : List Char) : Option (List Char) := do
  let ds ← digits? Char.isDigit cs
  match ds with
  | '0' :: _ :: _ => none
  | ds => some ds

/-- A number with a fraction or an exponent. -/
def float? (neg : Bool) (cs : List Char) : Option Toml := do
  let (whole, rest) := cs.span fun c => c ≠ '.' && c ≠ 'e' && c ≠ 'E'
  let whole ← decimal? whole
  let (frac, rest) ← match rest with
    | '.' :: rest =>
      let (frac, rest) := rest.span fun c => c ≠ 'e' && c ≠ 'E'
      (digits? Char.isDigit frac).map (·, rest)
    | rest => some ([], rest)
  let exp : Int ← match rest with
    | [] => some 0
    | _ :: rest =>
      let (neg, rest) := sign rest
      (digits? Char.isDigit rest).map fun ds =>
        let n : Int := based 10 ds
        if neg then -n else n
  (Binary64.ofDecimal? neg (based 10 (whole ++ frac)) (exp - frac.length)).map .float

/-- A number without quotes. -/
def number? (cs : List Char) : Option Toml :=
  match cs with
  | '0' :: 'x' :: ds => (digits? (fun c => (hexValue? c).isSome) ds).bind (integer? false ∘ based 16)
  | '0' :: 'o' :: ds => (digits? (fun c => '0' ≤ c && c ≤ '7') ds).bind (integer? false ∘ based 8)
  | '0' :: 'b' :: ds => (digits? (fun c => c = '0' || c = '1') ds).bind (integer? false ∘ based 2)
  | cs =>
    let (neg, body) := sign cs
    if body = ['i', 'n', 'f'] ∨ body = ['n', 'a', 'n'] then some .nonFinite
    else
      match decimal? body with
      | some ds => integer? neg (based 10 ds)
      | none => float? neg body

/-! ### Dates and times -/

open Timestamp (pair? mark?)

/-- Two places of a number. -/
def twoPlaces (n : Nat) : List Char := [Nat.digitChar (n / 10 % 10), Nat.digitChar (n % 10)]

/-- A date, as it is written out. -/
def datePart? (cs : List Char) : Option (List Char × List Char) := do
  let (century, cs) ← pair? cs
  let (years, cs) ← pair? cs
  let cs ← mark? '-' cs
  let (month, cs) ← pair? cs
  let cs ← mark? '-' cs
  let (day, cs) ← pair? cs
  if 1 ≤ month ∧ month ≤ 12 ∧ 1 ≤ day ∧
      day ≤ Calendar.daysInMonth (100 * century + years) month then
    some (twoPlaces century ++ twoPlaces years ++ '-' :: twoPlaces month ++ '-' :: twoPlaces day, cs)
  else none

/-- The fraction of a second to nine places, without the zeros at its end; nothing for zero. -/
def fractionText (ds : List Char) : List Char :=
  let ds := ((ds.take 9).reverse.dropWhile (· = '0')).reverse
  if ds.isEmpty then [] else '.' :: ds

/-- Optional seconds with an optional fraction. The seconds are written out in any case. -/
def secondsPart? : List Char → Option (List Char × List Char)
  | ':' :: cs => do
    let (second, cs) ← pair? cs
    if second ≤ 60 then
      match cs with
      | '.' :: cs =>
        match cs.span Char.isDigit with
        | ([], _) => none
        | (ds, cs) => some (':' :: twoPlaces second ++ fractionText ds, cs)
      | cs => some (':' :: twoPlaces second, cs)
    else none
  | cs => some (':' :: twoPlaces 0, cs)

/-- A time of day, as it is written out. -/
def timePart? (cs : List Char) : Option (List Char × List Char) := do
  let (hour, cs) ← pair? cs
  let cs ← mark? ':' cs
  let (minute, cs) ← pair? cs
  let (seconds, cs) ← secondsPart? cs
  if hour ≤ 23 ∧ minute ≤ 59 then some (twoPlaces hour ++ ':' :: twoPlaces minute ++ seconds, cs)
  else none

/-- An optional offset up to the end, as it is written out. An offset of zero has a plus sign. -/
def offsetPart? : List Char → Option (List Char)
  | [] => some []
  | ['Z'] => some ['Z']
  | ['z'] => some ['Z']
  | s :: cs => do
    let (hour, cs) ← pair? cs
    let cs ← mark? ':' cs
    let (minute, cs) ← pair? cs
    if (s = '+' ∨ s = '-') ∧ hour ≤ 23 ∧ minute ≤ 59 ∧ cs = [] then
      let s := if hour = 0 ∧ minute = 0 then '+' else s
      some (s :: twoPlaces hour ++ ':' :: twoPlaces minute)
    else none

/-- A character between a date and a time. -/
def isDateMark (c : Char) : Bool := c = 'T' || c = 't' || c = ' '

/-- A date, a time, or a date and a time with an optional offset. -/
def date? (cs : List Char) : Option Toml :=
  match datePart? cs with
  | some (day, []) => some (.date (String.ofList day))
  | some (day, m :: rest) => do
    let (time, rest) ← timePart? rest
    let offset ← offsetPart? rest
    if isDateMark m then some (.date (String.ofList (day ++ 'T' :: time ++ offset))) else none
  | none =>
    match timePart? cs with
    | some (time, []) => some (.date (String.ofList time))
    | _ => none

/-! ### Scalars without quotes -/

/-- A character that may stand in a scalar without quotes. -/
def isBare (c : Char) : Bool :=
  c.isAlphanum || c = '_' || c = '-' || c = '+' || c = '.' || c = ':'

/-- The characters of a scalar without quotes. A date and a time may have a blank between
them. -/
def bareRun (cs : Input) : List Char × Input :=
  let (run, rest) := cs.span isBare
  match rest with
  | ' ' :: d :: more =>
    if run.length = 10 ∧ (datePart? run).isSome ∧ d.isDigit then
      let (time, rest) := (d :: more).span isBare
      (run ++ ' ' :: time, rest)
    else (run, rest)
  | _ => (run, rest)

/-- A scalar without quotes. -/
def bareScalar? (cs : Input) : Option (Toml × Input) :=
  let (run, rest) := bareRun cs
  let v :=
    if run = ['t', 'r', 'u', 'e'] then some (.bool true)
    else if run = ['f', 'a', 'l', 's', 'e'] then some (.bool false)
    else
      match date? run with
      | some v => some v
      | none => number? run
  v.map (·, rest)

end EntityGraph.Toml
