import EntityGraph.Document.Lexical

/-!
Reading documents. Every function answers what it read and what follows; a list that opens has to
close, and only the argument list and the selections may not be empty.
-/

namespace EntityGraph.Document.Reader

open Lexical

/-! ### Types -/

/-- The type with the mark that follows it. -/
def marked (t : TypeRef) : Input → TypeRef × Input
  | '!' :: rest => (.nonNull t, rest)
  | rest => (t, rest)

/-- A type. No blanks may stand inside it. -/
def bareType? : Input → Option (TypeRef × Input)
  | '[' :: cs =>
    match bareType? cs with
    | some (t, ']' :: rest) => some (marked (.list t) rest)
    | _ => none
  | cs => (bareName? cs).map fun (n, rest) => marked (.named n) rest

/-! ### Values -/

/-- The literal of a word that is not a variable. -/
def wordLiteral? (cs : Input) : Option (Literal × Input) :=
  match word? "true" cs, word? "false" cs, word? "null" cs with
  | some rest, _, _ => some (.bool true, rest)
  | _, some rest, _ => some (.bool false, rest)
  | _, _, some rest => some (.null, rest)
  | _, _, _ => (name? cs).map fun (n, rest) => (.item n, rest)

mutual

/-- A value. -/
def value? : Nat → Input → Option (Literal × Input)
  | 0, _ => none
  | fuel + 1, cs =>
    match skip cs with
    | '$' :: rest => (name? rest).map fun (n, rest) => (.variable n, rest)
    | '"' :: rest => (string? rest).map fun (s, rest) => (.str s, rest)
    | '[' :: rest => (elems? fuel rest []).map fun (ls, rest) => (.list ls, rest)
    | '{' :: rest =>
      (members? fuel rest []).map fun (fs, rest) => (.object (Fields.ofList fs), rest)
    | c :: rest =>
      if c = '-' ∨ c.isDigit then number? (c :: rest) else wordLiteral? (c :: rest)
    | [] => none

/-- The values of a list up to its closing bracket, collected in reverse. -/
def elems? : Nat → Input → List Literal → Option (List Literal × Input)
  | 0, _, _ => none
  | fuel + 1, cs, acc =>
    match skip cs with
    | ']' :: rest => some (acc.reverse, rest)
    | cs => do
      let (l, rest) ← value? fuel cs
      elems? fuel rest (l :: acc)

/-- The fields of an object up to its closing brace, collected in reverse. -/
def members? : Nat → Input → List (String × Literal) → Option (List (String × Literal) × Input)
  | 0, _, _ => none
  | fuel + 1, cs, acc =>
    match skip cs with
    | '}' :: rest => some (acc.reverse, rest)
    | cs => do
      let (n, rest) ← name? cs
      let rest ← word? ":" rest
      let (l, rest) ← value? fuel rest
      members? fuel rest ((n, l) :: acc)

end

/-- A value, with as many steps as there are characters. -/
def literal? (cs : Input) : Option (Literal × Input) := value? (cs.length + 1) cs

/-- A value without variables. -/
def constant? (cs : Input) : Option (Value × Input) := do
  let (l, rest) ← literal? cs
  let v ← l.constant?
  some (v, rest)

/-! ### Arguments and directives -/

/-- Arguments up to the closing parenthesis, collected in reverse. There is at least one. -/
def argumentList? : Nat → Input → List (String × Literal) →
    Option (List (String × Literal) × Input)
  | 0, _, _ => none
  | fuel + 1, cs, acc => do
    let (n, rest) ← name? cs
    let rest ← word? ":" rest
    let (l, rest) ← literal? rest
    match skip rest with
    | ')' :: rest => some (((n, l) :: acc).reverse, rest)
    | rest => argumentList? fuel rest ((n, l) :: acc)

/-- Arguments, if there are any. -/
def arguments? (cs : Input) : Option (List (String × Literal) × Input) :=
  match skip cs with
  | '(' :: rest => argumentList? (rest.length + 1) rest []
  | rest => some ([], rest)

/-- Directives, collected in reverse. -/
def directiveList? : Nat → Input → List Directive → Option (List Directive × Input)
  | 0, _, _ => none
  | fuel + 1, cs, acc =>
    match skip cs with
    | '@' :: rest => do
      let (n, rest) ← name? rest
      let (args, rest) ← arguments? rest
      directiveList? fuel rest (⟨n, args⟩ :: acc)
    | rest => some (acc.reverse, rest)

/-- Directives, if there are any. -/
def directives? (cs : Input) : Option (List Directive × Input) :=
  directiveList? (cs.length + 1) cs []

/-! ### Selections -/

/-- The type that a fragment is on, when one is named. -/
def typeCondition? (cs : Input) : Option (String × Input) := do
  let rest ← word? "on" cs
  apartName? rest

/-- A name, and the name after a colon if there is one. -/
def aliasedName? (cs : Input) : Option (Option String × String × Input) := do
  let (n, rest) ← name? cs
  match word? ":" rest with
  | some rest => do
    let (m, rest) ← name? rest
    some (some n, m, rest)
  | none => some (none, n, rest)

/-- The fragment of a name, given what follows the three points. -/
def spread? (cs : Input) : Option (Selection × Input) := do
  let (n, rest) ← name? cs
  let (ds, rest) ← directives? rest
  some (.spread n ds, rest)

mutual

/-- Selections in braces. -/
def selectionSet? : Nat → Input → Option (List Selection × Input)
  | 0, _ => none
  | fuel + 1, cs =>
    match skip cs with
    | '{' :: rest => selections? fuel rest []
    | _ => none

/-- Selections up to the closing brace, collected in reverse. There is at least one. -/
def selections? : Nat → Input → List Selection → Option (List Selection × Input)
  | 0, _, _ => none
  | fuel + 1, cs, acc => do
    let (s, rest) ← selection? fuel cs
    match skip rest with
    | '}' :: rest => some ((s :: acc).reverse, rest)
    | rest => selections? fuel rest (s :: acc)

/-- One selection. -/
def selection? : Nat → Input → Option (Selection × Input)
  | 0, _ => none
  | fuel + 1, cs =>
    match word? "..." cs with
    | some rest => fragment? fuel rest
    | none => do
      let (aliasName, n, rest) ← aliasedName? cs
      let (args, rest) ← arguments? rest
      let (ds, rest) ← directives? rest
      match skip rest with
      | '{' :: rest =>
        let (ss, rest) ← selectionSet? fuel ('{' :: rest)
        some (.field aliasName n args ds ss, rest)
      | rest => some (.field aliasName n args ds [], rest)

/-- A fragment in place or by name, given what follows the three points. -/
def fragment? : Nat → Input → Option (Selection × Input)
  | 0, _ => none
  | fuel + 1, cs =>
    match typeCondition? cs with
    | some (n, rest) => do
      let (ds, rest) ← directives? rest
      let (ss, rest) ← selectionSet? fuel rest
      some (.inline (some n) ds ss, rest)
    | none =>
      match directives? cs with
      | some (ds, rest) =>
        match selectionSet? fuel rest with
        | some (ss, rest) => some (.inline none ds ss, rest)
        | none => spread? cs
      | none => spread? cs

end

/-- Selections in braces, with as many steps as there are characters. -/
def selections (cs : Input) : Option (List Selection × Input) :=
  selectionSet? (3 * cs.length + 3) cs

/-! ### Definitions -/

/-- The value after an equals sign, if there is one. -/
def default? (cs : Input) : Option (Option Value × Input) :=
  match word? "=" cs with
  | some rest => (constant? rest).map fun (v, rest) => (some v, rest)
  | none => some (none, cs)

/-- The declarations of variables up to the closing parenthesis, collected in reverse. -/
def variableList? : Nat → Input → List VariableDef → Option (List VariableDef × Input)
  | 0, _, _ => none
  | fuel + 1, cs, acc =>
    match skip cs with
    | ')' :: rest => some (acc.reverse, rest)
    | '$' :: rest => do
      let (name, rest) ← name? rest
      let rest ← word? ":" rest
      let (type, rest) ← bareType? (skip rest)
      let (directives, rest) ← directives? rest
      let (default, rest) ← default? rest
      variableList? fuel rest ({ name, type, default, directives } :: acc)
    | _ => none

/-- The declarations of variables, if there are any. -/
def declared? (cs : Input) : Option (List VariableDef × Input) :=
  match skip cs with
  | '(' :: rest => variableList? (rest.length + 1) rest []
  | rest => some ([], rest)

/-- A name, if there is one. -/
def optionalName (cs : Input) : Option String × Input :=
  match name? cs with
  | some (n, rest) => (some n, rest)
  | none => (none, cs)

/-- What follows the kind of an operation. -/
def operation? (kind : OperationKind) (cs : Input) : Option (Definition × Input) := do
  let (name, rest) := optionalName cs
  let (declared, rest) ← declared? rest
  let (directives, rest) ← directives? rest
  let (selections, rest) ← selections rest
  some (.operation { kind, name, declared, directives, selections }, rest)

/-- What follows the word of a fragment. -/
def fragmentDef? (cs : Input) : Option (Definition × Input) := do
  let (name, rest) ← name? cs
  let (on, rest) ← typeCondition? rest
  let (directives, rest) ← directives? rest
  let (selections, rest) ← selections rest
  some (.fragment { name, on, directives, selections }, rest)

/-- One definition. A query without a name may be its selections alone. -/
def definition? (cs : Input) : Option (Definition × Input) :=
  match word? "query" cs, word? "mutation" cs, word? "subscription" cs, word? "fragment" cs with
  | some rest, _, _, _ => operation? .query rest
  | _, some rest, _, _ => operation? .mutation rest
  | _, _, some rest, _ => operation? .subscription rest
  | _, _, _, some rest => fragmentDef? rest
  | _, _, _, _ => do
    let (ss, rest) ← selections cs
    some (.operation ⟨.query, none, [], [], ss⟩, rest)

/-- Definitions up to the end, collected in reverse. -/
def definitions? : Nat → Input → List Definition → Option (List Definition)
  | 0, _, _ => none
  | fuel + 1, cs, acc =>
    match skip cs with
    | [] => some acc.reverse
    | cs => do
      let (d, rest) ← definition? cs
      definitions? fuel rest (d :: acc)

end Reader

/-- How many selections may stand around each other in one definition. -/
def readingLimit : Nat := 65

/-- Reads a document. -/
def read? (text : String) : Option Document := do
  let cs := text.toList
  let ds ← Reader.definitions? (cs.length + 1) cs []
  if ds.all fun d => Selection.nestingAll d.selections ≤ readingLimit then ofDefinitions? ds
  else none

end EntityGraph.Document
