import EntityGraph.Toml.Scalar

/-!
Reading TOML documents. A table is opened once by a header; a table that only lies on the way to
another may still be opened, which moves it to the end of the table that holds it. A key is written
into a table made by the same kind of key: dotted keys write into tables that dotted keys made, and
simple keys into the others. Values in one line, and the tables and arrays inside them, are closed
when they are written.
-/

namespace EntityGraph.Toml

/-! ### Tables under construction -/

/-- How a table came to be. -/
inductive Origin where
  | onTheWay
  | header
  | dotted
deriving DecidableEq, Repr

/-- A place in a document under construction: a finished value, a table, or a list of tables of
which the last is open. -/
inductive Place where
  | value (v : Toml)
  | table (origin : Origin) (fields : List (String × Place))
  | tables (done : List (List (String × Place))) (last : List (String × Place))
deriving Inhabited

mutual

/-- The value of a place. -/
def Place.close : Place → Toml
  | .value v => v
  | .table _ fs => .table (closeFields fs)
  | .tables done last => .arr (closeTables done ++ [.table (closeFields last)])

def closeFields : List (String × Place) → List (String × Toml)
  | [] => []
  | (k, p) :: fs => (k, p.close) :: closeFields fs

def closeTables : List (List (String × Place)) → List Toml
  | [] => []
  | fs :: rest => .table (closeFields fs) :: closeTables rest

end

/-- The fields of a document. -/
abbrev Table := List (String × Place)

/-- Changes the table at the end of a path of keys, which starts at the given table. A key that
is absent becomes a table of the given origin. Dotted keys do not lead into a table that a header
opened. -/
def changeAt (made : Origin) (f : Origin → Table → Option Table) :
    List String → Origin → Table → Option Table
  | [], o, t => f o t
  | k :: ks, _, t =>
    match Fields.get? t k with
    | none => (changeAt made f ks made []).map fun u => Fields.insert t k (.table made u)
    | some (.table o u) =>
      if made = .dotted ∧ o = .header then none
      else (changeAt made f ks o u).map fun u => Fields.insert t k (.table o u)
    | some (.tables done last) =>
      (changeAt made f ks .header last).map fun last => Fields.insert t k (.tables done last)
    | some (.value _) => none

/-- Opens a table by its header. -/
def openTable (key : String) (t : Table) : Option Table :=
  match Fields.get? t key with
  | none => some (Fields.insert t key (.table .header []))
  | some (.table .onTheWay u) => some (Fields.insert (Fields.erase t key) key (.table .header u))
  | some _ => none

/-- Opens the next table of a list by its header. -/
def openNext (key : String) (t : Table) : Option Table :=
  match Fields.get? t key with
  | none => some (Fields.insert t key (.tables [] []))
  | some (.tables done last) => some (Fields.insert t key (.tables (done ++ [last]) []))
  | some _ => none

/-- Writes a value under a key that is not written yet. -/
def writeNew (v : Toml) (key : String) (t : Table) : Option Table :=
  match Fields.get? t key with
  | none => some (Fields.insert t key (.value v))
  | some _ => none

/-- Writes a value under a simple or dotted key of a table that a header opened. -/
def assign (v : Toml) (path : List String) (t : Table) : Option Table :=
  match path.getLast? with
  | none => none
  | some key =>
    let way := path.dropLast
    let made : Origin := if way.isEmpty then .header else .dotted
    changeAt made (fun o t => if (o = .dotted) = (made = .dotted) then writeNew v key t else none)
      way .header t

/-! ### Keys -/

/-- A character of a key without quotes. -/
def isKeyChar (c : Char) : Bool := c.isAlphanum || c = '_' || c = '-'

/-- A simple key: bare, or a string of one line. -/
def simpleKey? : Input → Option (String × Input)
  | '"' :: rest => basicString? (rest.length + 1) rest []
  | '\'' :: rest => literalString? rest
  | cs =>
    match cs.span isKeyChar with
    | ([], _) => none
    | (k, rest) => some (String.ofList k, rest)

/-- How many keys a dotted key may join, and how deep arrays and tables may be nested in a
value. -/
def depthLimit : Nat := 80

/-- A dotted key of a limited number of keys. Blanks may stand around the dots. -/
def keys? : Nat → Input → Option (List String × Input)
  | 0, _ => none
  | left + 1, cs => do
    let (k, rest) ← simpleKey? (skipBlanks cs)
    match skipBlanks rest with
    | '.' :: rest =>
      let (ks, rest) ← keys? left rest
      some (k :: ks, rest)
    | rest => some ([k], rest)

/-- A dotted key. -/
def key? (cs : Input) : Option (List String × Input) := keys? depthLimit cs

/-! ### Values -/

mutual

/-- A value and what follows it. The first number limits the steps of reading, and the second one
the nesting of arrays and tables. -/
def value? : Nat → Nat → Input → Option (Toml × Input)
  | 0, _, _ => none
  | fuel + 1, depth, cs =>
    match cs, depth with
    | '"' :: _, _ => (string? cs).map fun (s, rest) => (.str s, rest)
    | '\'' :: _, _ => (string? cs).map fun (s, rest) => (.str s, rest)
    | '[' :: rest, depth + 1 => (array? fuel depth rest []).map fun (xs, rest) => (.arr xs, rest)
    | '{' :: rest, depth + 1 =>
      (inlineTable? fuel depth rest []).map fun (t, rest) => (.table (closeFields t), rest)
    | cs, _ => bareScalar? cs

/-- The elements of an array up to its closing bracket, collected in reverse. -/
def array? : Nat → Nat → Input → List Toml → Option (List Toml × Input)
  | 0, _, _, _ => none
  | fuel + 1, depth, cs, acc => do
    let cs ← skipLines? (cs.length + 1) cs
    match cs with
    | ']' :: rest => some (acc.reverse, rest)
    | cs =>
      let (v, rest) ← value? fuel depth cs
      let rest ← skipLines? (rest.length + 1) rest
      match rest with
      | ',' :: rest => array? fuel depth rest (v :: acc)
      | ']' :: rest => some ((v :: acc).reverse, rest)
      | _ => none

/-- The fields of an inline table up to its closing brace. -/
def inlineTable? : Nat → Nat → Input → Table → Option (Table × Input)
  | 0, _, _, _ => none
  | fuel + 1, depth, cs, t => do
    let cs ← skipLines? (cs.length + 1) cs
    match cs with
    | '}' :: rest => some (t, rest)
    | cs =>
      let (ks, rest) ← key? cs
      match rest with
      | '=' :: rest =>
        let (v, rest) ← value? fuel depth (skipBlanks rest)
        let t ← assign v ks t
        let rest ← skipLines? (rest.length + 1) rest
        match rest with
        | ',' :: rest => inlineTable? fuel depth rest t
        | '}' :: rest => some (t, rest)
        | _ => none
      | _ => none

end

/-! ### Lines -/

/-- The end of a line: blanks, a comment, and a line end or the end of the document. -/
def lineEnd? (cs : Input) : Option Input := do
  let rest ← comment? (skipBlanks cs)
  match rest with
  | [] => some []
  | rest => newline? rest

/-- The state between two lines: the document so far, and the table the keys go to. -/
structure Progress where
  root : Table
  current : List String

/-- Changes the table of the last header. -/
def Progress.change (p : Progress) (f : Table → Option Table) : Option Progress :=
  (changeAt .onTheWay (fun _ t => f t) p.current .header p.root).map fun root => { p with root }

/-- Opens a table at a path: all but the last key lead to the table that holds it. -/
def Progress.openAt (p : Progress) (path : List String) (f : String → Table → Option Table) :
    Option Progress :=
  match path.getLast? with
  | none => none
  | some k =>
    (changeAt .onTheWay (fun _ t => f k t) path.dropLast .header p.root).map fun root =>
      ⟨root, path⟩

/-- Reads one line. -/
def line? (cs : Input) (p : Progress) : Option (Progress × Input) :=
  match skipBlanks cs with
  | '[' :: '[' :: rest => do
    let (path, rest) ← key? rest
    match rest with
    | ']' :: ']' :: rest =>
      let p ← p.openAt path openNext
      let rest ← lineEnd? rest
      some (p, rest)
    | _ => none
  | '[' :: rest => do
    let (path, rest) ← key? rest
    match rest with
    | ']' :: rest =>
      let p ← p.openAt path openTable
      let rest ← lineEnd? rest
      some (p, rest)
    | _ => none
  | cs => do
    let (path, rest) ← key? cs
    match rest with
    | '=' :: rest =>
      let (v, rest) ← value? (rest.length + 1) depthLimit (skipBlanks rest)
      let p ← p.change (assign v path)
      let rest ← lineEnd? rest
      some (p, rest)
    | _ => none

/-- Reads lines up to the end of the document. -/
def lines? : Nat → Input → Progress → Option Progress
  | 0, _, _ => none
  | fuel + 1, cs, p => do
    let cs ← skipLines? (cs.length + 1) cs
    if cs.isEmpty then some p
    else
      let (p, rest) ← line? cs p
      lines? fuel rest p

/-- A byte order mark at the start is not part of the document. -/
def dropMark : Input → Input
  | c :: rest => if c.toNat = 0xFEFF then rest else c :: rest
  | [] => []

/-- Reads a document. -/
def read? (text : String) : Option (List (String × Toml)) :=
  let cs := dropMark text.toList
  (lines? (cs.length + 1) cs ⟨[], []⟩).map fun p => closeFields p.root

end EntityGraph.Toml
