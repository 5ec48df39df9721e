import EntityGraph.Document.Reader
import EntityGraph.Execution.Selection

/-!
Answering requests. A request is read, measured, checked against the rules, and run. A document
that cannot be read is invalid; one that is too complex or too deep is rejected as such before any
other rule is looked at. A default value of an unknown type breaks the host down even earlier.
-/

namespace EntityGraph

/-- A request: a document, values of variables, the operation to run, and who sends it. -/
structure Request where
  document : String
  values : List (String × Value)
  operation : Option String
  context : Option RequestContext

/-- The request may run an operation: its name is asked for, or none is. -/
def Request.concerns (q : Request) (o : Operation) : Bool :=
  q.operation.isNone || o.name = q.operation

namespace Document

/-- The document with the fragments of its operations in place. -/
def expanded? (d : Document) : Option Document :=
  (d.operations.mapM fun o => (d.expand o).map fun ss => { o with selections := ss }).map
    fun os => { d with operations := os }

/-- The operations with a root. -/
def rooted (d : Document) : List Operation := d.operations.filter fun o => o.kind.root?.isSome

/-- The selections that are measured: those of operations with a root. -/
def measured (d : Document) : List (List Selection) := d.rooted.map Operation.selections

/-- A default value comes upon a type that does not exist. -/
def strays (d : Document) (s : Schema) : Bool :=
  d.rooted.any fun o => o.declared.any fun v => v.strays s

/-- The number of fields of all operations. -/
def complexity (d : Document) : Nat := (d.measured.map Selection.complexityAll).foldr (· + ·) 0

/-- The depth of the deepest operation. -/
def depth (d : Document) : Nat := (d.measured.map Selection.depthAll).foldr max 0

end Document

/-- The value of a variable of an operation: that of the request, or else its default, or else null
if its type allows it. -/
def Operation.variable? (o : Operation) (values : List (String × Value)) (name : String) :
    Option Value :=
  match o.declared.find? fun v => v.name = name with
  | none => none
  | some v =>
    match Fields.get? values name, v.default with
    | some x, _ => some x
    | none, some x => some x
    | none, none => if v.type.isNonNull then none else some .null

namespace Host

variable {σ : Type} (h : Host σ)

/-- The operation that a request runs, with its fragments in place, or why it is rejected. -/
def prepare (q : Request) : Except Rejection Operation := do
  let some raw := Document.read? q.document | .error .invalid
  let some d := raw.expanded? | .error .invalid
  if d.strays h.schema then .error .breakdown
  if h.schema.settings.maxComplexity < d.complexity then .error .complexity
  if h.schema.settings.maxDepth < d.depth then .error .depth
  let lookup := Fields.get? q.values
  let seen (o : Operation) : String → Option Value :=
    if q.concerns o then lookup else fun _ => none
  if !(raw.fragmentsFit && d.fragmentsObey h.schema lookup &&
      d.operations.all fun o => o.obeys h.schema (seen o)) then .error .invalid
  let some o := d.select? q.operation | .error .invalid
  return { o with selections := Selection.keepAll lookup o.selections }

/-- Runs an operation. -/
def run (q : Request) (o : Operation) : Run σ (List (String × Value)) :=
  match o.kind.root?.bind h.schema.object? with
  | some root => Run.selectAll ⟨h, q.context, o.variable? q.values⟩ root [] .null o.selections
  | none => return []

/-- Answers a request. -/
def answer (q : Request) (s : σ) : Response × σ :=
  match h.prepare q with
  | .error r => (.rejected r, s)
  | .ok o =>
    let (answers, p) := h.run q o ⟨s, []⟩
    (.ofRun answers p.errors, p.state)

end Host

end EntityGraph
