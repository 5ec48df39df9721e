/-!
The context of a request: who sends it, as far as that is known, and an identifier of the request.
A request without a context is anonymous.
-/

namespace EntityGraph

/-- Who sends a request. -/
structure Identity where
  userId : String
deriving DecidableEq, Repr

/-- The context of a request. -/
structure RequestContext where
  identity : Option Identity
  requestId : String
deriving DecidableEq, Repr

/-- Why there is no context: a field without a value. -/
inductive ContextError where
  | missingField (name : String)
deriving DecidableEq, Repr

/-- The text of an error. -/
def ContextError.message : ContextError → String
  | .missingField name => "Missing required field: " ++ name

namespace RequestContext

/-- A context needs the identifier of its request. -/
def create (identity : Option Identity) (requestId : Option String) :
    Except ContextError RequestContext :=
  match requestId with
  | some id => .ok ⟨identity, id⟩
  | none => .error (.missingField "request_id")

/-- Someone sends the request. -/
def isAuthenticated (c : RequestContext) : Bool := c.identity.isSome

/-- The user who sends the request. -/
def userId? (c : RequestContext) : Option String := c.identity.map Identity.userId

end RequestContext

end EntityGraph
