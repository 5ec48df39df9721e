import EntityGraph.Graph.Definition
import EntityGraph.Request.Context

/-!
Policies for mutations. A policy sees what a mutation is about to write and for whom, and allows
or denies it. A check may leave a note in the state it runs on.
-/

namespace EntityGraph

/-- A mutation that waits to be allowed. -/
structure MutationRequest where
  kind : MutationKind
  entity : String
  recordId : Option String
  context : Option RequestContext
deriving Repr

namespace MutationRequest

/-- Who asks for the mutation. -/
def identity? (q : MutationRequest) : Option Identity := q.context.bind RequestContext.identity

/-- The user who asks for the mutation. -/
def userId? (q : MutationRequest) : Option String := q.identity?.map Identity.userId

end MutationRequest

/-- What a policy decides. -/
inductive PolicyDecision where
  | allow
  | deny (reason : String)
deriving DecidableEq, Repr

/-- The mutation may go on. -/
def PolicyDecision.isAllowed : PolicyDecision → Bool
  | .allow => true
  | .deny _ => false

/-- A policy for mutations. -/
abbrev MutationPolicy := MutationRequest → PolicyDecision

namespace MutationPolicy

/-- Allows the mutations of requests with an identity. -/
def requireIdentity : MutationPolicy := fun q =>
  if q.identity?.isSome then .allow
  else .deny (q.kind.text ++ " on " ++ q.entity ++ " requires an authenticated identity")

end MutationPolicy

/-! ### Rules -/

/-- A rule applies to the mutations that agree with the parts it gives. -/
structure PolicyRule where
  kind : Option String
  entity : Option String
  recordId : Option (Option String)
  user : Option (Option String)
  allows : Bool
deriving DecidableEq, Repr

/-- A part of a rule that is not given agrees with everything. -/
def agrees {α : Type} [DecidableEq α] (part : Option α) (a : α) : Bool :=
  match part with
  | none => true
  | some b => b = a

/-- The rule applies to a mutation. -/
def PolicyRule.applies (r : PolicyRule) (q : MutationRequest) : Bool :=
  agrees r.kind q.kind.text && agrees r.entity q.entity && agrees r.recordId q.recordId &&
    agrees r.user q.userId?

/-- The first rule that applies decides. A mutation without a rule is allowed. -/
def MutationPolicy.ofRules (rules : List PolicyRule) : MutationPolicy := fun q =>
  match rules.find? fun r => r.applies q with
  | some r => if r.allows then .allow else .deny "denied by rule"
  | none => .allow

/-! ### Checks -/

/-- A check of a mutation on a state. -/
abbrev PolicyCheck (σ : Type) := MutationRequest → σ → PolicyDecision × σ

namespace MutationPolicy

variable {σ : Type}

/-- The check that leaves the state alone. -/
def check (p : MutationPolicy) : PolicyCheck σ := fun q s => (p q, s)

/-- The check that notes what it was asked. -/
def noted (note : MutationRequest → σ → σ) (p : MutationPolicy) : PolicyCheck σ := fun q s =>
  (p q, note q s)

end MutationPolicy

end EntityGraph
