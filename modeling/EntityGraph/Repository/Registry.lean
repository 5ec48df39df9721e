import EntityGraph.Repository.Basic
import EntityGraph.Text.Quoted

/-!
Repositories by alias. Binding an alias again replaces its repository.
-/

namespace EntityGraph

/-- Repositories by alias. -/
structure RepositoryRegistry (σ : Type) where
  bindings : List (String × Repository σ)

namespace RepositoryRegistry

variable {σ : Type}

/-- The registry without bindings. -/
def empty : RepositoryRegistry σ := ⟨[]⟩

/-- Binds a repository to an alias. -/
def register (g : RepositoryRegistry σ) (aliasName : String) (r : Repository σ) :
    RepositoryRegistry σ := ⟨Fields.insert g.bindings aliasName r⟩

/-- The repository of an alias. -/
def get? (g : RepositoryRegistry σ) (aliasName : String) : Option (Repository σ) :=
  Fields.get? g.bindings aliasName

/-- An alias is bound. -/
def contains (g : RepositoryRegistry σ) (aliasName : String) : Bool := (g.get? aliasName).isSome

/-- The number of bound aliases. -/
def size (g : RepositoryRegistry σ) : Nat := g.bindings.length

/-- The bound aliases in the order of their characters. -/
def sortedAliases (g : RepositoryRegistry σ) : List String :=
  (Fields.keys g.bindings).mergeSort fun a b => a ≤ b

/-! ### Description -/

/-- The description of a registry: its aliases, sorted. -/
def describe (g : RepositoryRegistry σ) : String :=
  "RepositoryRegistry \x7b aliases: [" ++ ", ".intercalate (g.sortedAliases.map Text.quoted) ++
    "] \x7d"

end RepositoryRegistry

end EntityGraph
