import EntityGraph.Argument.Find
import EntityGraph.Catalog.Document
import EntityGraph.Catalog.Toml
import EntityGraph.Compile.Argument
import EntityGraph.Document.Expand
import EntityGraph.Document.Reader
import EntityGraph.Graph.Definition
import EntityGraph.Json.Reader
import EntityGraph.Json.Writer
import EntityGraph.Proofs.Argument.Admitted
import EntityGraph.Proofs.Catalog.Document
import EntityGraph.Proofs.Catalog.Growth
import EntityGraph.Proofs.Collection.Updates
import EntityGraph.Proofs.Compile.Abandoned
import EntityGraph.Proofs.Compile.Bookkeeping
import EntityGraph.Proofs.Compile.Kinds
import EntityGraph.Proofs.Compile.Order
import EntityGraph.Proofs.Compile.Outcome
import EntityGraph.Proofs.Compile.Queried
import EntityGraph.Proofs.Compile.Repeated
import EntityGraph.Proofs.Compile.Reported
import EntityGraph.Proofs.Compile.Resolved
import EntityGraph.Proofs.Compile.Separation
import EntityGraph.Proofs.Compile.Variants
import EntityGraph.Proofs.Filter.Fault
import EntityGraph.Proofs.Filter.Nested
import EntityGraph.Proofs.Filter.Normal
import EntityGraph.Proofs.Filter.Operators
import EntityGraph.Proofs.Filter.Respelled
import EntityGraph.Proofs.Mutation.Frame
import EntityGraph.Proofs.Mutation.ReadBack
import EntityGraph.Proofs.Mutation.Singleton
import EntityGraph.Proofs.Property.Refusal
import EntityGraph.Proofs.Query.Form
import EntityGraph.Proofs.Query.Identifiers
import EntityGraph.Proofs.Record.Arranged
import EntityGraph.Proofs.Record.Equivalence
import EntityGraph.Proofs.Record.Integers
import EntityGraph.Proofs.Schema.Clash
import EntityGraph.Proofs.Schema.Roots
import EntityGraph.Proofs.Store.Session
import EntityGraph.Proofs.Store.Shared
import EntityGraph.Proofs.Value.Reread
import EntityGraph.Repository.Database
import EntityGraph.Repository.Registry
import EntityGraph.Repository.Shared
import EntityGraph.Request.Answer
import EntityGraph.Request.Policy
import EntityGraph.Resolver.Mutation
import EntityGraph.Schema.Assembly
import EntityGraph.Timestamp
import EntityGraph.Validation.Rules
