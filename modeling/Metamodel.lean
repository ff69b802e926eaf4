import Metamodel.Attribute.Basic
import Metamodel.Attribute.Check
import Metamodel.Attribute.Merge
import Metamodel.Attribute.Stream
import Metamodel.Cardinality
import Metamodel.CommandLine.Arguments
import Metamodel.CommandLine.FileTree
import Metamodel.CommandLine.Outcome
import Metamodel.Config
import Metamodel.DataType
import Metamodel.Declaration.Basic
import Metamodel.Declaration.Builder
import Metamodel.Declaration.Reader
import Metamodel.Declaration.Writer
import Metamodel.Digest.Blake3
import Metamodel.Digest.Fingerprint
import Metamodel.Embedded.Expansion
import Metamodel.Embedded.Nesting
import Metamodel.Emission.Description
import Metamodel.Emission.Pool
import Metamodel.Emission.Slot
import Metamodel.Emission.TemplateCache
import Metamodel.Entity
import Metamodel.Enumeration.Binding
import Metamodel.Enumeration.Check
import Metamodel.Error
import Metamodel.Graph.Basic
import Metamodel.Graph.MemberCheck
import Metamodel.Graph.OfDeclarations
import Metamodel.Graph.Writer
import Metamodel.Hierarchy.Ancestors
import Metamodel.Hierarchy.Inheritance
import Metamodel.Interface.Conformance
import Metamodel.Interface.Flatten
import Metamodel.Interface.Lineage
import Metamodel.Issue.Basic
import Metamodel.Issue.Gather
import Metamodel.Issue.Writer
import Metamodel.Join.Analysis
import Metamodel.Join.Basic
import Metamodel.Join.Query
import Metamodel.Json.Basic
import Metamodel.Json.Double
import Metamodel.Json.Library
import Metamodel.Json.Printer
import Metamodel.Json.Reader
import Metamodel.Json.Shape
import Metamodel.Log
import Metamodel.Main
import Metamodel.NameMap
import Metamodel.Ownership.Claim
import Metamodel.Ownership.Key
import Metamodel.Relationship
import Metamodel.Resolution.Session
import Metamodel.Text.Blank
import Metamodel.Text.CaseTable
import Metamodel.Text.EscapeTable
import Metamodel.Text.FirstLetter
import Metamodel.Text.Integer
import Metamodel.Text.Placeholder
import Metamodel.Text.Quoted
import Metamodel.TypeName
import Metamodel.Proofs.Cycles
import Metamodel.Proofs.Graph.Elements
import Metamodel.Proofs.Graph.States
import Metamodel.Proofs.Graph.Integrity
import Metamodel.Proofs.Graph.Soundness
import Metamodel.Proofs.Graph.Standing
import Metamodel.Proofs.Hierarchy.Agreement
import Metamodel.Proofs.Hierarchy.Bequest
import Metamodel.Proofs.Hierarchy.Chain
import Metamodel.Proofs.Hierarchy.Heritage
import Metamodel.Proofs.Hierarchy.Members
import Metamodel.Proofs.Hierarchy.Settling
import Metamodel.Proofs.Interface.Flattening
import Metamodel.Proofs.Interface.Lineage
import Metamodel.Proofs.Issue.Clean
import Metamodel.Proofs.Join.Counterparts
import Metamodel.Proofs.Join.Reading
import Metamodel.Proofs.Ownership.Arbitration
import Metamodel.Proofs.Ownership.Contest
import Metamodel.Proofs.Resolution.Binding
import Metamodel.Proofs.Resolution.Completion
import Metamodel.Proofs.Resolution.Counterparts
import Metamodel.Proofs.Resolution.Guarantees
import Metamodel.Proofs.Resolution.Integrity
import Metamodel.Proofs.Resolution.Navigation
import Metamodel.Proofs.Resolution.Pristine
import Metamodel.Proofs.Resolution.Success
import Metamodel.Proofs.Resolution.Conformance
import Metamodel.Proofs.Resolution.Isolation
import Metamodel.Proofs.Graph.Erasure
import Metamodel.Proofs.Resolution.Noninterference
import Metamodel.Proofs.Resolution.Provenance
import Metamodel.Proofs.Resolution.Streaming
import Metamodel.Proofs.Json.Scalars
import Metamodel.Proofs.Json.Text
import Metamodel.Proofs.Json.Laws
import Metamodel.Proofs.Json.Decoding
import Metamodel.Proofs.Declaration.RoundTrip
import Metamodel.Proofs.Resolution.Naming
import Metamodel.Proofs.Resolution.Acyclicity
import Metamodel.Proofs.Join.Dependence
import Metamodel.Proofs.Resolution.MemberNames
import Metamodel.Proofs.Resolution.Dependence
import Metamodel.Proofs.Resolution.Reciprocity
import Metamodel.Proofs.Resolution.Enumerations
import Metamodel.Proofs.Emission.Slots
import Metamodel.Proofs.Emission.Turns
import Metamodel.Proofs.Emission.Interleaving
import Metamodel.Proofs.Embedded.Termination
import Metamodel.Proofs.Hierarchy.Termination
import Metamodel.Proofs.Interface.Termination
import Metamodel.Proofs.Resolution.Termination
import Metamodel.Proofs.Hierarchy.Cycles
import Metamodel.Proofs.Interface.Cycles
import Metamodel.Proofs.Interface.Levels
import Metamodel.Proofs.Interface.Registration
import Metamodel.Proofs.Embedded.Cycles
import Metamodel.Proofs.Embedded.Columns
import Metamodel.Proofs.Join.Conjuncts
import Metamodel.Proofs.Join.Grammar
import Metamodel.Proofs.Join.Literals
import Metamodel.Proofs.Join.Mentions
import Metamodel.Proofs.Resolution.Columns
import Metamodel.Proofs.Text.Words
import Metamodel.Proofs.Resolution.Dependents
import Metamodel.Proofs.Text.Integer
import Metamodel.Proofs.Resolution.StoredValues
import Metamodel.Proofs.Hierarchy.Redeclaration
import Metamodel.Proofs.Hierarchy.Ascent
import Metamodel.Proofs.Emission.Grouping
import Metamodel.Proofs.Graph.Lookup
import Metamodel.Proofs.Text.Placeholder
import Metamodel.Proofs.Emission.Description
import Metamodel.Proofs.Emission.Loads
import Metamodel.Proofs.Access.Basic
import Metamodel.Proofs.Access.Declarations
import Metamodel.Proofs.Access.Embedded
import Metamodel.Proofs.Access.Inheritance
import Metamodel.Proofs.Access.Ownership
import Metamodel.Proofs.Access.Relationships
import Metamodel.Proofs.Access.Stages
