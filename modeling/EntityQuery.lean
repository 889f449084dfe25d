import EntityQuery.Engine
import EntityQuery.World.Fault
import EntityQuery.World.Store
import EntityQuery.Proofs.Attire.Worn
import EntityQuery.Proofs.Attire.Lineup
import EntityQuery.Proofs.Attire.Reading
import EntityQuery.Proofs.Attire.Topmost
import EntityQuery.Proofs.Attire.Hiding
import EntityQuery.Proofs.Candidate.Members
import EntityQuery.Proofs.Candidate.Union
import EntityQuery.Proofs.Query.Discipline
import EntityQuery.Proofs.World.Extension
import EntityQuery.Proofs.Predicate.Agreement
import EntityQuery.Proofs.Predicate.Extension
import EntityQuery.Proofs.Resolution.Comparison
import EntityQuery.Proofs.Resolution.Descriptors
import EntityQuery.Proofs.Resolution.Faithful
import EntityQuery.Proofs.Resolution.Distribution
import EntityQuery.Proofs.Resolution.Faults
import EntityQuery.Proofs.Resolution.Strictness
import EntityQuery.Proofs.Engine.Account
import EntityQuery.Proofs.Engine.Session
import EntityQuery.Proofs.Resolution.Flattening
import EntityQuery.Proofs.Attire.Concealment
import EntityQuery.Proofs.Attire.Locality
import EntityQuery.Proofs.Attire.Undressing
import EntityQuery.Proofs.Attire.Foremost
import EntityQuery.Proofs.Predicate.Course
import EntityQuery.Proofs.Predicate.Reference
import EntityQuery.Proofs.Predicate.Cycle
import EntityQuery.Proofs.Query.Places
import EntityQuery.Proofs.Resolution.Noting
import EntityQuery.Proofs.Resolution.Chronicle
import EntityQuery.Proofs.Resolution.Bounds
import EntityQuery.Proofs.Resolution.UnionLaws
import EntityQuery.Proofs.Attire.Occupied
import EntityQuery.Proofs.Resolution.SlotUnion
import EntityQuery.Proofs.Resolution.Occurrences
import EntityQuery.Proofs.Resolution.Routing
import EntityQuery.Proofs.Resolution.Texts
import EntityQuery.Proofs.Query.Spelling
import EntityQuery.Proofs.Predicate.Connectives
import EntityQuery.Proofs.Attire.Finding
import EntityQuery.Proofs.Resolution.Depth
import EntityQuery.Proofs.Resolution.FilterLaws
import EntityQuery.Proofs.Attire.Tally
import EntityQuery.Proofs.Attire.Described
import EntityQuery.Proofs.World.Wearing
import EntityQuery.Proofs.Resolution.DeepFlattening
import EntityQuery.Proofs.World.History
import EntityQuery.Proofs.Candidate.Register
import EntityQuery.Proofs.Resolution.Vacancy
import EntityQuery.Proofs.Support.Counting
import EntityQuery.Proofs.Attire.Strategies
import EntityQuery.Proofs.Resolution.Strategies
