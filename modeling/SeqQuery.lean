import SeqQuery.Backend.Host
import SeqQuery.Backend.Sample
import SeqQuery.Lambda.Marked
import SeqQuery.Query.Decorated
import SeqQuery.Query.Render
import SeqQuery.Scenario
import SeqQuery.Proofs.Outcome
import SeqQuery.Proofs.Evaluation
import SeqQuery.Proofs.Deep
import SeqQuery.Proofs.Records
import SeqQuery.Proofs.Checked
import SeqQuery.Proofs.TypeSoundness
import SeqQuery.Proofs.Wrapping
import SeqQuery.Proofs.Rewriting
import SeqQuery.Proofs.Folding
import SeqQuery.Proofs.Vocabulary
import SeqQuery.Proofs.Substitution
import SeqQuery.Proofs.Joining
import SeqQuery.Proofs.SortOrder
import SeqQuery.Proofs.StableSort
import SeqQuery.Proofs.MemoryRun
import SeqQuery.Proofs.Plain
import SeqQuery.Proofs.Steps
import SeqQuery.Proofs.SoundQueries
import SeqQuery.Proofs.Pushdown
import SeqQuery.Proofs.SortClauses
import SeqQuery.Proofs.OrderGroups
import SeqQuery.Proofs.Composition
import SeqQuery.Proofs.Listing
import SeqQuery.Proofs.Limits
import SeqQuery.Proofs.Answers
import SeqQuery.Proofs.Terminals
import SeqQuery.Proofs.Reversal
import SeqQuery.Proofs.Extremes
import SeqQuery.Proofs.ProjectionTypes
import SeqQuery.Proofs.Ranges
import SeqQuery.Proofs.Slicing
import SeqQuery.Proofs.StoredLambdas
import SeqQuery.Proofs.Nodes
import SeqQuery.Proofs.Emptiness
import SeqQuery.Proofs.Waiting
import SeqQuery.Proofs.PromisedTypes
import SeqQuery.Proofs.BoundedReading
import SeqQuery.Proofs.CheckedChains
import SeqQuery.Proofs.Failures
import SeqQuery.Proofs.Sums
import SeqQuery.Proofs.SharedKeys
import SeqQuery.Proofs.LinearOrder
import SeqQuery.Proofs.Decoding
import SeqQuery.Proofs.ArrayCopies
import SeqQuery.Proofs.ResolvedMembers
import SeqQuery.Proofs.KeptNodes
import SeqQuery.Proofs.ClosedFolding
import SeqQuery.Proofs.Negation
import SeqQuery.Proofs.Rendering
import SeqQuery.Proofs.Assertions
