import ValueGraph.Configuration.Text
import ValueGraph.Inspection
import ValueGraph.Main
import ValueGraph.Object.Pattern.Matching
import ValueGraph.Proofs.Symmetry
import ValueGraph.Proofs.Transitivity
import ValueGraph.Proofs.Traversal
import ValueGraph.Proofs.Copying
import ValueGraph.Proofs.DocumentTree
import ValueGraph.Proofs.Stripping
import ValueGraph.Proofs.DocumentEquality
import ValueGraph.Proofs.DocumentRendering
import ValueGraph.Proofs.ClosedHeaps
import ValueGraph.Proofs.SeparateCopies
import ValueGraph.Proofs.SparedKeys
import ValueGraph.Proofs.FiniteNumbers
import ValueGraph.Proofs.NormalDocuments
import ValueGraph.Proofs.LoadedDocuments
import ValueGraph.Proofs.CommandOutcomes
import ValueGraph.Proofs.KeptContents
import ValueGraph.Proofs.PrunedEquality
import ValueGraph.Proofs.Reordering
import ValueGraph.Proofs.PreservedEquality
import ValueGraph.Proofs.SameContents
import ValueGraph.Proofs.Noninterference
import ValueGraph.Proofs.PrunedReordering
import ValueGraph.Proofs.Isomorphism
import ValueGraph.Proofs.CopyTraversal
import ValueGraph.Proofs.RepeatedPruning
import ValueGraph.Proofs.FaithfulCopies
import ValueGraph.Proofs.DocumentRoundTrip
import ValueGraph.Proofs.Refusals
import ValueGraph.Proofs.Extent
import ValueGraph.Proofs.BoundedCalls
import ValueGraph.Proofs.UntouchedInputs
import ValueGraph.Proofs.DottedPaths
import ValueGraph.Proofs.PrunedRendering
import ValueGraph.Proofs.LoadedMappings
import ValueGraph.Proofs.EnumerablePaths
import ValueGraph.Proofs.ValueRoundTrip
import ValueGraph.Proofs.EitherNotation
import ValueGraph.Proofs.InsertionHistories
import ValueGraph.Proofs.PropertyHistories
import ValueGraph.Proofs.QuestionOrder
import ValueGraph.Proofs.FirstFaults
import ValueGraph.Proofs.FlagSets
import ValueGraph.Proofs.RuleLayers
import ValueGraph.Proofs.OpaqueObjects
import ValueGraph.Proofs.UnambiguousPaths
