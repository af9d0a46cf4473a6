import ParamQuery.Query.Execution
import ParamQuery.Recorder
import ParamQuery.Json.Scalar
import ParamQuery.Json.Problem
import ParamQuery.Settings.Document
import ParamQuery.Service
import ParamQuery.Proofs.PlanReading
import ParamQuery.Proofs.CallTrace
import ParamQuery.Proofs.Catalogue
import ParamQuery.Proofs.Denotation
import ParamQuery.Proofs.FormEncoding
import ParamQuery.Proofs.Rounding
import ParamQuery.Proofs.ValueOrder
import ParamQuery.Proofs.RowOrder
import ParamQuery.Proofs.Grouping
import ParamQuery.Proofs.Refusals
import ParamQuery.Proofs.ReservedPairs
import ParamQuery.Proofs.ForcedScope
import ParamQuery.Proofs.Restriction
import ParamQuery.Proofs.Occurrences
import ParamQuery.Proofs.Replay
import ParamQuery.Proofs.Acceptance
import ParamQuery.Proofs.EntryOrder
import ParamQuery.Proofs.FilterMonotonicity
import ParamQuery.Proofs.Numerals
import ParamQuery.Proofs.PageRequests
import ParamQuery.Proofs.Windows
import ParamQuery.Proofs.CanonicalArguments
import ParamQuery.Proofs.DisabledNames
import ParamQuery.Proofs.QueryInvariants
import ParamQuery.Proofs.PredicateShape
import ParamQuery.Proofs.MergedParameters
import ParamQuery.Proofs.PatternLanguage
import ParamQuery.Proofs.ByteOrder
import ParamQuery.Proofs.RegistryRuns
import ParamQuery.Proofs.Arrangement
import ParamQuery.Proofs.IntegerLiterals
import ParamQuery.Proofs.Comparability
import ParamQuery.Proofs.ColumnSelections
import ParamQuery.Proofs.CountArguments
import ParamQuery.Proofs.HandlerRuns
import ParamQuery.Proofs.Inference
import ParamQuery.Proofs.FilterGrammar
import ParamQuery.Proofs.Introspection
import ParamQuery.Proofs.ScopePartition
import ParamQuery.Proofs.DirectiveTraces
