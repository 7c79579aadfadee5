import Mathlib.Data.List.TakeWhile
import IssueRelay.Analyzer
import IssueRelay.Proofs.Json.Record

/-!
# What analyzers write

The issues of an output are those that its lines hold, in their order. Blank and malformed lines may
stand anywhere between them and change neither the issues nor the outcome, which is the verdict on
the exit status (`IssueRelay.Analyzer.outcome_eq`, `IssueRelay.Analyzer.outcome_insert`).
-/

namespace IssueRelay.Analyzer

end IssueRelay.Analyzer
