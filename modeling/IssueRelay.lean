import IssueRelay.Files.Tree
import IssueRelay.Main
import IssueRelay.Proofs.Cache.OverlappingPasses
import IssueRelay.Proofs.Cache.Run
import IssueRelay.Proofs.Issue.Set
import IssueRelay.Proofs.Cache.Silence
import IssueRelay.Proofs.Diagnostic.OfIssues
import IssueRelay.Proofs.Cache.Provenance
import IssueRelay.Proofs.Transition
import IssueRelay.Proofs.Cache.WaitingCommit
import IssueRelay.Proofs.Cache.Frame
import IssueRelay.Proofs.LanguageServer.ClosedFile
import IssueRelay.Proofs.Debouncer.History
import IssueRelay.Proofs.Cache.FirstSecret
import IssueRelay.Proofs.LanguageServer.DebouncedPass
import IssueRelay.Proofs.Cache.Independence
import IssueRelay.Proofs.Tracking.Rounds
import IssueRelay.Proofs.Cache.Retracking
import IssueRelay.Proofs.Text.ByteOrder
import IssueRelay.Proofs.Cache.Representation
import IssueRelay.Proofs.Diagnostic.Merge
import IssueRelay.Proofs.LanguageServer.AnalyzerPass
import IssueRelay.Proofs.Issue.RoundTrip
import IssueRelay.Proofs.Issue.Fields
import IssueRelay.Proofs.CodeAction
import IssueRelay.Proofs.Document.Store
import IssueRelay.Proofs.Remote.Query
import IssueRelay.Proofs.Document.RelativePath
import IssueRelay.Proofs.LanguageServer.SharedPath
import IssueRelay.Proofs.Diagnostic.Flows
import IssueRelay.Proofs.Config.Nearest
import IssueRelay.Proofs.Config.Warnings
