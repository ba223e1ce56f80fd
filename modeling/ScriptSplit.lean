import ScriptSplit.Main
import ScriptSplit.Proofs.Run.Backup
import ScriptSplit.Proofs.Stage.Plan
import ScriptSplit.Proofs.Stage.Relink
import ScriptSplit.Proofs.Stage.SourceSafety
import ScriptSplit.Proofs.Plan.Spread
import ScriptSplit.Proofs.Source.Grammar
import ScriptSplit.Proofs.Source.Repair
import ScriptSplit.Proofs.Analysis.Invariants
import ScriptSplit.Proofs.Link.Bindings
import ScriptSplit.Proofs.Link.Needs
import ScriptSplit.Proofs.Stage.Written
import ScriptSplit.Proofs.Stage.Rerun
import ScriptSplit.Proofs.Link.Inserted
import ScriptSplit.Proofs.Link.Settled
import ScriptSplit.Proofs.Stage.Reinserted
import ScriptSplit.Proofs.Stage.Relinked
import ScriptSplit.Proofs.Run.FactsRoundTrip
import ScriptSplit.Proofs.Run.Interrupted
import ScriptSplit.Proofs.Bridge.Agreement
import ScriptSplit.Proofs.CommonJs.Module
import ScriptSplit.Proofs.CommonJs.Keys
import ScriptSplit.Proofs.CommonJs.Literals
import ScriptSplit.Proofs.Emit.Original
import ScriptSplit.Proofs.Emit.Slices
import ScriptSplit.Proofs.Emit.Default
import ScriptSplit.Proofs.Stage.History
import ScriptSplit.Proofs.Advice.Secrecy
import ScriptSplit.Proofs.Stage.Artifacts
import ScriptSplit.Proofs.Stage.Failing
import ScriptSplit.Proofs.Stage.Published
import ScriptSplit.Proofs.Run.Corrupt
import ScriptSplit.Proofs.Run.Candidates
import ScriptSplit.Proofs.Source.Trusted
import ScriptSplit.Proofs.Analysis.Outermost
import ScriptSplit.Proofs.Analysis.Calls
import ScriptSplit.Proofs.Analysis.Nested
import ScriptSplit.Proofs.Plan.Minimum
import ScriptSplit.Proofs.Path.Specifier
import ScriptSplit.Proofs.Plan.FileNames
import ScriptSplit.Proofs.Analysis.DocComment
import ScriptSplit.Proofs.Bridge.Header
import ScriptSplit.Proofs.Facts.Normal
import ScriptSplit.Proofs.Bridge.Aliases
