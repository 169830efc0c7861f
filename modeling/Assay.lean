import Assay.Clause.Code
import Assay.Facet.Run
import Assay.Options.Source
import Assay.Sample.Shapes
import Assay.Script.Bench
import Assay.Script.Session
import Assay.Script.Settings
import Assay.Trace.Shared
import Assay.Trace.Words
import Assay.Proofs.Clause.Escape
import Assay.Proofs.Clause.Explained
import Assay.Proofs.Clause.FailPoint
import Assay.Proofs.Clause.Parenthesis
import Assay.Proofs.Clause.Picking
import Assay.Proofs.Clause.Rows
import Assay.Proofs.Clause.Spelled
import Assay.Proofs.Clause.Standing
import Assay.Proofs.Clause.Tracing
import Assay.Proofs.Clause.Unwinding
import Assay.Proofs.Facet.Parties
import Assay.Proofs.Facet.Report
import Assay.Proofs.Facet.Sums
import Assay.Proofs.Likeness.InTurn
import Assay.Proofs.Likeness.Reflexive
import Assay.Proofs.Likeness.Symmetric
import Assay.Proofs.Likeness.Visits
import Assay.Proofs.Options.Loading
import Assay.Proofs.Options.Reported
import Assay.Proofs.Options.Requests
import Assay.Proofs.Snapshot.Bare
import Assay.Proofs.Snapshot.Expansion
import Assay.Proofs.Snapshot.Lasting
import Assay.Proofs.Snapshot.Likeness
import Assay.Proofs.Snapshot.Mirrored
import Assay.Proofs.Snapshot.Positions
import Assay.Proofs.Snapshot.Replaced
