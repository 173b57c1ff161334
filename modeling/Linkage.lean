import Linkage.Log.Output
import Linkage.Proofs.Ancestry.Finality
import Linkage.Proofs.Ancestry.Refinement
import Linkage.Proofs.Report.RoundTrip
import Linkage.Proofs.ReportFilter.History
import Linkage.Proofs.Verifier.Batch
import Linkage.Proofs.Verifier.Findings
import Linkage.Settings.File
import Linkage.Proofs.Exclusions.Normal
import Linkage.Proofs.Ancestry.Economy
import Linkage.Proofs.Ancestry.Retry
import Linkage.Proofs.Ancestry.Exclusion
import Linkage.Proofs.Ancestry.Depth
import Linkage.Proofs.Ancestry.Termination
import Linkage.Proofs.ProblemSet.Filling
import Linkage.Proofs.ReportFilter.Pairs
import Linkage.Proofs.Exclusions.Segments
import Linkage.Proofs.Classpath.Merge
import Linkage.Proofs.Settings.Environment
import Linkage.Proofs.Settings.Documented
