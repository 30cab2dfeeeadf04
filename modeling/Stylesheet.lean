import Stylesheet.Main
import Stylesheet.Proofs.Media
import Stylesheet.Proofs.Build.Truncation
import Stylesheet.Proofs.ClassNames
import Stylesheet.Proofs.Merge
import Stylesheet.Proofs.MediaBlocks
import Stylesheet.Proofs.Renaming
import Stylesheet.Proofs.Erasure
import Stylesheet.Proofs.Verdict
import Stylesheet.Proofs.Reordering
import Stylesheet.Proofs.Containment
import Stylesheet.Proofs.Build.Appending
import Stylesheet.Proofs.GlobalText
import Stylesheet.Proofs.Json.RoundTrip
import Stylesheet.Proofs.Bracketing
import Stylesheet.Proofs.ErrorPaths
import Stylesheet.Proofs.Build.Repetition
import Stylesheet.Proofs.Build.Stacked
import Stylesheet.Proofs.Selectors
import Stylesheet.Proofs.Command.Frame
import Stylesheet.Proofs.Plan.Housing
import Stylesheet.Proofs.Standalone
import Stylesheet.Proofs.Overrides
import Stylesheet.Proofs.Extension
import Stylesheet.Proofs.DanglingNames
import Stylesheet.Proofs.SeedCodes
import Stylesheet.Proofs.Payload.Written
import Stylesheet.Proofs.PropertyNames
