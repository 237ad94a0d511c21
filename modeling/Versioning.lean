import Versioning.Cache
import Versioning.Json
import Versioning.Range.Machine
import Versioning.Range.Selection
import Versioning.Version.Compatibility
import Versioning.Version.Sorting
import Versioning.Proofs.Identifier
import Versioning.Proofs.Version.Spelling
import Versioning.Proofs.Version.FirstFault
import Versioning.Proofs.Version.Modes
import Versioning.Proofs.Version.Building
import Versioning.Proofs.Version.Concise
import Versioning.Proofs.Version.Compatibility
import Versioning.Proofs.Version.Sorting
import Versioning.Proofs.Range.RoundTrip
import Versioning.Proofs.Range.Composition
import Versioning.Proofs.Range.Refusal
import Versioning.Proofs.Range.Respacing
import Versioning.Proofs.Range.Selection
import Versioning.Proofs.Range.Upgrades
import Versioning.Proofs.Range.Machine.Invariants
import Versioning.Proofs.Range.Machine.Termination
import Versioning.Proofs.Json
import Versioning.Proofs.WellFormed
import Versioning.Proofs.Cache.Sharing
