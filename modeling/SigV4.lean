import SigV4.Signer
import SigV4.World.Script
import SigV4.Proofs.Aftermath
import SigV4.Proofs.BrokenChain
import SigV4.Proofs.Calendar
import SigV4.Proofs.Calls
import SigV4.Proofs.Canonicity
import SigV4.Proofs.Chain
import SigV4.Proofs.Completion
import SigV4.Proofs.Confinement
import SigV4.Proofs.Coverage
import SigV4.Proofs.Creation
import SigV4.Proofs.Disclosure
import SigV4.Proofs.DotSegments
import SigV4.Proofs.Fallback
import SigV4.Proofs.History
import SigV4.Proofs.HomePaths
import SigV4.Proofs.Hops
import SigV4.Proofs.HostField
import SigV4.Proofs.Hosts
import SigV4.Proofs.Isolation
import SigV4.Proofs.Layers
import SigV4.Proofs.Loading
import SigV4.Proofs.Origins
import SigV4.Proofs.Parameters
import SigV4.Proofs.Payload
import SigV4.Proofs.Redaction
import SigV4.Proofs.Refusal
import SigV4.Proofs.RelativeUri
import SigV4.Proofs.Replies
import SigV4.Proofs.SessionNames
import SigV4.Proofs.Sessions
import SigV4.Proofs.Tickets
import SigV4.Proofs.TimeTexts
