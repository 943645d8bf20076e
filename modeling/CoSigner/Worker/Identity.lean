import CoSigner.Reconcile.Verdicts
import CoSigner.Worker.Ownership

/-! Under whose identity a key is generated and its result published. -/
namespace CoSigner.Worker
open Monolith Contract

section
variable {W : SessionWorker} {listed intent : Intent} {claim : ClaimResult}

end

/-! A claim response that answers for one key generation with another. -/

open Reconcile (acceptedClaim pendingIntent verdictLibraries wireClaim)

end CoSigner.Worker
