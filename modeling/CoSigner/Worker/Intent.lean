import CoSigner.Monolith.Types

/-! Intents as the worker takes them (`worker/session_worker.go`, `intent_validation.go`). -/
namespace CoSigner.Worker
open Monolith

inductive IntentKind where
  | dkg | sign
  deriving DecidableEq, Repr

def classifyIntentKind (raw : Bytes) : Option IntentKind :=
  let kind := Strings.toUpper (Strings.trimSpace raw)
  if kind = ascii "DKG" then some .dkg
  else if kind = ascii "SIGN" then some .sign
  else none

end CoSigner.Worker
