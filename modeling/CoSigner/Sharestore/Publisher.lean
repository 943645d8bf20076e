import CoSigner.Contract.Approval
import CoSigner.Errors
import CoSigner.Lib.Disk
import CoSigner.Lib.Trace

/-! Publication of immutable artifacts (`sharestore/publisher.go`): a file is written under
a temporary name, synced, renamed into place without replacing anything, and its directory
is synced; the capability probe tries this out. -/
namespace CoSigner.Sharestore
open Contract

/-- A path, split by `filepath.Dir` and `filepath.Base`. -/
structure Path where
  directory : Bytes
  base : Bytes
  deriving DecidableEq, Repr

/-- `publishOperations` and `publishTempFile`, with the `readFile` and the entropy of the
probe. A temporary file is known by its name. -/
inductive PublishOp where
  | createTemp (directory pattern : Bytes)
  | chmod (temp : Path)
  | write (temp : Path) (raw : Bytes)
  | sync (temp : Path)
  | close (temp : Path)
  | remove (path : Path)
  | renameNoReplace (oldPath newPath : Path)
  | syncDirectory (directory : Bytes)
  | readFile (path : Path)
  | entropy (size : Nat)
  deriving DecidableEq

abbrev PublishOp.Answer : PublishOp → Type
  | .createTemp _ _ => Except Err Path
  | .write _ _ => Nat × Option Err
  | .readFile _ | .entropy _ => Except Err Bytes
  | .chmod _ | .sync _ | .close _ | .remove _ | .renameNoReplace _ _ | .syncDirectory _ => Option Err

abbrev Publishing (α : Type) := Prog PublishOp PublishOp.Answer α

/-- One operation. -/
abbrev operate (o : PublishOp) : Publishing o.Answer := Prog.perform o

/-- `_ = temp.Close()` before an error is returned. -/
def abandon (temp : Path) (e : Err) : Publishing (Bool × Option Err) := do
  let _ ← operate (.close temp)
  pure (false,some e)

def renameTemp (temp finalPath : Path) : Publishing (Bool × Option Err) := do
  let renamed : Option Err ← operate (.renameNoReplace temp finalPath)
  match renamed with
  | some e => pure (false,some e)
  | none =>
    let synced : Option Err ← operate (.syncDirectory finalPath.directory)
    pure (true,synced)

def closeTemp (temp finalPath : Path) : Publishing (Bool × Option Err) := do
  let closed : Option Err ← operate (.close temp)
  match closed with
  | some e => pure (false,some (e.wrap "close artifact temp file"))
  | none => renameTemp temp finalPath

def syncTemp (temp finalPath : Path) : Publishing (Bool × Option Err) := do
  let synced : Option Err ← operate (.sync temp)
  match synced with
  | some e => abandon temp (e.wrap "sync artifact temp file")
  | none => closeTemp temp finalPath

def writeTemp (temp finalPath : Path) (finalBytes : Bytes) : Publishing (Bool × Option Err) := do
  let (written,failed) : Nat × Option Err ← operate (.write temp finalBytes)
  match failed with
  | some e => abandon temp (e.wrap "write artifact temp file")
  | none =>
    if written ≠ finalBytes.length then abandon temp .shortWrite else syncTemp temp finalPath

def publishTemp (temp finalPath : Path) (finalBytes : Bytes) : Publishing (Bool × Option Err) := do
  let failed : Option Err ← operate (.chmod temp)
  match failed with
  | some e => abandon temp (e.wrap "set artifact temp mode")
  | none => writeTemp temp finalPath finalBytes

/-- The pattern of the temporary names of a final path. -/
def tempPattern (finalPath : Path) : Bytes := ascii "." ++ finalPath.base ++ ascii ".tmp-*"

def publishDurablyTracked (finalPath : Path) (finalBytes : Bytes) :
    Publishing (Bool × Option Err) := do
  let created : Except Err Path ←
    operate (.createTemp finalPath.directory (tempPattern finalPath))
  match created with
  | .error e => pure (false,some (e.wrap "create artifact temp file"))
  | .ok temp =>
    let (published,err) ← publishTemp temp finalPath finalBytes
    if published then pure (published,err)
    else
      let _ ← operate (.remove temp)
      pure (published,err)

def capabilityProbeEntropyBytes : Nat := 16

def capabilityProbeFirstBytes : Bytes := ascii "mpc-artifact-capability-v1:first"

def capabilityProbeSecondBytes : Bytes := ascii "mpc-artifact-capability-v1:second"

/-- The deferred cleanup of the probe: what it makes of the returned error. -/
def cleanProbe (directory : Bytes) (finalPath : Path) (ownsFinal : Bool) (returnErr : Option Err) :
    Publishing (Option Err) := do
  if ownsFinal then
    let removeErr : Option Err ← operate (.remove finalPath)
    let syncErr : Option Err ← operate (.syncDirectory directory)
    pure (Err.joinAll [returnErr,removeErr.map (Err.wrap "remove capability probe"),
      syncErr.map (Err.wrap "sync capability probe cleanup")])
  else pure returnErr

/-- The probe up to its deferred cleanup: `ownsFinal` and the error. -/
def probeFinal (finalPath : Path) : Publishing (Bool × Option Err) := do
  let (published,err) ← publishDurablyTracked finalPath capabilityProbeFirstBytes
  match err with
  | some e => pure (published,some (e.wrap "publish capability probe"))
  | none =>
    let (replaced,noReplaceErr) ← publishDurablyTracked finalPath capabilityProbeSecondBytes
    if replaced then
      pure (true,some ⟨[],
        ascii "filesystem publication replaced an existing capability probe"⟩)
    else match noReplaceErr with
    | none => pure (published,some
        ⟨[],ascii "filesystem does not provide create-only rename: %!w(<nil>)"⟩)
    | some e =>
      if e.isA .artifactExists then
        let readback : Except Err Bytes ← operate (.readFile finalPath)
        match readback with
        | .error e => pure (published,some (e.wrap "read capability probe"))
        | .ok raw =>
          if raw = capabilityProbeFirstBytes then pure (published,none)
          else pure (published,some
            ⟨[],ascii "create-only capability probe changed existing bytes"⟩)
      else pure (published,some (e.wrap "filesystem does not provide create-only rename"))

def probePublishCapability (directory : Bytes) : Publishing (Option Err) := do
  let randomSuffix : Except Err Bytes ← operate (.entropy capabilityProbeEntropyBytes)
  match randomSuffix with
  | .error e => pure (some (e.wrap "generate capability probe name"))
  | .ok suffix =>
    let finalPath : Path := ⟨directory,ascii ".artifact-capability-probe-" ++ hexEncode suffix⟩
    let (ownsFinal,returnErr) ← probeFinal finalPath
    cleanProbe directory finalPath ownsFinal returnErr

end CoSigner.Sharestore
