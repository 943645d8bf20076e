import CoSigner.Libraries
import CoSigner.Lib.Json.Decode

/-! The closed JSON boundary (`strictjson`), canonical JSON (`mpc2of3/jcs.go`), digests
and key descriptors. -/
namespace CoSigner.Contract
open Json
variable (L : Libraries)

/-- `strictjson.DecodeClosed`. -/
def decodeClosed {α : Type} (d : Decoder α) (old : α) (raw : Bytes) : Option α := do
  let v ← parse raw
  if maxNestingDepth < v.depth || !v.distinct then none
  d true v old

/-- `unsignedJSONInteger` and the bound of `scanJSONValue`. -/
def safeInteger (literal : Bytes) : Bool :=
  (literal == [0x30] || !literal.isEmpty && literal.all isDigit && literal.head? != some 0x30) &&
    digitsValue literal ≤ 2 ^ 53 - 1

def validateJSONTokens (raw : Bytes) : Bool :=
  match parse raw with
  | some v => v.distinct && v.numbers safeInteger
  | none => false

def canonicalJCS (raw : Bytes) : Option Bytes :=
  if validateJSONTokens raw then L.jcs raw else none

def requireCanonicalJCS (raw : Bytes) : Bool := canonicalJCS L raw == some raw

def printableASCII (raw : Bytes) : Bool :=
  !raw.isEmpty && raw.all fun b => 0x20 ≤ b.toNat && b.toNat ≤ 0x7E

def hexDigits (s : Bytes) : Bool :=
  s.all fun b => isDigit b || 0x61 ≤ b.toNat && b.toNat ≤ 0x66

/-- `parseSHA256Digest`. -/
def parseSHA256Digest (raw : Bytes) : Option Bytes := do
  if raw.length != 43 then none
  let decoded ← Base64.rawURL.decode raw
  if decoded.length != 32 || Base64.rawURL.encode decoded != raw then none
  some decoded

def digestString (digest : Bytes) : Bytes := Base64.rawURL.encode digest

/-- `keyIDPattern`. -/
def keyIDPattern (s : Bytes) : Bool :=
  s.take 8 == ascii "mpc_key_" && s.length == 44 &&
    hexDigits ((s.drop 8).take 8) && (s.drop 16).head? == some 0x2D &&
    hexDigits ((s.drop 17).take 4) && (s.drop 21).head? == some 0x2D &&
    hexDigits ((s.drop 22).take 4) && (s.drop 26).head? == some 0x2D &&
    hexDigits ((s.drop 27).take 4) && (s.drop 31).head? == some 0x2D &&
    hexDigits (s.drop 32)

structure PartyV1 where
  partyID : Bytes := []
  purpose : Bytes := []
  deriving DecidableEq, Repr

structure KeyDescriptorV1 where
  algorithm : Bytes := []
  chainCodeHash : Bytes := []
  curve : Bytes := []
  derivationScheme : Bytes := []
  descriptorKind : Bytes := []
  descriptorVersion : Int := 0
  keyID : Bytes := []
  parties : List PartyV1 := []
  protocolVersion : Int := 0
  publicKeyFormat : Bytes := []
  threshold : Int := 0
  deriving DecidableEq, Repr

def PartyV1.fields : List (Json.Field PartyV1) := [
  field "partyId" (·.partyID) (fun s x => { s with partyID := x }) string,
  field "purpose" (·.purpose) (fun s x => { s with purpose := x }) string]

def PartyV1.decoder : Decoder PartyV1 := struct fields

def KeyDescriptorV1.fields : List (Json.Field KeyDescriptorV1) := [
  field "algorithm" (·.algorithm) (fun s x => { s with algorithm := x }) string,
  field "chainCodeHash" (·.chainCodeHash) (fun s x => { s with chainCodeHash := x }) string,
  field "curve" (·.curve) (fun s x => { s with curve := x }) string,
  field "derivationScheme" (·.derivationScheme) (fun s x => { s with derivationScheme := x })
    string,
  field "descriptorKind" (·.descriptorKind) (fun s x => { s with descriptorKind := x }) string,
  field "descriptorVersion" (·.descriptorVersion) (fun s x => { s with descriptorVersion := x })
    (int 64),
  field "keyId" (·.keyID) (fun s x => { s with keyID := x }) string,
  field "parties" (·.parties) (fun s x => { s with parties := x }) (slice {} PartyV1.decoder),
  field "protocolVersion" (·.protocolVersion) (fun s x => { s with protocolVersion := x })
    (int 64),
  field "publicKeyFormat" (·.publicKeyFormat) (fun s x => { s with publicKeyFormat := x })
    string,
  field "threshold" (·.threshold) (fun s x => { s with threshold := x }) (int 64)]

def KeyDescriptorV1.decoder : Decoder KeyDescriptorV1 := struct fields

def KeyDescriptorV1.validate (d : KeyDescriptorV1) : Bool :=
  d.descriptorKind == ascii "mpc-key-descriptor" && d.descriptorVersion == 1 &&
    d.protocolVersion == 1 && d.algorithm == ascii "ECDSA" && d.curve == ascii "secp256k1" &&
    d.threshold == 2 && d.derivationScheme == ascii "bip32_secp256k1" &&
    d.publicKeyFormat == ascii "compressed_sec1" && keyIDPattern d.keyID &&
    (parseSHA256Digest d.chainCodeHash).isSome &&
    d.parties == [⟨ascii "mpc-signer",ascii "platform"⟩,
      ⟨ascii "co-signer-primary",ascii "primary"⟩,
      ⟨ascii "co-signer-recovery",ascii "recovery"⟩]

/-- The descriptor and its fingerprint. -/
def parseCanonicalDescriptor (raw : Bytes) : Option (KeyDescriptorV1 × Bytes) := do
  if 2048 < raw.length || !printableASCII raw || !requireCanonicalJCS L raw then none
  let descriptor ← decodeClosed KeyDescriptorV1.decoder {} raw
  if !descriptor.validate then none
  some (descriptor,L.sha256 raw)

end CoSigner.Contract
