import CoSigner.Lib.Utf8
import Mathlib.Data.List.Nodup

/-! The libraries outside the repository and outside Go's own, and the hash functions:
only what the modelled code asks of them. -/
namespace CoSigner

/-- `coretss.DerivationContext`. -/
structure CoreContext where
  profileID : Bytes := []
  profileTemplateID : Bytes := []
  chain : Bytes := []
  algorithm : Bytes := []
  curve : Bytes := []
  scheme : Bytes := []
  publicKeyFormat : Bytes := []
  accountPath : Bytes := []
  childPath : Bytes := []
  fullPath : Bytes := []
  addressEncoding : Bytes := []
  expectedAddress : Bytes := []
  derivedPublicKey : Bytes := []
  descriptorVersion : Nat := 0
  profileVersion : Nat := 0
  keyVersion : Nat := 0
  deriving DecidableEq, Repr

/-- The fields of a type-2 Ethereum transaction, as RLP decodes them. -/
structure UnsignedType2 where
  chainID : Nat := 0
  nonce : Nat := 0
  priority : Nat := 0
  maxFee : Nat := 0
  gas : Nat := 0
  toBytes : Bytes := []
  value : Nat := 0
  data : Bytes := []
  accessList : List Bytes := []
  deriving DecidableEq, Repr

/-- `tron.Transaction_Contract` with its `Any` parameter. -/
structure TronContract where
  type : Int := 0
  parameter : Option (Bytes × Bytes) := none
  provider : Bytes := []
  contractName : Bytes := []
  permissionID : Int := 0
  unknown : Bytes := []
  parameterUnknown : Bytes := []
  deriving DecidableEq, Repr

/-- `tron.TransactionRaw`. -/
structure TronRaw where
  refBlockBytes : Bytes := []
  refBlockNum : Int := 0
  refBlockHash : Bytes := []
  expiration : Int := 0
  auths : List Bytes := []
  data : Bytes := []
  contract : List TronContract := []
  scripts : Bytes := []
  timestamp : Int := 0
  feeLimit : Int := 0
  unknown : Bytes := []
  deriving DecidableEq, Repr

/-- `tron.TransferContract`. -/
structure TronTransfer where
  ownerAddress : Bytes := []
  toAddress : Bytes := []
  amount : Int := 0
  unknown : Bytes := []
  deriving DecidableEq, Repr

/-- `tron.TriggerSmartContract`. -/
structure TronTrigger where
  ownerAddress : Bytes := []
  contractAddress : Bytes := []
  callValue : Int := 0
  data : Bytes := []
  callTokenValue : Int := 0
  tokenID : Int := 0
  unknown : Bytes := []
  deriving DecidableEq, Repr

/-- A message type of `proto`: unmarshalling and deterministic marshalling. -/
structure ProtoCodec (μ : Type) where
  unmarshal : Bytes → Option μ
  marshal : μ → Option Bytes

/-- What `coretss.InspectEncodedECDSAKeyMaterial` returns. -/
structure InspectedKeyMaterial where
  accountPublicKey : Bytes := []
  chainCodeHash : Bytes := []
  codecVersion : Nat := 0
  deriving DecidableEq, Repr

structure Libraries where
  sha256 : Bytes → Bytes
  keccak256 : Bytes → Bytes
  ed25519Verify : (publicKey message signature : Bytes) → Bool
  ed25519Sign : (privateKey message : Bytes) → Bytes
  ed25519Public : (privateKey : Bytes) → Bytes
  jcs : Bytes → Option Bytes
  /-- `coretss.DerivationContextHashV1`. -/
  derivationContextHash : CoreContext → Option Bytes
  /-- `coretss.NormalizeDerivationContext`. -/
  normalizeDerivationContext : CoreContext → Option CoreContext
  /-- `btcec.ParsePubKey` and the uncompressed serialization of the key. -/
  parsePubKey : Bytes → Option Bytes
  /-- `base58.CheckDecode`: payload and version. -/
  base58Decode : Bytes → Option (Bytes × UInt8)
  base58Encode : Bytes → UInt8 → Bytes
  rlpDecode : Bytes → Option UnsignedType2
  rlpEncode : UnsignedType2 → Option Bytes
  tronRaw : ProtoCodec TronRaw
  tronTransfer : ProtoCodec TronTransfer
  tronTrigger : ProtoCodec TronTrigger
  inspectKeyMaterial : Bytes → Option InspectedKeyMaterial
  /-- `Seal` of AES-256-GCM without additional data: ciphertext and tag. -/
  gcmSeal : (key nonce plaintext : Bytes) → Bytes
  gcmOpen : (key nonce sealed : Bytes) → Option Bytes

/-- Libraries that accept nothing. -/
def Libraries.inert : Libraries where
  sha256 _ := []
  keccak256 _ := []
  ed25519Verify _ _ _ := false
  ed25519Sign _ _ := []
  ed25519Public _ := []
  jcs _ := none
  derivationContextHash _ := none
  normalizeDerivationContext _ := none
  parsePubKey _ := none
  base58Decode _ := none
  base58Encode _ _ := []
  rlpDecode _ := none
  rlpEncode _ := none
  tronRaw := ⟨fun _ => none,fun _ => none⟩
  tronTransfer := ⟨fun _ => none,fun _ => none⟩
  tronTrigger := ⟨fun _ => none,fun _ => none⟩
  inspectKeyMaterial _ := none
  gcmSeal _ _ _ := []
  gcmOpen _ _ _ := none

/-- A hash known at some inputs; the others are only marked. -/
def tabled (table : List (Bytes × Bytes)) (raw : Bytes) : Bytes :=
  (table.lookup raw).getD (0 :: raw)

theorem lookup_mem {table : List (Bytes × Bytes)} {x v : Bytes} (h : table.lookup x = some v) :
    (x,v) ∈ table := by
  obtain ⟨l₁,l₂,rfl,-⟩ := List.lookup_eq_some_iff.mp h
  simp

theorem tabled_injective {table : List (Bytes × Bytes)} (hd : (table.map Prod.snd).Nodup)
    (hm : ∀ v ∈ table.map Prod.snd, v.head? ≠ some 0) : Function.Injective (tabled table) := by
  intro x y h
  unfold tabled at h
  cases hx : table.lookup x with
  | none =>
    cases hy : table.lookup y with
    | none => simpa [hx, hy] using h
    | some w =>
      rw [hx, hy] at h
      refine absurd ?_ (hm w (List.mem_map.mpr ⟨_,lookup_mem hy,rfl⟩))
      rw [← show 0 :: x = w from h]
      rfl
  | some v =>
    cases hy : table.lookup y with
    | none =>
      rw [hx, hy] at h
      refine absurd ?_ (hm v (List.mem_map.mpr ⟨_,lookup_mem hx,rfl⟩))
      rw [show v = 0 :: y from h]
      rfl
    | some w =>
      rw [hx, hy] at h
      obtain rfl : v = w := h
      have hpair := List.inj_on_of_nodup_map hd (lookup_mem hx) (lookup_mem hy) rfl
      exact (Prod.mk.inj hpair).1

end CoSigner
