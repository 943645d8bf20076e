import CoSigner.Lib.Team
import CoSigner.Sharestore.Artifact
import Mathlib.Control.Monad.Basic

/-! The active pair and the routing of shares (`sharestore/active_pair.go`,
`routing_writer.go`): `RegisterPair`, `Release` and `SaveShare` in any number and over every
interleaving, each locked region being one step. -/
namespace CoSigner.Sharestore
open Contract

deriving instance DecidableEq for KeyProvider, StoreConfig

structure PairRegistration where
  sessionID : Bytes := []
  keyID : Bytes := []
  primaryPartyID : Bytes := []
  recoveryPartyID : Bytes := []
  descriptorBytes : Bytes := []
  deriving DecidableEq, Repr

structure SaveShareInput where
  sessionID : Bytes := []
  keyID : Bytes := []
  localPartyID : Bytes := []
  opaqueDescriptorFingerprint : Bytes := []
  codecBlob : Bytes := []
  deriving DecidableEq, Repr

/-- What `activePairState` keeps of a registration. -/
structure Pair where
  sessionID : Bytes
  keyID : Bytes
  primaryPartyID : Bytes
  recoveryPartyID : Bytes
  descriptorBytes : Bytes
  fingerprint : Bytes
  deriving DecidableEq, Repr

inductive PairError where
  | notRegistered | alreadyRegistered | contextMismatch
  | other (e : Err)
  deriving DecidableEq, Repr

structure ResolvedPersistenceContext where
  sessionID : Bytes
  keyID : Bytes
  partyID : Bytes
  descriptorBytes : Bytes
  codecBlob : Bytes
  deriving DecidableEq, Repr

/-- `isWithin` of clean absolute paths. -/
def isWithin (path parent : Bytes) : Bool :=
  path == parent || (parent ++ [0x2F]).isPrefixOf path

def pathsOverlap (first second : Bytes) : Bool :=
  first == second || isWithin first second || isWithin second first

/-- `ValidateStorePair`; key providers are compared by what they hold. -/
def validateStorePair (primary recovery : StoreConfig) : Bool :=
  !(primary.purpose != .primary || recovery.purpose != .recovery) &&
    !(primary.keyProvider.key != recovery.keyProvider.key ||
      primary.keyProvider.keyRef != recovery.keyProvider.keyRef) &&
    !pathsOverlap primary.directory recovery.directory

/-- What `NewRoutingWriter` can return. -/
structure RoutingWriter where
  primary : StoreConfig
  recovery : StoreConfig
  valid : validateStorePair primary recovery = true

/-- The steps of the three methods. A lease is known by the call of `RegisterPair` that
returned it, one of `κ`. -/
inductive PairOp (κ : Type) where
  /-- The locked region of `RegisterPair`; whether the pair was free. -/
  | register (pair : Pair)
  | release (lease : κ)
  | ctxErr
  | resolve (input : SaveShareInput)
  /-- `PublishAndInspect`. -/
  | publish (store : StoreConfig) (input : PublishInput)

def PairOp.Ans {κ : Type} : PairOp κ → Type
  | .register _ => Bool
  | .release _ => Unit
  | .ctxErr | .publish _ _ => Option Err
  | .resolve _ => Except PairError ResolvedPersistenceContext

abbrev PairProg (κ α : Type) := Prog (PairOp κ) PairOp.Ans α

abbrev PairEvent (κ : Type) := Event (PairOp κ) PairOp.Ans

def ask {κ : Type} (o : PairOp κ) : PairProg κ o.Ans := .perform o

inductive PairCall (κ : Type) where
  | registerPair (registration : PairRegistration)
  | release (lease : κ)
  | saveShare (input : SaveShareInput)

structure ActivePairState where
  generation : UInt64
  pair : Pair
  deriving DecidableEq

structure ActivePair (κ : Type) where
  generation : UInt64 := 0
  active : Option ActivePairState := none
  /-- The generations of the leases that were returned. -/
  leases : κ → Option UInt64 := fun _ => none

section
variable (L : Libraries)

/-- The checks of `RegisterPair` and the pair it registers. -/
def PairRegistration.pair (registration : PairRegistration) : Option Pair := do
  let (descriptor,fingerprint) ← parseCanonicalDescriptor L registration.descriptorBytes
  if registration.sessionID == [] || descriptor.keyID != registration.keyID ||
      registration.primaryPartyID != ascii "co-signer-primary" ||
      registration.recoveryPartyID != ascii "co-signer-recovery" ||
      registration.primaryPartyID == registration.recoveryPartyID then none
  some {
    sessionID := registration.sessionID
    keyID := registration.keyID
    primaryPartyID := registration.primaryPartyID
    recoveryPartyID := registration.recoveryPartyID
    descriptorBytes := registration.descriptorBytes
    fingerprint := fingerprint }

theorem PairRegistration.pair_some {L : Libraries} {registration : PairRegistration} {pair : Pair}
    (h : registration.pair L = some pair) : pair.sessionID = registration.sessionID ∧
      pair.keyID = registration.keyID ∧ pair.descriptorBytes = registration.descriptorBytes := by
  obtain ⟨parsed,-,h⟩ := Option.bind_eq_some_iff.mp h
  dsimp only at h
  split at h
  · simp at h
  · obtain rfl := Option.some.inj h
    exact ⟨rfl,rfl,rfl⟩

variable {κ : Type}

def registerPair (registration : PairRegistration) : PairProg κ (Option PairError) :=
  match registration.pair L with
  | none => pure (some .contextMismatch)
  | some pair => do
    let free : Bool ← ask (.register pair)
    pure (if free then none else some .alreadyRegistered)

/-- The locked region of `resolve`. -/
def resolve (active : Option ActivePairState) (input : SaveShareInput) :
    Except PairError ResolvedPersistenceContext :=
  match active with
  | none => .error .notRegistered
  | some active =>
    let partyAllowed := input.localPartyID == active.pair.primaryPartyID ||
      input.localPartyID == active.pair.recoveryPartyID
    if input.sessionID != active.pair.sessionID || input.keyID != active.pair.keyID ||
        !partyAllowed || input.opaqueDescriptorFingerprint != active.pair.fingerprint then
      .error .contextMismatch
    else .ok {
      sessionID := active.pair.sessionID
      keyID := active.pair.keyID
      partyID := input.localPartyID
      descriptorBytes := active.pair.descriptorBytes
      codecBlob := input.codecBlob }

/-- The input is one for the pair. -/
structure Fits (input : SaveShareInput) (pair : Pair) : Prop where
  sessionID : input.sessionID = pair.sessionID
  keyID : input.keyID = pair.keyID
  party : input.localPartyID = pair.primaryPartyID ∨ input.localPartyID = pair.recoveryPartyID
  fingerprint : input.opaqueDescriptorFingerprint = pair.fingerprint

def ResolvedPersistenceContext.publishInput (resolved : ResolvedPersistenceContext) :
    PublishInput where
  sessionID := resolved.sessionID
  keyID := resolved.keyID
  partyID := resolved.partyID
  descriptorBytes := resolved.descriptorBytes
  codecBlob := resolved.codecBlob

def publishTo (store : StoreConfig) (resolved : ResolvedPersistenceContext) :
    PairProg κ (Option PairError) := do
  let err : Option Err ← ask (.publish store resolved.publishInput)
  pure (err.map .other)

variable (writer : RoutingWriter)

def saveShare (input : SaveShareInput) : PairProg κ (Option PairError) := do
  let err : Option Err ← ask .ctxErr
  match err with
  | some e => pure (some (.other e))
  | none => do
    let result : Except PairError ResolvedPersistenceContext ← ask (.resolve input)
    match result with
    | .error e => pure (some e)
    | .ok resolved =>
      if resolved.partyID = writer.recovery.partyID then publishTo writer.recovery resolved
      else if resolved.partyID ≠ writer.primary.partyID then pure (some .contextMismatch)
      else publishTo writer.primary resolved

def pairBody : PairCall κ → PairProg κ (Option PairError)
  | .registerPair registration => registerPair L registration
  | .release lease => do
    let _ : Unit ← ask (.release lease)
    pure none
  | .saveShare input => saveShare writer input

end

namespace ActivePair
variable {κ : Type} [DecidableEq κ]

def register (s : ActivePair κ) (i : κ) (pair : Pair) : ActivePair κ :=
  { generation := s.generation + 1
    active := some ⟨s.generation + 1,pair⟩
    leases := Function.update s.leases i (some (s.generation + 1)) }

/-- The locked region of `Release`; there is none for a call that returned no lease. -/
def release (s : ActivePair κ) (lease : κ) : ActivePair κ :=
  if s.active.isSome && s.active.map (·.generation) == s.leases lease then
    { s with active := none }
  else s

end ActivePair

section
variable {κ : Type} [DecidableEq κ]

/-- What a step answers and does; contexts end at any time and a publication has any outcome. -/
def pairSem (i : κ) : (o : PairOp κ) → ActivePair κ → o.Ans → ActivePair κ → Prop
  | .register pair, s, r, t =>
      r = s.active.isNone ∧ t = if s.active.isNone then s.register i pair else s
  | .release lease, s, _, t => t = s.release lease
  | .resolve input, s, r, t => r = resolve s.active input ∧ t = s
  | .ctxErr, s, _, t | .publish _ _, s, _, t => t = s

def pairTeam (L : Libraries) (writer : RoutingWriter) (calls : κ → PairCall κ) :
    Team κ (PairOp κ) PairOp.Ans (ActivePair κ) (Option PairError) where
  sem := pairSem
  body i := pairBody L writer (calls i)

end

/-! The pair that is registered, by who registered it. -/

inductive PairMark (κ : Type) where
  | registered (pair : Pair)
  | released (lease : κ)
  | started
  | resolved (input : SaveShareInput) (result : Except PairError ResolvedPersistenceContext)
  | published (store : StoreConfig) (input : PublishInput)
  | other
  deriving DecidableEq

abbrev PairLog (κ : Type) := List (κ × PairMark κ)

section
variable {κ : Type}

def pairMark : PairEvent κ → PairMark κ
  | ⟨.register pair,true⟩ => .registered pair
  | ⟨.release lease,_⟩ => .released lease
  | ⟨.ctxErr,_⟩ => .started
  | ⟨.resolve input,result⟩ => .resolved input result
  | ⟨.publish store input,_⟩ => .published store input
  | _ => .other

def isRegistered : κ × PairMark κ → Bool
  | (_,.registered _) => true
  | _ => false

def registrations (l : PairLog κ) : Nat := l.countP isRegistered

theorem registrations_snoc (l : PairLog κ) (m : κ × PairMark κ) :
    registrations (l ++ [m]) = registrations l + if isRegistered m then 1 else 0 := by
  simp [registrations]

variable [DecidableEq κ]

/-- The pair that is registered after a step, if `current` was before it. -/
def registeredAfter (current : Option (κ × Pair)) : κ × PairMark κ → Option (κ × Pair)
  | (i,.registered pair) => some (i,pair)
  | (_,.released lease) => if current.map Prod.fst = some lease then none else current
  | _ => current

/-- The registered pair, and the call that registered it. -/
def registered (l : PairLog κ) : Option (κ × Pair) := l.foldl registeredAfter none

theorem registered_snoc (l : PairLog κ) (m : κ × PairMark κ) :
    registered (l ++ [m]) = registeredAfter (registered l) m := by
  simp [registered]

end

section
variable {κ : Type} {L : Libraries} {writer : RoutingWriter} {calls : κ → PairCall κ}

/-! What the programs say about themselves. -/

/-- Where a call may be when it makes a step. -/
def pairPre (L : Libraries) (writer : RoutingWriter) (calls : κ → PairCall κ) (i : κ) :
    PairOp κ → List (PairEvent κ) → Prop
  | .register pair, _ => ∃ registration,
      calls i = .registerPair registration ∧ registration.pair L = some pair
  | .resolve input, own => own = [⟨.ctxErr,none⟩] ∧ calls i = .saveShare input
  | .publish store published, own => ∃ input resolved,
      own = [⟨.ctxErr,none⟩,⟨.resolve input,.ok resolved⟩] ∧ calls i = .saveShare input ∧
        published = resolved.publishInput ∧ store.partyID = resolved.partyID ∧
        (store = writer.primary ∨ store = writer.recovery)
  | _, _ => True

/-- A call that could not resolve the pair returns that error. -/
def pairPost (result : Option PairError) (own : List (PairEvent κ)) : Prop :=
  ∀ input e, .resolved input (.error e) ∈ own.map pairMark → result = some e

theorem publishTo_meets {i : κ} {store : StoreConfig} {resolved : ResolvedPersistenceContext}
    {input : SaveShareInput} (hcall : calls i = .saveShare input)
    (hparty : store.partyID = resolved.partyID)
    (hstore : store = writer.primary ∨ store = writer.recovery) :
    (publishTo store resolved).Meets (Prog.tracing (fun _ _ => True) (pairPre L writer calls i))
      pairPost [⟨.ctxErr,none⟩,⟨.resolve input,.ok resolved⟩] := by
  refine Prog.meets_perform ⟨input,resolved,rfl,hcall,rfl,hparty,hstore⟩ ?_
  intro (err : Option Err) _
  refine Prog.meets_pure ?_
  intro input' e hmem
  simp [pairMark] at hmem

theorem saveShare_meets {i : κ} {input : SaveShareInput} (hcall : calls i = .saveShare input) :
    (saveShare writer input).Meets (Prog.tracing (fun _ _ => True) (pairPre L writer calls i))
      pairPost [] := by
  refine Prog.meets_perform trivial ?_
  intro (err : Option Err) _
  cases err with
  | some e => exact Prog.meets_pure (fun input' e' hmem => by simp [pairMark] at hmem)
  | none =>
    refine Prog.meets_perform ⟨rfl,hcall⟩ ?_
    intro (result : Except PairError ResolvedPersistenceContext) _
    cases result with
    | error e =>
      refine Prog.meets_pure ?_
      intro input' e' hmem
      simp only [List.nil_append, List.cons_append, List.map_cons, List.map_nil, pairMark,
        List.mem_cons, reduceCtorEq, PairMark.resolved.injEq, Except.error.injEq,
        List.not_mem_nil, or_false, false_or] at hmem
      rw [hmem.2]
    | ok resolved =>
      show Prog.Meets _ (if resolved.partyID = writer.recovery.partyID then _ else _) _ _
      by_cases hrecovery : resolved.partyID = writer.recovery.partyID
      · rw [if_pos hrecovery]
        exact publishTo_meets hcall hrecovery.symm (.inr rfl)
      · rw [if_neg hrecovery]
        by_cases hprimary : resolved.partyID = writer.primary.partyID
        · rw [if_neg (not_not.mpr hprimary)]
          exact publishTo_meets hcall hprimary.symm (.inl rfl)
        · rw [if_pos hprimary]
          exact Prog.meets_pure (fun input' e' hmem => by simp [pairMark] at hmem)

theorem registerPair_meets {i : κ} {registration : PairRegistration}
    (hcall : calls i = .registerPair registration) :
    (registerPair L registration).Meets
      (Prog.tracing (fun _ _ => True) (pairPre L writer calls i)) pairPost [] := by
  unfold registerPair
  cases hpair : registration.pair L with
  | none => exact Prog.meets_pure (fun input e hmem => by simp at hmem)
  | some pair =>
    refine Prog.meets_perform ⟨registration,hcall,hpair⟩ ?_
    intro (free : Bool) _
    refine Prog.meets_pure ?_
    intro input e hmem
    cases free <;> simp [pairMark] at hmem

end

section
variable {κ : Type} [DecidableEq κ] {L : Libraries} {writer : RoutingWriter}
  {calls : κ → PairCall κ}

theorem pairTeam_disciplined :
    (pairTeam L writer calls).Disciplined (fun _ _ => True) (pairPre L writer calls)
      (fun _ => pairPost) := by
  refine ⟨fun _ _ _ _ _ _ => trivial,?_⟩
  intro i
  show (pairBody L writer (calls i)).Meets _ _ _
  cases hcall : calls i with
  | registerPair registration => exact registerPair_meets hcall
  | release lease =>
    refine Prog.meets_perform trivial ?_
    intro _ _
    exact Prog.meets_pure (fun input' e' hmem => by simp [pairMark] at hmem)
  | saveShare input => exact saveShare_meets hcall

/-! What holds along every run. -/

/-- Everything that a step can be. -/
inductive PairStep (i : κ) : PairMark κ → ActivePair κ → ActivePair κ → Prop
  | registered {s : ActivePair κ} (pair : Pair) (hfree : s.active = none) :
      PairStep i (.registered pair) s (s.register i pair)
  | released {s : ActivePair κ} (lease : κ) : PairStep i (.released lease) s (s.release lease)
  | resolved {s : ActivePair κ} (input : SaveShareInput) :
      PairStep i (.resolved input (resolve s.active input)) s s
  | started {s : ActivePair κ} : PairStep i .started s s
  | published {s : ActivePair κ} (store : StoreConfig) (input : PublishInput) :
      PairStep i (.published store input) s s
  | other {s : ActivePair κ} : PairStep i .other s s

theorem pairSem_step {i : κ} {o : PairOp κ} {s t : ActivePair κ} {r : o.Ans}
    (h : pairSem i o s r t) : PairStep i (pairMark ⟨o,r⟩) s t := by
  cases o with
  | register pair =>
    obtain ⟨rfl,rfl⟩ := h
    cases hactive : s.active with
    | none => exact .registered pair hactive
    | some a => exact .other
  | release lease =>
    obtain rfl := h
    exact .released lease
  | resolve input =>
    obtain ⟨rfl,rfl⟩ := h
    exact .resolved input
  | ctxErr =>
    obtain rfl := h
    exact .started
  | publish store input =>
    obtain rfl := h
    exact .published store input

/-- The state has the registered pair, and leases of different calls are told apart by their
generations as long as these have not come round. -/
structure PairKnown (l : PairLog κ) (s : ActivePair κ) : Prop where
  generation : s.generation.toNat = registrations l
  bounded : ∀ j g, s.leases j = some g → g.toNat ≤ s.generation.toNat
  distinct : ∀ j k g, s.leases j = some g → s.leases k = some g → j = k
  active : (registered l = none ∧ s.active = none) ∨ ∃ j pair g,
    registered l = some (j,pair) ∧ s.active = some ⟨g,pair⟩ ∧ s.leases j = some g

/-- What the programs say of the moment of a step. -/
structure PairPlaced (L : Libraries) (writer : RoutingWriter) (calls : κ → PairCall κ)
    (l : PairLog κ) (i : κ) (m : PairMark κ) : Prop where
  registered : ∀ pair, m = .registered pair → ∃ registration,
    calls i = .registerPair registration ∧ registration.pair L = some pair
  resolved : ∀ input result, m = .resolved input result →
    ∀ store published, (i,.published store published) ∉ l
  published : ∀ store published, m = .published store published → ∃ input resolved,
    (i,.resolved input (.ok resolved)) ∈ l ∧
      (∀ input' result, (i,.resolved input' result) ∈ l → result = .ok resolved) ∧
      calls i = .saveShare input ∧ published = resolved.publishInput ∧
      store.partyID = resolved.partyID ∧ (store = writer.primary ∨ store = writer.recovery)

def pairLog (h : Moves κ (PairOp κ) PairOp.Ans) : PairLog κ := Team.notes pairMark h

theorem pairPlaced_of_pre {h : Moves κ (PairOp κ) PairOp.Ans} {i : κ} {o : PairOp κ} {r : o.Ans}
    (hpre : pairPre L writer calls i o (Team.own i h)) :
    PairPlaced L writer calls (pairLog h) i (pairMark ⟨o,r⟩) := by
  cases o with
  | register pair =>
    cases r using Bool.rec with
    | false => exact ⟨by simp [pairMark],by simp [pairMark],by simp [pairMark]⟩
    | true =>
      refine ⟨?_,by simp [pairMark],by simp [pairMark]⟩
      intro pair' hmark
      obtain rfl : pair = pair' := by simpa [pairMark] using hmark
      exact hpre
  | resolve input =>
    refine ⟨by simp [pairMark],?_,by simp [pairMark]⟩
    intro _ _ _ store published
    simp [pairLog, Team.mem_notes, hpre.1, pairMark]
  | publish store published =>
    obtain ⟨input,resolved,hown,hcall,hpublished,hparty,hstore⟩ := hpre
    refine ⟨by simp [pairMark],by simp [pairMark],?_⟩
    intro store' published' hmark
    obtain ⟨rfl,rfl⟩ : store = store' ∧ published = published' := by simpa [pairMark] using hmark
    refine ⟨input,resolved,?_,?_,hcall,hpublished,hparty,hstore⟩
    · simp [pairLog, Team.mem_notes, hown, pairMark]
    · intro input' result hmem
      have hsame : input' = input ∧ result = .ok resolved := by
        simpa [pairLog, Team.mem_notes, hown, pairMark] using hmem
      exact hsame.2
  | _ => exact ⟨by simp [pairMark],by simp [pairMark],by simp [pairMark]⟩

section
variable {l : PairLog κ} {s t : ActivePair κ} {i : κ} {m : PairMark κ}

theorem PairKnown.register (hs : PairKnown l s) (pair : Pair)
    (hbound : registrations (l ++ [(i,.registered pair)]) < 2 ^ 64) :
    PairKnown (l ++ [(i,.registered pair)]) (s.register i pair) := by
  have hcount : registrations (l ++ [(i,.registered pair)]) = registrations l + 1 :=
    registrations_snoc l _
  have hnext : (s.generation + 1).toNat = s.generation.toNat + 1 := by
    rw [UInt64.toNat_add, hs.generation]
    exact Nat.mod_eq_of_lt (hcount ▸ hbound)
  have hgeneration : (s.register i pair).generation = s.generation + 1 := rfl
  have hleases : (s.register i pair).leases =
      Function.update s.leases i (some (s.generation + 1)) := rfl
  have hfresh : ∀ j, s.leases j ≠ some (s.generation + 1) := by
    intro j hj
    have := hs.bounded j _ hj
    omega
  refine ⟨by rw [hgeneration, hnext, hcount, hs.generation],?_,?_,
    .inr ⟨i,pair,s.generation + 1,?_,rfl,?_⟩⟩
  · intro j g hj
    rw [hleases] at hj
    rw [hgeneration, hnext]
    by_cases hji : j = i
    · obtain rfl : s.generation + 1 = g := by simpa [hji] using hj
      omega
    · rw [Function.update_of_ne hji] at hj
      have := hs.bounded j g hj
      omega
  · intro j k g hj hk
    rw [hleases] at hj hk
    by_cases hji : j = i <;> by_cases hki : k = i
    · rw [hji, hki]
    · obtain rfl : s.generation + 1 = g := by simpa [hji] using hj
      rw [Function.update_of_ne hki] at hk
      exact absurd hk (hfresh k)
    · obtain rfl : s.generation + 1 = g := by simpa [hki] using hk
      rw [Function.update_of_ne hji] at hj
      exact absurd hj (hfresh j)
    · rw [Function.update_of_ne hji] at hj
      rw [Function.update_of_ne hki] at hk
      exact hs.distinct j k g hj hk
  · rw [registered_snoc]
    rfl
  · rw [hleases, Function.update_self]

theorem PairKnown.release (hs : PairKnown l s) (lease : κ) :
    PairKnown (l ++ [(i,.released lease)]) (s.release lease) := by
  have hcount : registrations (l ++ [(i,.released lease)]) = registrations l :=
    registrations_snoc l _
  have hgeneration : (s.release lease).generation = s.generation := by
    unfold ActivePair.release
    split <;> rfl
  have hleases : (s.release lease).leases = s.leases := by
    unfold ActivePair.release
    split <;> rfl
  refine ⟨by rw [hgeneration, hcount, hs.generation],by rw [hleases, hgeneration]; exact hs.bounded,
    by rw [hleases]; exact hs.distinct,?_⟩
  rw [registered_snoc, hleases]
  cases hs.active with
  | inl h =>
    refine .inl ⟨by simp [registeredAfter, h.1],?_⟩
    unfold ActivePair.release
    simp [h.2]
  | inr h =>
    obtain ⟨j,pair,g,hreg,hactive,hlease⟩ := h
    by_cases hj : j = lease
    · obtain rfl := hj
      exact .inl ⟨by simp [registeredAfter, hreg],by simp [ActivePair.release, hactive, hlease]⟩
    · have hother : s.leases lease ≠ some g := fun h => hj (hs.distinct j lease g hlease h)
      refine .inr ⟨j,pair,g,by simp [registeredAfter, hreg, hj],?_,hlease⟩
      simp [ActivePair.release, hactive, Ne.symm hother]

theorem PairKnown.idle (hs : PairKnown l s) (hm : isRegistered (i,m) = false)
    (hsame : registeredAfter (registered l) (i,m) = registered l) : PairKnown (l ++ [(i,m)]) s := by
  obtain ⟨hgeneration,hbounded,hdistinct,hactive⟩ := hs
  refine ⟨by simp [registrations_snoc, hgeneration, hm],hbounded,hdistinct,?_⟩
  rw [registered_snoc, hsame]
  exact hactive

theorem PairKnown.step (hs : PairKnown l s) (h : PairStep i m s t)
    (hbound : registrations (l ++ [(i,m)]) < 2 ^ 64) : PairKnown (l ++ [(i,m)]) t := by
  cases h with
  | registered pair hfree => exact hs.register pair hbound
  | released lease => exact hs.release lease
  | _ => exact hs.idle rfl rfl

end

theorem pairKnown_start : PairKnown ([] : PairLog κ) {} := by
  refine ⟨rfl,?_,?_,.inl ⟨rfl,rfl⟩⟩ <;> simp

variable {h : Moves κ (PairOp κ) PairOp.Ans} {rest : κ → PairProg κ (Option PairError)}
  {s : ActivePair κ}

theorem pairKnown_of_run (hrun : (pairTeam L writer calls).Run {} h rest s)
    (hbound : registrations (pairLog h) < 2 ^ 64) : PairKnown (pairLog h) s := by
  refine hrun.invariant pairTeam_disciplined
    (fun h s => registrations (pairLog h) < 2 ^ 64 → PairKnown (pairLog h) s)
    (fun _ => pairKnown_start) ?_ hbound
  intro h s i o r t hs _ hsem hbound
  rw [pairLog, Team.notes_snoc] at hbound ⊢
  have hbefore : registrations (pairLog h) < 2 ^ 64 := by
    rw [registrations_snoc] at hbound
    exact lt_of_le_of_lt (Nat.le_add_right _ _) hbound
  exact (hs hbefore).step (pairSem_step hsem) hbound

theorem pairKnown_before (hrun : (pairTeam L writer calls).Run {} h rest s)
    (hbound : registrations (pairLog h) < 2 ^ 64) {l₁ l₂ : PairLog κ} {i : κ} {m : PairMark κ}
    (hl : pairLog h = l₁ ++ (i,m) :: l₂) :
    ∃ s' t, PairKnown l₁ s' ∧ PairPlaced L writer calls l₁ i m ∧ PairStep i m s' t := by
  obtain ⟨h₁,rest',s',o,r,t,k,rfl,rfl,hbefore,hi,hsem,-⟩ := hrun.split_notes hl
  have hless : registrations (pairLog h₁) < 2 ^ 64 := by
    refine lt_of_le_of_lt ?_ hbound
    rw [hl, registrations, registrations, List.countP_append]
    exact Nat.le_add_right _ _
  exact ⟨s',t,pairKnown_of_run hbefore hless,
    pairPlaced_of_pre (hbefore.allowed pairTeam_disciplined hi),pairSem_step hsem⟩

theorem PairKnown.resolve_eq {l : PairLog κ} (hs : PairKnown l s) {input : SaveShareInput} :
    (registered l = none → resolve s.active input = .error .notRegistered) ∧
      ∀ resolved, resolve s.active input = .ok resolved → ∃ j pair,
        registered l = some (j,pair) ∧ Fits input pair ∧ resolved.sessionID = pair.sessionID ∧
          resolved.keyID = pair.keyID ∧ resolved.descriptorBytes = pair.descriptorBytes ∧
          resolved.partyID = input.localPartyID ∧ resolved.codecBlob = input.codecBlob := by
  cases hs.active with
  | inl hnone => simp [hnone.2, resolve]
  | inr hsome =>
    obtain ⟨j,pair,g,hreg,hactive,-⟩ := hsome
    refine ⟨by simp [hreg],?_⟩
    intro resolved hresolved
    rw [hactive] at hresolved
    simp only [resolve] at hresolved
    split at hresolved
    · simp at hresolved
    · rename_i hfits
      simp only [Bool.or_eq_true, bne_iff_ne, ne_eq, Bool.not_eq_true', Bool.or_eq_false_iff,
        beq_eq_false_iff_ne, not_or, not_and, not_not] at hfits
      obtain rfl := Except.ok.inj hresolved
      exact ⟨j,pair,hreg,⟨hfits.1.1.1,hfits.1.1.2,or_iff_not_imp_left.mpr hfits.1.2,hfits.2⟩,rfl,rfl,
        rfl,rfl,rfl⟩

/-- The input with which the share of a pair is published. -/
def PairRegistration.publication (registration : PairRegistration) (input : SaveShareInput) :
    PublishInput where
  sessionID := registration.sessionID
  keyID := registration.keyID
  partyID := input.localPartyID
  descriptorBytes := registration.descriptorBytes
  codecBlob := input.codecBlob

/-- What is claimed of a run with the log `l`, in which `rest` remains of the calls. -/
structure PairSafe (L : Libraries) (writer : RoutingWriter) (calls : κ → PairCall κ)
    (l : PairLog κ) (rest : κ → PairProg κ (Option PairError)) (s : ActivePair κ) : Prop where
  /-- The state has the registered pair. -/
  active : s.active.map (·.pair) = (registered l).map Prod.snd
  /-- A pair is registered only while none is. -/
  alone : ∀ l₁ l₂ i pair, l = l₁ ++ (i,.registered pair) :: l₂ → registered l₁ = none
  /-- A share is published for the pair that was registered when the call resolved it, into the
  store of its party. -/
  published : ∀ l₁ l₂ i store published, l = l₁ ++ (i,.published store published) :: l₂ →
    ∃ input result g₁ g₂ j registration pair, calls i = .saveShare input ∧
      l₁ = g₁ ++ (i,.resolved input result) :: g₂ ∧ registered g₁ = some (j,pair) ∧
      calls j = .registerPair registration ∧ registration.pair L = some pair ∧ Fits input pair ∧
      published = registration.publication input ∧ store.partyID = input.localPartyID ∧
      (store = writer.primary ∨ store = writer.recovery)
  /-- A call that resolves while no pair is registered fails and publishes nothing. -/
  unregistered : ∀ l₁ l₂ i input result, l = l₁ ++ (i,.resolved input result) :: l₂ →
    registered l₁ = none → (∀ store published, (i,.published store published) ∉ l) ∧
      ∀ a, rest i = .ret a → a = some .notRegistered
  /-- The release of a lease leaves the pair of another registration. -/
  stale : ∀ l₁ l₂ i lease j pair, l = l₁ ++ (i,.released lease) :: l₂ →
    registered l₁ = some (j,pair) → lease ≠ j →
    registered (l₁ ++ [(i,.released lease)]) = some (j,pair)

theorem registered_mem {l : PairLog κ} {j : κ} {pair : Pair}
    (h : registered l = some (j,pair)) : (j,.registered pair) ∈ l := by
  induction l using List.reverseRecOn with
  | nil => simp [registered] at h
  | append_singleton l m ih =>
    rw [registered_snoc] at h
    obtain ⟨i,m⟩ := m
    cases m with
    | registered pair' =>
      obtain ⟨rfl,rfl⟩ : i = j ∧ pair' = pair := by simpa [registeredAfter] using h
      simp
    | released lease =>
      simp only [registeredAfter] at h
      split at h
      · simp at h
      · exact List.mem_append_left _ (ih h)
    | _ => exact List.mem_append_left _ (ih h)

theorem resolved_of_published (hrun : (pairTeam L writer calls).Run {} h rest s) :
    ∀ i store published input result, (i,.published store published) ∈ pairLog h →
      (i,.resolved input result) ∈ pairLog h → ∃ resolved, result = .ok resolved := by
  refine hrun.invariant pairTeam_disciplined (fun h _ => ∀ i store published input result,
    (i,.published store published) ∈ pairLog h → (i,.resolved input result) ∈ pairLog h →
      ∃ resolved, result = .ok resolved) (by simp [pairLog, Team.notes]) ?_
  intro h s i o r t hs hpre _
  have hplaced := pairPlaced_of_pre (r := r) hpre
  rw [pairLog, Team.notes_snoc]
  intro j store published input result hpublished hresolved
  cases List.mem_append.mp hpublished with
  | inl hearlier =>
    cases List.mem_append.mp hresolved with
    | inl hresolved => exact hs j store published input result hearlier hresolved
    | inr hnow =>
      obtain ⟨rfl,hmark⟩ := Prod.mk.inj (List.mem_singleton.mp hnow)
      exact absurd hearlier (hplaced.resolved input result hmark.symm store published)
  | inr hnow =>
    obtain ⟨rfl,hmark⟩ := Prod.mk.inj (List.mem_singleton.mp hnow)
    obtain ⟨-,resolved,-,honly,-⟩ := hplaced.published store published hmark.symm
    cases List.mem_append.mp hresolved with
    | inl hearlier => exact ⟨resolved,honly input result hearlier⟩
    | inr hnow =>
      obtain ⟨-,hmark'⟩ := Prod.mk.inj (List.mem_singleton.mp hnow)
      simp [← hmark] at hmark'

theorem pair_routing (L : Libraries) (writer : RoutingWriter) (calls : κ → PairCall κ)
    (hrun : (pairTeam L writer calls).Run {} h rest s)
    (hbound : registrations (pairLog h) < 2 ^ 64) :
    PairSafe L writer calls (pairLog h) rest s := by
  have hknown := pairKnown_of_run hrun hbound
  refine ⟨?_,?_,?_,?_,?_⟩
  · cases hknown.active with
    | inl hnone => simp [hnone.1, hnone.2]
    | inr hsome =>
      obtain ⟨j,pair,g,hreg,hactive,-⟩ := hsome
      simp [hreg, hactive]
  · intro l₁ l₂ i pair hl
    obtain ⟨s',t,hknown',-,hstep⟩ := pairKnown_before hrun hbound hl
    cases hstep with
    | registered _ hfree =>
      cases hknown'.active with
      | inl hnone => exact hnone.1
      | inr hsome =>
        obtain ⟨j,pair',g,-,hactive,-⟩ := hsome
        simp [hactive] at hfree
  · intro l₁ l₂ i store published hl
    obtain ⟨-,-,-,hplaced,-⟩ := pairKnown_before hrun hbound hl
    obtain ⟨input,resolved,hmem,-,hcall,hpublished,hparty,hstore⟩ := hplaced.published _ _ rfl
    obtain ⟨g₁,g₂,rfl⟩ := List.append_of_mem hmem
    obtain ⟨s',t,hknown',-,hstep⟩ := pairKnown_before hrun hbound
      (show pairLog h = g₁ ++ (i,.resolved input (.ok resolved)) ::
        (g₂ ++ (i,.published store published) :: l₂) by rw [hl]; simp)
    generalize hresult : Except.ok resolved = result at hstep
    cases hstep with
    | resolved _ =>
      obtain ⟨j,pair,hreg,hfits,hsession,hkey,hbytes,hlocal,hblob⟩ :=
        hknown'.resolve_eq.2 resolved hresult.symm
      obtain ⟨m₁,m₂,hm⟩ := List.append_of_mem (registered_mem hreg)
      obtain ⟨-,-,-,hplaced',-⟩ := pairKnown_before hrun hbound
        (show pairLog h = m₁ ++ (j,.registered pair) :: (m₂ ++ (i,.resolved input (.ok resolved)) ::
          (g₂ ++ (i,.published store published) :: l₂)) by rw [hl, hm]; simp)
      obtain ⟨registration,hcall',hpair⟩ := hplaced'.registered _ rfl
      obtain ⟨hsession',hkey',hbytes'⟩ := PairRegistration.pair_some hpair
      refine ⟨input,_,g₁,g₂,j,registration,pair,hcall,rfl,hreg,hcall',hpair,hfits,?_,
        hparty.trans hlocal,hstore⟩
      rw [hpublished, ResolvedPersistenceContext.publishInput, PairRegistration.publication,
        hsession, hkey, hbytes, hlocal, hblob, hsession', hkey', hbytes']
  · intro l₁ l₂ i input result hl hnone
    obtain ⟨s',t,hknown',hplaced,hstep⟩ := pairKnown_before hrun hbound hl
    have hresult : result = .error .notRegistered := by
      cases hstep with
      | resolved _ => exact hknown'.resolve_eq.1 hnone
    refine ⟨?_,?_⟩
    · intro store published hmem
      obtain ⟨resolved,hok⟩ := resolved_of_published hrun i store published input result hmem
        (by rw [hl]; simp)
      simp [hresult] at hok
    · intro a hret
      have hpost := hrun.returned pairTeam_disciplined hret
      refine hpost input .notRegistered ?_
      rw [← Team.mem_notes]
      show (i,_) ∈ pairLog h
      rw [hl, hresult]
      simp
  · intro l₁ l₂ i lease j pair _ hreg hne
    rw [registered_snoc, registeredAfter, hreg]
    simp [Ne.symm hne]

/-- The answers of an environment in which no context ends and every publication succeeds. -/
def pairAnswer (i : κ) : (o : PairOp κ) → ActivePair κ → o.Ans × ActivePair κ
  | .register pair, s => (s.active.isNone,if s.active.isNone then s.register i pair else s)
  | .release lease, s => ((),s.release lease)
  | .resolve input, s => (resolve s.active input,s)
  | .ctxErr, s | .publish _ _, s => (none,s)

theorem pairAnswer_sem (i : κ) (o : PairOp κ) (s : ActivePair κ) :
    pairSem i o s (pairAnswer i o s).1 (pairAnswer i o s).2 := by
  cases o with
  | register pair => exact ⟨rfl,rfl⟩
  | resolve input => exact ⟨rfl,rfl⟩
  | _ => rfl

end

/-! A key registered, released and registered again, with shares saved in between. -/

def sampleWriter : RoutingWriter where
  primary := goldenConfig .primary
  recovery := goldenConfig .recovery
  valid := by decide +kernel

def sampleRegistration : PairRegistration where
  sessionID := goldenInput.sessionID
  keyID := goldenDescriptor.keyID
  primaryPartyID := ascii "co-signer-primary"
  recoveryPartyID := ascii "co-signer-recovery"
  descriptorBytes := goldenDescriptor.encode

def samplePair : Pair where
  sessionID := goldenInput.sessionID
  keyID := goldenDescriptor.keyID
  primaryPartyID := ascii "co-signer-primary"
  recoveryPartyID := ascii "co-signer-recovery"
  descriptorBytes := goldenDescriptor.encode
  fingerprint := goldenLibraries.sha256 goldenDescriptor.encode

def sampleShare : SaveShareInput where
  sessionID := goldenInput.sessionID
  keyID := goldenDescriptor.keyID
  localPartyID := ascii "co-signer-recovery"
  opaqueDescriptorFingerprint := goldenLibraries.sha256 goldenDescriptor.encode
  codecBlob := [1,2,3]

def samplePairCalls : Nat → PairCall Nat
  | 0 => .registerPair sampleRegistration
  | 3 => .registerPair sampleRegistration
  | 2 => .saveShare sampleShare
  | _ => .release 0

def samplePairLog : PairLog Nat := [
  (0,.registered samplePair),(1,.released 0),(2,.started),(3,.registered samplePair),
  (4,.released 0),
  (2,.resolved sampleShare (.ok ⟨samplePair.sessionID,samplePair.keyID,sampleShare.localPartyID,
    samplePair.descriptorBytes,sampleShare.codecBlob⟩)),
  (2,.published sampleWriter.recovery (sampleRegistration.publication sampleShare))]

theorem samplePair_run : ∃ d : Team.Point Nat (PairOp Nat) PairOp.Ans (ActivePair Nat)
    (Option PairError), pairLog d.moves = samplePairLog ∧ d.rest 2 = .ret none ∧
      (pairTeam goldenLibraries sampleWriter samplePairCalls).Run {} d.moves d.rest d.shared := by
  have hplay : (Team.play (Team.serving (fun _ _ _ => false) pairAnswer)
      (pairTeam goldenLibraries sampleWriter samplePairCalls) {} [0,1,2,3,4,2,2]).map
        (fun d => (pairLog d.moves,(d.rest 2).result)) = some (samplePairLog,some none) := by
    decide +kernel
  obtain ⟨d,hd,heq⟩ := Option.map_eq_some_iff.mp hplay
  obtain ⟨hlog,hrest⟩ := Prod.mk.inj heq
  exact ⟨d,hlog,Prog.result_some hrest,Team.play_serving (fun i o s _ => pairAnswer_sem i o s) hd⟩

theorem pair_routing_sample : ∃ h rest s, pairLog h = samplePairLog ∧
    PairSafe goldenLibraries sampleWriter samplePairCalls (pairLog h) rest s := by
  obtain ⟨d,hlog,-,hrun⟩ := samplePair_run
  exact ⟨d.moves,d.rest,d.shared,hlog,
    pair_routing _ _ _ hrun (by rw [hlog]; decide +kernel)⟩

/-- A share saved by a call that started while no pair was registered. -/
theorem saved_after_release : ∃ h rest s,
    (pairTeam goldenLibraries sampleWriter samplePairCalls).Run {} h rest s ∧
      ∃ l₁ l₂, pairLog h = l₁ ++ (2,.started) :: l₂ ∧ (1,.released 0) ∈ l₁ ∧
        registered l₁ = none ∧ rest 2 = .ret none := by
  obtain ⟨d,hlog,hrest,hrun⟩ := samplePair_run
  refine ⟨d.moves,d.rest,d.shared,hrun,[(0,.registered samplePair),(1,.released 0)],_,hlog,?_,?_,
    hrest⟩
  · simp
  · simp [registered, registeredAfter]

end CoSigner.Sharestore
