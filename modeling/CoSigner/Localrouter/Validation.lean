import CoSigner.Contract.Encodings
import CoSigner.Lib.Json.Number
import CoSigner.Lib.Strings
import Mathlib.Data.Set.Function

/-! Frame acceptance (`localrouter/validation.go`): the frames that `validateAndRecord` lets
through, over every sequence of frames it is given. -/
namespace CoSigner.Localrouter
open Json Contract

/-- `protocol.Frame`. -/
structure Frame where
  sessionID : Bytes := []
  stage : Bytes := []
  protocol : Bytes := []
  messageID : Bytes := []
  seq : Nat := 0
  round : Nat := 0
  roundHint : Nat := 0
  broadcast : Bool := false
  fromParty : Bytes := []
  toParty : Bytes := []
  messageType : Bytes := []
  payloadHash : Bytes := []
  derivationContextHash : Bytes := []
  payload : Bytes := []
  deriving DecidableEq, Repr

structure Config where
  sessionID : Bytes
  platformPartyID : Bytes
  primaryPartyID : Bytes
  recoveryPartyID : Bytes
  stage : Bytes
  protocol : Bytes
  deriving DecidableEq, Repr

inductive RouteError where
  | invalidFrame | duplicateFrame | frameConflict | unsupportedParty | routerClosed
  | queueOverflow
  deriving DecidableEq, Repr

structure SequenceRecord where
  messageID : Bytes
  digest : Bytes
  deriving DecidableEq, Repr

/-- The maps of a `frameValidator`. -/
structure Validator where
  seen : Bytes → Option Bytes := fun _ => none
  maxSequence : Bytes → Nat := fun _ => 0
  sequenceOwner : Bytes → Option (Nat → Option SequenceRecord) := fun _ => none

def Config.validRecipient (config : Config) (frame : Frame) : Bool :=
  if frame.broadcast then frame.toParty == []
  else
    !(frame.toParty == [] || frame.toParty == frame.fromParty) &&
      (frame.toParty == config.platformPartyID || frame.toParty == config.primaryPartyID ||
        frame.toParty == config.recoveryPartyID)

def decimal (n : Nat) : Bytes := ascii (toString n)

def boolText (b : Bool) : Bytes := if b then ascii "true" else ascii "false"

def Frame.keyParts (frame : Frame) : List Bytes :=
  [frame.sessionID,frame.fromParty,if frame.broadcast then ascii "*" else frame.toParty,
    frame.messageID,decimal frame.seq]

def frameKey (frame : Frame) : Bytes := Strings.join 0x7C frame.keyParts

section
variable (L : Libraries)

def payloadHash (payload : Bytes) : Bytes := hexEncode ((L.sha256 payload).take 8)

def Frame.digestText (frame : Frame) : Bytes :=
  Strings.join 0 [frame.sessionID,frame.stage,frame.protocol,decimal frame.seq,
    decimal frame.round,decimal frame.roundHint,boolText frame.broadcast,frame.fromParty,
    frame.toParty,frame.messageType,frame.payloadHash,frame.derivationContextHash,
    hexEncode frame.payload]

def frameDigest (frame : Frame) : Bytes := L.sha256 frame.digestText

def Frame.sequenceParts (frame : Frame) : List Bytes :=
  [frame.sessionID,frame.stage,frame.protocol,decimal frame.seq,decimal frame.round,
    decimal frame.roundHint,boolText frame.broadcast,frame.fromParty,frame.messageType,
    frame.payloadHash,frame.derivationContextHash,hexEncode frame.payload]

def frameSequenceDigest (frame : Frame) : Bytes := L.sha256 (Strings.join 0 frame.sequenceParts)

def Frame.sequenceRecord (frame : Frame) : SequenceRecord where
  messageID := frame.messageID
  digest := frameSequenceDigest L frame

/-- The checks of `validateAndRecord` that need no record. -/
def Config.refuses (config : Config) (frame : Frame) (authenticatedSender : Bytes) : Bool :=
  frame.sessionID != config.sessionID || frame.stage != config.stage ||
    !Strings.equalFold frame.protocol config.protocol || frame.fromParty != authenticatedSender ||
    frame.messageID == [] || frame.seq == 0 || (frame.round == 0 && frame.roundHint == 0) ||
    frame.payload == [] ||
    (frame.round != 0 && frame.roundHint != 0 && frame.round != frame.roundHint) ||
    (frame.payloadHash != [] && frame.payloadHash != payloadHash L frame.payload) ||
    !config.validRecipient frame

/-- The map of the sender, made if there is none yet; a frame refused later leaves it. -/
def Validator.openOwners (v : Validator) (party : Bytes) : Validator :=
  match v.sequenceOwner party with
  | some _ => v
  | none => { v with
      sequenceOwner := Function.update v.sequenceOwner party (some fun _ => none) }

def Validator.owner (v : Validator) (party : Bytes) (seq : Nat) : Option SequenceRecord :=
  (v.sequenceOwner party).bind (· seq)

/-- The checks of `validateAndRecord` against the records. -/
def Validator.verdict (v : Validator) (frame : Frame) : Option RouteError :=
  if frame.seq < v.maxSequence frame.fromParty then some .invalidFrame
  else if (v.owner frame.fromParty frame.seq).any (· != frame.sequenceRecord L) then
    some .frameConflict
  else
    (v.seen (frameKey frame)).map fun previous =>
      if previous != frameDigest L frame then .frameConflict else .duplicateFrame

def Validator.record (v : Validator) (frame : Frame) : Validator where
  seen := Function.update v.seen (frameKey frame) (some (frameDigest L frame))
  maxSequence := Function.update v.maxSequence frame.fromParty
    (max frame.seq (v.maxSequence frame.fromParty))
  sequenceOwner := Function.update v.sequenceOwner frame.fromParty
    (some (Function.update (v.owner frame.fromParty) frame.seq (some (frame.sequenceRecord L))))

def validateAndRecord (config : Config) (v : Validator) (frame : Frame)
    (authenticatedSender : Bytes) : Option RouteError × Validator :=
  if config.refuses L frame authenticatedSender then (some .invalidFrame,v)
  else
    let v := v.openOwners frame.fromParty
    match v.verdict L frame with
    | some e => (some e,v)
    | none => (none,v.record L frame)

/-- A frame and its authenticated sender. -/
abbrev Arrival := Frame × Bytes

def verdicts (config : Config) : Validator → List Arrival → List (Option RouteError)
  | _, [] => []
  | v, p :: rest =>
    let outcome := validateAndRecord L config v p.1 p.2
    outcome.1 :: verdicts config outcome.2 rest

def acceptedFrames (config : Config) : Validator → List Arrival → List Arrival
  | _, [] => []
  | v, p :: rest =>
    let outcome := validateAndRecord L config v p.1 p.2
    let later := acceptedFrames config outcome.2 rest
    if outcome.1.isNone then p :: later else later

def validatorAfter (config : Config) (v : Validator) (arrivals : List Arrival) : Validator :=
  arrivals.foldl (fun v p => (validateAndRecord L config v p.1 p.2).2) v

end

/-! What one call does. -/

section
variable {L : Libraries} {config : Config} {v w : Validator} {frame : Frame} {sender : Bytes}

/-- The two validators hold the same records; an empty map of a sender is none. -/
structure Validator.Agrees (v w : Validator) : Prop where
  seen : v.seen = w.seen
  maxSequence : v.maxSequence = w.maxSequence
  owner : v.owner = w.owner

theorem Validator.Agrees.refl (v : Validator) : v.Agrees v := ⟨rfl,rfl,rfl⟩

theorem Validator.Agrees.trans {u : Validator} (h : u.Agrees v) (h' : v.Agrees w) : u.Agrees w :=
  ⟨h.seen.trans h'.seen,h.maxSequence.trans h'.maxSequence,h.owner.trans h'.owner⟩

theorem Validator.Agrees.symm (h : v.Agrees w) : w.Agrees v :=
  ⟨h.seen.symm,h.maxSequence.symm,h.owner.symm⟩

theorem Validator.openOwners_agrees (v : Validator) (party : Bytes) :
    (v.openOwners party).Agrees v := by
  cases hparty : v.sequenceOwner party with
  | some owners => simpa only [openOwners, hparty] using .refl v
  | none =>
    simp only [openOwners, hparty]
    refine ⟨rfl,rfl,?_⟩
    funext p n
    by_cases hp : p = party
    · obtain rfl := hp
      simp [owner, hparty]
    · simp [owner, Function.update_of_ne hp]

theorem Validator.Agrees.verdict (h : v.Agrees w) (frame : Frame) :
    v.verdict L frame = w.verdict L frame := by
  simp only [Validator.verdict, h.seen, h.maxSequence, h.owner]

theorem Validator.owner_record (v : Validator) (frame : Frame) (p : Bytes) (n : Nat) :
    (v.record L frame).owner p n =
      if p = frame.fromParty ∧ n = frame.seq then some (frame.sequenceRecord L)
      else v.owner p n := by
  by_cases hp : p = frame.fromParty
  · obtain rfl := hp
    by_cases hn : n = frame.seq
    · simp [owner, record, hn]
    · simp [owner, record, hn]
  · simp [owner, record, hp]

theorem Validator.Agrees.record (h : v.Agrees w) (frame : Frame) :
    (v.record L frame).Agrees (w.record L frame) := by
  refine ⟨?_,?_,?_⟩
  · simp only [Validator.record, h.seen]
  · simp only [Validator.record, h.maxSequence]
  · funext p n
    simp only [Validator.owner_record, h.owner]

theorem validateAndRecord_agrees (h : v.Agrees w) (frame : Frame) (sender : Bytes) :
    (validateAndRecord L config v frame sender).1 = (validateAndRecord L config w frame sender).1 ∧
      (validateAndRecord L config v frame sender).2.Agrees
        (validateAndRecord L config w frame sender).2 := by
  have hopen : (v.openOwners frame.fromParty).Agrees (w.openOwners frame.fromParty) :=
    (v.openOwners_agrees _).trans (h.trans (w.openOwners_agrees _).symm)
  have hverdict := hopen.verdict (L := L) frame
  by_cases hrefuse : config.refuses L frame sender = true
  · simpa [validateAndRecord, hrefuse] using h
  · cases hcase : (w.openOwners frame.fromParty).verdict L frame with
    | some e => simpa [validateAndRecord, hrefuse, hverdict, hcase] using hopen
    | none =>
      simpa [validateAndRecord, hrefuse, hverdict, hcase] using hopen.record frame

theorem validateAndRecord_rejects (h : (validateAndRecord L config v frame sender).1 ≠ none) :
    (validateAndRecord L config v frame sender).2.Agrees v := by
  by_cases hrefuse : config.refuses L frame sender = true
  · simpa [validateAndRecord, hrefuse] using Validator.Agrees.refl v
  · cases hcase : (v.openOwners frame.fromParty).verdict L frame with
    | some e =>
      simpa [validateAndRecord, hrefuse, hcase] using v.openOwners_agrees frame.fromParty
    | none => simp [validateAndRecord, hrefuse, hcase] at h

/-- What an accepted frame has passed, and what is recorded of it. -/
structure Accepts (L : Libraries) (config : Config) (v : Validator) (frame : Frame)
    (sender : Bytes) (w : Validator) : Prop where
  passes : config.refuses L frame sender = false
  order : v.maxSequence frame.fromParty ≤ frame.seq
  owner : ∀ r, v.owner frame.fromParty frame.seq = some r → r = frame.sequenceRecord L
  fresh : v.seen (frameKey frame) = none
  recorded : w.Agrees (v.record L frame)

theorem validateAndRecord_accepts (h : (validateAndRecord L config v frame sender).1 = none) :
    Accepts L config v frame sender (validateAndRecord L config v frame sender).2 := by
  by_cases hrefuse : config.refuses L frame sender = true
  · simp [validateAndRecord, hrefuse] at h
  · have hopen := v.openOwners_agrees frame.fromParty
    cases hcase : (v.openOwners frame.fromParty).verdict L frame with
    | some e => simp [validateAndRecord, hrefuse, hcase] at h
    | none =>
      have hrecorded : (validateAndRecord L config v frame sender).2.Agrees (v.record L frame) := by
        simpa [validateAndRecord, hrefuse, hcase] using hopen.record frame
      rw [hopen.verdict frame] at hcase
      simp only [Validator.verdict] at hcase
      by_cases horder : frame.seq < v.maxSequence frame.fromParty
      · simp [horder] at hcase
      · by_cases howner : (v.owner frame.fromParty frame.seq).any (· != frame.sequenceRecord L) = true
        · simp [horder, howner] at hcase
        · simp only [horder, if_false, howner, Bool.false_eq_true, Option.map_eq_none_iff] at hcase
          refine ⟨Bool.eq_false_iff.mpr hrefuse,Nat.le_of_not_lt horder,?_,hcase,hrecorded⟩
          intro r hr
          simpa [hr] using howner

end

/-! The texts that are hashed determine the fields they are made of. -/

/-- The text fields that are hashed have no NUL byte. -/
def Frame.NulFree (frame : Frame) : Prop :=
  0 ∉ frame.sessionID ∧ 0 ∉ frame.stage ∧ 0 ∉ frame.protocol ∧ 0 ∉ frame.fromParty ∧
    0 ∉ frame.messageType ∧ 0 ∉ frame.payloadHash ∧ 0 ∉ frame.derivationContextHash

instance (frame : Frame) : Decidable frame.NulFree := inferInstanceAs (Decidable (_ ∧ _))

theorem decimal_injective {m n : Nat} (h : decimal m = decimal n) : m = n := by
  have hvalue := congrArg digitsValue h
  simpa only [decimal, digitsValue_toString] using hvalue

theorem decimal_nulFree (n : Nat) : 0 ∉ decimal n := by
  intro h
  have hdigit := List.all_eq_true.mp (toString_digits n) 0 h
  exact absurd hdigit (by decide)

theorem boolText_injective {b c : Bool} (h : boolText b = boolText c) : b = c := by
  revert b c
  decide

theorem boolText_nulFree (b : Bool) : 0 ∉ boolText b := by
  revert b
  decide

theorem hexEncode_nulFree (s : Bytes) : 0 ∉ hexEncode s := by
  intro h
  have hdigit := List.all_eq_true.mp (hexEncode_hexDigits s) 0 h
  exact absurd hdigit (by decide)

theorem Frame.NulFree.parts {frame : Frame} (h : frame.NulFree) :
    ∀ part ∈ frame.sequenceParts, 0 ∉ part := by
  obtain ⟨hsession,hstage,hprotocol,hfrom,htype,hhash,hcontext⟩ := h
  simp only [sequenceParts, List.forall_mem_cons]
  exact ⟨hsession,hstage,hprotocol,decimal_nulFree _,decimal_nulFree _,decimal_nulFree _,
    boolText_nulFree _,hfrom,htype,hhash,hcontext,hexEncode_nulFree _,by simp⟩

/-- The frames agree in all that is fixed by a sequence number of their sender. -/
structure Frame.SameContent (f g : Frame) : Prop where
  messageID : f.messageID = g.messageID
  protocol : f.protocol = g.protocol
  round : f.round = g.round
  roundHint : f.roundHint = g.roundHint
  broadcast : f.broadcast = g.broadcast
  messageType : f.messageType = g.messageType
  payloadHash : f.payloadHash = g.payloadHash
  derivationContextHash : f.derivationContextHash = g.derivationContextHash
  payload : f.payload = g.payload

theorem sameContent_of_parts {f g : Frame} (hf : f.NulFree) (hg : g.NulFree)
    (hid : f.messageID = g.messageID)
    (h : Strings.join 0 f.sequenceParts = Strings.join 0 g.sequenceParts) : f.SameContent g := by
  have hlength : f.sequenceParts.length = g.sequenceParts.length := by
    simp only [Frame.sequenceParts, List.length_cons, List.length_nil]
  have hparts := Strings.join_injective hlength hf.parts hg.parts h
  simp only [Frame.sequenceParts, List.cons.injEq] at hparts
  obtain ⟨-,-,hprotocol,-,hround,hhint,hbroadcast,-,htype,hhash,hcontext,hpayload,-⟩ := hparts
  exact ⟨hid,hprotocol,decimal_injective hround,decimal_injective hhint,
    boolText_injective hbroadcast,htype,hhash,hcontext,hexEncode_injective hpayload⟩

/-! Whole sequences of frames. -/

/-- The party a frame is for; a broadcast is for no single one. -/
def Frame.recipient (frame : Frame) : Option Bytes :=
  if frame.broadcast then none else some frame.toParty

/-- A frame that comes after another accepted one. -/
structure Frame.Follows (f g : Frame) : Prop where
  order : f.fromParty = g.fromParty → f.seq ≤ g.seq
  fresh : ¬ (f.fromParty = g.fromParty ∧ f.recipient = g.recipient ∧
    f.messageID = g.messageID ∧ f.seq = g.seq)
  content : f.fromParty = g.fromParty → f.seq = g.seq → f.SameContent g

/-- The frame is of the session, from its authenticated sender and for someone else. -/
structure Config.Admits (config : Config) (p : Arrival) : Prop where
  session : p.1.sessionID = config.sessionID
  stage : p.1.stage = config.stage
  sender : p.1.fromParty = p.2
  recipient : p.1.recipient ≠ some p.1.fromParty

section
variable {L : Libraries} {config : Config}

theorem Config.admits_of_passes {p : Arrival} (h : config.refuses L p.1 p.2 = false) :
    config.Admits p := by
  simp only [refuses, Bool.or_eq_false_iff, bne_eq_false_iff_eq, Bool.not_eq_false'] at h
  obtain ⟨⟨⟨⟨⟨⟨⟨⟨⟨⟨hsession,hstage⟩,-⟩,hsender⟩,-⟩,-⟩,-⟩,-⟩,-⟩,-⟩,hrecipient⟩ := h
  refine ⟨hsession,hstage,hsender,?_⟩
  cases hbroadcast : p.1.broadcast with
  | true => simp [Frame.recipient, hbroadcast]
  | false =>
    simp only [validRecipient, hbroadcast, Bool.false_eq_true, if_false, Bool.and_eq_true,
      Bool.not_eq_true', Bool.or_eq_false_iff, beq_eq_false_iff_ne, ne_eq] at hrecipient
    simpa [Frame.recipient, hbroadcast] using hrecipient.1.2

theorem frameKey_congr {config : Config} {f g : Frame} {s t : Bytes} (hf : config.Admits (f,s))
    (hg : config.Admits (g,t)) (h : f.fromParty = g.fromParty ∧ f.recipient = g.recipient ∧
      f.messageID = g.messageID ∧ f.seq = g.seq) : frameKey f = frameKey g := by
  obtain ⟨hfrom,hrecipient,hid,hseq⟩ := h
  have hsession : f.sessionID = g.sessionID := hf.session.trans hg.session.symm
  have hto : (if f.broadcast then ascii "*" else f.toParty) =
      if g.broadcast then ascii "*" else g.toParty := by
    cases hfb : f.broadcast <;> cases hgb : g.broadcast <;>
      simp_all [Frame.recipient]
  simp only [frameKey, Frame.keyParts, hsession, hfrom, hto, hid, hseq]

/-- The validator holds a record of every frame of the list. -/
structure Validator.Reflects (L : Libraries) (config : Config) (v : Validator)
    (accepted : List Arrival) : Prop where
  admits : ∀ p ∈ accepted, config.Admits p
  seen : ∀ p ∈ accepted, v.seen (frameKey p.1) ≠ none
  maxSequence : ∀ p ∈ accepted, p.1.seq ≤ v.maxSequence p.1.fromParty
  owner : ∀ p ∈ accepted, v.owner p.1.fromParty p.1.seq = some (p.1.sequenceRecord L)

variable {v w : Validator} {accepted : List Arrival}

theorem Validator.Reflects.agrees (h : v.Reflects L config accepted) (hw : w.Agrees v) :
    w.Reflects L config accepted :=
  ⟨h.admits,by rw [hw.seen]; exact h.seen,by rw [hw.maxSequence]; exact h.maxSequence,
    by rw [hw.owner]; exact h.owner⟩

theorem Validator.Reflects.record (h : v.Reflects L config accepted) (p : Arrival)
    (hp : Accepts L config v p.1 p.2 w) : w.Reflects L config (accepted ++ [p]) := by
  have hrecord : (v.record L p.1).Reflects L config (accepted ++ [p]) := by
    refine ⟨?_,?_,?_,?_⟩
    · intro q hq
      cases List.mem_append.mp hq with
      | inl hq => exact h.admits q hq
      | inr hq => exact List.mem_singleton.mp hq ▸ Config.admits_of_passes hp.passes
    · intro q hq
      by_cases hkey : frameKey q.1 = frameKey p.1
      · simp [Validator.record, hkey]
      · cases List.mem_append.mp hq with
        | inl hq => simpa [Validator.record, hkey] using h.seen q hq
        | inr hq => exact absurd (List.mem_singleton.mp hq ▸ rfl) hkey
    · intro q hq
      by_cases hfrom : q.1.fromParty = p.1.fromParty
      · simp only [Validator.record, hfrom, Function.update_self]
        cases List.mem_append.mp hq with
        | inl hq => exact (hfrom ▸ h.maxSequence q hq).trans (Nat.le_max_right _ _)
        | inr hq => exact List.mem_singleton.mp hq ▸ Nat.le_max_left _ _
      · cases List.mem_append.mp hq with
        | inl hq => simpa [Validator.record, hfrom] using h.maxSequence q hq
        | inr hq => exact absurd (List.mem_singleton.mp hq ▸ rfl) hfrom
    · intro q hq
      rw [Validator.owner_record]
      by_cases hsame : q.1.fromParty = p.1.fromParty ∧ q.1.seq = p.1.seq
      · rw [if_pos hsame]
        cases List.mem_append.mp hq with
        | inl hq =>
          have howner := h.owner q hq
          rw [hsame.1, hsame.2] at howner
          exact congrArg some (hp.owner _ howner).symm
        | inr hq => rw [List.mem_singleton.mp hq]
      · rw [if_neg hsame]
        cases List.mem_append.mp hq with
        | inl hq => exact h.owner q hq
        | inr hq => exact absurd (List.mem_singleton.mp hq ▸ ⟨rfl,rfl⟩) hsame
  exact hrecord.agrees hp.recorded

theorem Validator.Reflects.follows (h : v.Reflects L config accepted) (p : Arrival)
    (hp : Accepts L config v p.1 p.2 w) {q : Arrival} (hq : q ∈ accepted)
    (hnul : p.1.NulFree ∧ q.1.NulFree)
    (hsha : frameSequenceDigest L q.1 = frameSequenceDigest L p.1 →
      Strings.join 0 q.1.sequenceParts = Strings.join 0 p.1.sequenceParts) :
    q.1.Follows p.1 := by
  refine ⟨?_,?_,?_⟩
  · intro hfrom
    exact (h.maxSequence q hq).trans (hfrom ▸ hp.order)
  · intro hsame
    have hkey := frameKey_congr (h.admits q hq) (Config.admits_of_passes hp.passes) hsame
    exact h.seen q hq (hkey ▸ hp.fresh)
  · intro hfrom hseq
    have howner := h.owner q hq
    rw [hfrom, hseq] at howner
    have hrecord := hp.owner _ howner
    simp only [Frame.sequenceRecord, SequenceRecord.mk.injEq] at hrecord
    exact sameContent_of_parts hnul.2 hnul.1 hrecord.1 (hsha hrecord.2)

end

section
variable (L : Libraries) (config : Config)

/-- The digest inputs of the frames. -/
def sequenceTexts (arrivals : List Arrival) : Set Bytes :=
  { text | ∃ p ∈ arrivals, text = Strings.join 0 p.1.sequenceParts }

theorem sequenceTexts_mono {ps qs : List Arrival} (h : ∀ p ∈ ps, p ∈ qs) :
    sequenceTexts ps ⊆ sequenceTexts qs := by
  intro text htext
  obtain ⟨p,hp,heq⟩ := htext
  exact ⟨p,h p hp,heq⟩

/-- From a validator that reflects what was accepted so far, all accepted frames follow one
another. -/
theorem acceptedFrames_follow {v : Validator} {accepted arrivals : List Arrival}
    (h : v.Reflects L config accepted)
    (hfollow : accepted.Pairwise fun p q => p.1.Follows q.1)
    (hnul : ∀ p ∈ accepted ++ arrivals, p.1.NulFree)
    (hsha : Set.InjOn L.sha256 (sequenceTexts (accepted ++ arrivals))) :
    (accepted ++ acceptedFrames L config v arrivals).Pairwise (fun p q => p.1.Follows q.1) ∧
      ∀ p ∈ accepted ++ acceptedFrames L config v arrivals, config.Admits p := by
  induction arrivals generalizing v accepted with
  | nil =>
    simp only [acceptedFrames, List.append_nil]
    exact ⟨hfollow,h.admits⟩
  | cons p rest ih =>
    have hmem : p ∈ accepted ++ p :: rest := by simp
    simp only [acceptedFrames]
    cases hverdict : (validateAndRecord L config v p.1 p.2).1 with
    | some e =>
      have hagrees := validateAndRecord_rejects (by rw [hverdict]; simp)
      have hsub : ∀ q ∈ accepted ++ rest, q ∈ accepted ++ p :: rest := by
        intro q hq
        cases List.mem_append.mp hq with
        | inl hq => exact List.mem_append_left _ hq
        | inr hq => exact List.mem_append_right _ (List.mem_cons_of_mem _ hq)
      exact ih (h.agrees hagrees) hfollow (fun q hq => hnul q (hsub q hq))
        (hsha.mono (sequenceTexts_mono hsub))
    | none =>
      have hp := validateAndRecord_accepts hverdict
      have hnew : ∀ q ∈ accepted, q.1.Follows p.1 := by
        intro q hq
        have hq' : q ∈ accepted ++ p :: rest := List.mem_append_left _ hq
        exact h.follows p hp hq ⟨hnul _ hmem,hnul _ hq'⟩ (hsha ⟨q,hq',rfl⟩ ⟨p,hmem,rfl⟩)
      have hfollow' : (accepted ++ [p]).Pairwise fun p q => p.1.Follows q.1 := by
        refine List.pairwise_append.mpr ⟨hfollow,List.pairwise_singleton _ _,?_⟩
        intro q hq r hr
        exact List.mem_singleton.mp hr ▸ hnew q hq
      have hassoc : accepted ++ p :: rest = accepted ++ [p] ++ rest := by simp
      rw [hassoc] at hnul hsha
      have hrest := ih (h.record p hp) hfollow' hnul hsha
      rwa [List.append_assoc] at hrest

theorem verdicts_agrees {v w : Validator} (h : v.Agrees w) (arrivals : List Arrival) :
    verdicts L config v arrivals = verdicts L config w arrivals := by
  induction arrivals generalizing v w with
  | nil => rfl
  | cons p rest ih =>
    obtain ⟨hverdict,hagrees⟩ :
        (validateAndRecord L config v p.1 p.2).1 = (validateAndRecord L config w p.1 p.2).1 ∧ _ :=
      validateAndRecord_agrees h p.1 p.2
    simp only [verdicts, hverdict, ih hagrees]

/-- Of every sequence of frames, the accepted ones follow one another and are admitted; and a
refused frame makes no difference to any later verdict. -/
theorem frame_acceptance (arrivals : List Arrival) (hnul : ∀ p ∈ arrivals, p.1.NulFree)
    (hsha : Set.InjOn L.sha256 (sequenceTexts arrivals)) :
    (acceptedFrames L config {} arrivals).Pairwise (fun p q => p.1.Follows q.1) ∧
      (∀ p ∈ acceptedFrames L config {} arrivals, config.Admits p) ∧
      ∀ before p later, arrivals = before ++ p :: later →
        (validateAndRecord L config (validatorAfter L config {} before) p.1 p.2).1 ≠ none →
        verdicts L config (validatorAfter L config {} (before ++ [p])) later =
          verdicts L config (validatorAfter L config {} before) later := by
  have hempty : ({} : Validator).Reflects L config [] := by constructor <;> simp
  obtain ⟨hfollow,hadmits⟩ := acceptedFrames_follow L config hempty .nil hnul hsha
  refine ⟨hfollow,hadmits,?_⟩
  intro before p later _ hreject
  have hagrees := validateAndRecord_rejects hreject
  simpa [validatorAfter] using verdicts_agrees L config hagrees later

end

/-! A frame to the other local party, its duplicate, the same message to the platform, and one
that is out of order. -/

def sampleConfig : Config where
  sessionID := ascii "dkg-session-1"
  platformPartyID := ascii "mpc-signer"
  primaryPartyID := ascii "co-signer-primary"
  recoveryPartyID := ascii "co-signer-recovery"
  stage := ascii "dkg"
  protocol := ascii "ECDSA"

def sampleFrame (toParty : Bytes) (seq : Nat) : Frame where
  sessionID := ascii "dkg-session-1"
  stage := ascii "dkg"
  protocol := ascii "ECDSA"
  messageID := ascii "msg"
  seq := seq
  round := 1
  fromParty := ascii "co-signer-primary"
  toParty := toParty
  messageType := ascii "KGRound1Message"
  payloadHash := ascii "f4ffea8e639ddfff"
  payload := ascii "msg-payload"

def sampleToRecovery : Frame := sampleFrame (ascii "co-signer-recovery") 3

def sampleToPlatform : Frame := sampleFrame (ascii "mpc-signer") 3

def sampleHashes : List (Bytes × Bytes) := [
  (ascii "msg-payload",Strings.bigEndian 32
    0xf4ffea8e639ddfffa7b2c27f7913d8e03aea920a177c927e302165c8d1a64a24),
  (Strings.join 0 sampleToRecovery.sequenceParts,Strings.bigEndian 32
    0x85d8500e2e38c557353674820b77b49b20435826bd51dbab3dfb1c19e6b1f2d0),
  (sampleToRecovery.digestText,Strings.bigEndian 32
    0x069a1d39c82ea9c27b624c4ea0ca3e765dc6ac8baf31e80a3fdc2560fae00333),
  (sampleToPlatform.digestText,Strings.bigEndian 32
    0xea86af62875eb7c83f436abfe8af3df1d9a6635a874a7dae36b9414af94813d6)]

def sampleLibraries : Libraries := { Libraries.inert with sha256 := tabled sampleHashes }

def sampleArrivals : List Arrival :=
  [sampleToRecovery,sampleToRecovery,sampleToPlatform,sampleFrame (ascii "mpc-signer") 2].map
    fun frame => (frame,ascii "co-signer-primary")

theorem sample_sha256 : Function.Injective sampleLibraries.sha256 :=
  tabled_injective (by decide +kernel) (by decide +kernel)

theorem frame_acceptance_sample :
    verdicts sampleLibraries sampleConfig {} sampleArrivals =
        [none,some .duplicateFrame,none,some .invalidFrame] ∧
      (acceptedFrames sampleLibraries sampleConfig {} sampleArrivals).Pairwise
        fun p q => p.1.Follows q.1 := by
  have hnul : ∀ p ∈ sampleArrivals, p.1.NulFree := by decide +kernel
  exact ⟨by decide +kernel,(frame_acceptance sampleLibraries sampleConfig sampleArrivals hnul
    sample_sha256.injOn).1⟩

end CoSigner.Localrouter
