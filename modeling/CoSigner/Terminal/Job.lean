import CoSigner.Contract.Terminal
import CoSigner.Lib.Strings

/-! Publication jobs (`terminal/publisher.go`): the request body embeds the canonical result
as a raw message, which `json.Marshal` compacts and escapes once more. -/
namespace CoSigner.Terminal
open Json Contract
variable (L : Libraries)

structure ArtifactInput where
  partyID : Bytes := []
  purpose : Bytes := []
  fingerprint : Bytes := []
  deriving DecidableEq, Repr

structure CompletedInput where
  intentID : Bytes := []
  sessionID : Bytes := []
  keyID : Bytes := []
  descriptorFingerprint : Bytes := []
  accountPublicKey : Bytes := []
  chainCodeHash : Bytes := []
  primary : ArtifactInput := {}
  recovery : ArtifactInput := {}
  deriving DecidableEq, Repr

structure TerminalRequestV1 where
  terminalResult : Bytes := []
  terminalResultFingerprint : Bytes := []
  deriving DecidableEq, Repr

structure Job where
  intentID : Bytes := []
  body : Bytes := []
  status : Bytes := []
  fingerprint : Bytes := []
  deriving DecidableEq, Repr

/-- `json.Marshal` of the request. -/
def TerminalRequestV1.marshal (r : TerminalRequestV1) : Option Bytes := do
  let result ← compact r.terminalResult
  some (object [(ascii "terminalResult",result),
    (ascii "terminalResultFingerprint",quote r.terminalResultFingerprint)])

def newJob (result : TerminalResultV1) : Option Job := do
  let terminalBytes ← canonicalTerminalResultBytes L result
  let fingerprint := L.sha256 terminalBytes
  let body ← TerminalRequestV1.marshal ⟨terminalBytes,digestString fingerprint⟩
  some ⟨result.intentID,body,result.status,fingerprint⟩

def ArtifactInput.result (a : ArtifactInput) : ArtifactResultV1 :=
  ⟨digestString a.fingerprint,a.partyID,a.purpose⟩

def CompletedInput.result (input : CompletedInput) : TerminalResultV1 where
  intentID := input.intentID
  keyID := input.keyID
  resultKind := ascii "mpc-dkg-terminal-result"
  resultVersion := 1
  sessionID := input.sessionID
  status := terminalStatusCompleted
  result := some {
    accountPublicKey := hexEncode input.accountPublicKey
    artifacts := [input.primary.result,input.recovery.result]
    chainCodeHash := digestString input.chainCodeHash
    descriptorFingerprint := digestString input.descriptorFingerprint }

def failedResult (intentID sessionID keyID : Bytes) : TerminalResultV1 where
  intentID := intentID
  keyID := keyID
  resultKind := ascii "mpc-dkg-terminal-result"
  resultVersion := 1
  sessionID := sessionID
  status := terminalStatusFailed

def newCompletedJob (input : CompletedInput) : Option Job := newJob L input.result

def newFailedJob (intentID sessionID keyID : Bytes) : Option Job :=
  newJob L (failedResult intentID sessionID keyID)

/-- The arguments of the two constructors of jobs. -/
inductive JobInput where
  | completed (input : CompletedInput)
  | failed (intentID sessionID keyID : Bytes)

def JobInput.job : JobInput → Option Job
  | .completed input => newCompletedJob L input
  | .failed intentID sessionID keyID => newFailedJob L intentID sessionID keyID

def JobInput.result : JobInput → TerminalResultV1
  | .completed input => input.result
  | .failed intentID sessionID keyID => failedResult intentID sessionID keyID

theorem JobInput.job_eq (input : JobInput) : input.job L = newJob L input.result := by
  cases input <;> rfl

/-- What the receiver of the request reads. -/
def TerminalRequestV1.fields : List (Json.Field TerminalRequestV1) := [
  field "terminalResult" (·.terminalResult) (fun s x => { s with terminalResult := x }) rawMessage,
  field "terminalResultFingerprint" (·.terminalResultFingerprint)
    (fun s x => { s with terminalResultFingerprint := x }) string]

def TerminalRequestV1.decoder : Decoder TerminalRequestV1 := struct fields

/-- The request's result is the canonical one with the job's fingerprint. -/
def Job.faithful (job : Job) (result : TerminalResultV1) : Bool :=
  (unmarshal TerminalRequestV1.decoder {} job.body).any fun request =>
    canonicalTerminalResultBytes L result == some request.terminalResult &&
      L.sha256 request.terminalResult == job.fingerprint &&
      parseCanonicalTerminalResult L request.terminalResult == some (result,job.fingerprint) &&
      request.terminalResultFingerprint == digestString job.fingerprint

variable {L}

theorem compact_bare {result : TerminalResultV1} (h : result.Valid) :
    compact (result.doc.write bare) = some (result.doc.write escape) := by
  have hne : (result.doc.write bare).isEmpty = false := by
    simp [TerminalResultV1.doc, Doc.write]
  have hall := h.fine.compacts []
  rw [List.append_nil] at hall
  simp [compact, hne, (h.fine.parses bare_escaping).parse, hall, compactFrom]

/-- A job's body holds Go's text of the result, not the canonical one. -/
theorem newJob_body (hL : JcsLaw L) {result : TerminalResultV1} {job : Job}
    (h : newJob L result = some job) :
    result.validate L result.result.isSome = true ∧
      canonicalTerminalResultBytes L result = some (result.doc.write bare) ∧
      job.fingerprint = L.sha256 (result.doc.write bare) ∧
      job.body = object [(ascii "terminalResult",result.doc.write escape),
        (ascii "terminalResultFingerprint",quote (digestString job.fingerprint))] := by
  simp only [newJob, TerminalRequestV1.marshal, Option.bind_eq_bind, Option.bind_eq_some_iff,
    Option.some.injEq] at h
  obtain ⟨raw,hraw,body,⟨compacted,hcompact,rfl⟩,rfl⟩ := h
  obtain ⟨hvalid,rfl⟩ := canonicalTerminalResultBytes_some hL hraw
  have hgo := compact_bare (TerminalResultV1.validate_valid hvalid)
  obtain rfl : _ = compacted := Option.some.inj (hgo.symm.trans hcompact)
  exact ⟨hvalid,hraw,rfl,rfl⟩

theorem newJob_status {result : TerminalResultV1} {job : Job} (h : newJob L result = some job) :
    job.status = result.status := by
  simp only [newJob, Option.bind_eq_bind, Option.bind_eq_some_iff, Option.some.injEq] at h
  obtain ⟨_,-,_,-,rfl⟩ := h
  rfl

theorem newJob_valid (hL : JcsLaw L) {result : TerminalResultV1}
    (hstatus : result.status ≠ terminalStatusTimedOut)
    (h : result.validate L result.result.isSome = true) : ∃ job, newJob L result = some job := by
  simp [newJob, TerminalRequestV1.marshal, canonicalTerminalResultBytes_valid hL hstatus h,
    compact_bare (TerminalResultV1.validate_valid h)]

/-- The members of a request around Go's text of a result. -/
def requestMembers (result : TerminalResultV1) (fingerprint : Bytes) : List (Bytes × Doc) :=
  [(ascii "terminalResult",result.doc),
    (ascii "terminalResultFingerprint",.str (digestString fingerprint))]

theorem requestNames_sorted : SortedNames (TerminalRequestV1.fields.map fun f => f.name) := by
  decide +kernel

theorem request_fine {result : TerminalResultV1} (h : result.Valid) (fingerprint : Bytes) :
    (Doc.obj (requestMembers result fingerprint)).Fine safeInteger := by
  refine .of_names requestNames_sorted rfl ?_
  simp only [requestMembers, List.mem_cons, List.not_mem_nil, or_false]
  rintro m (rfl | rfl)
  exacts [h.fine,.str (plain_printable (digestString_plain fingerprint))]

theorem newJob_request {result : TerminalResultV1} (h : result.Valid) (fingerprint : Bytes) :
    unmarshal TerminalRequestV1.decoder {}
      (object [(ascii "terminalResult",result.doc.write escape),
        (ascii "terminalResultFingerprint",quote (digestString fingerprint))]) =
      some ⟨result.doc.write escape,digestString fingerprint⟩ := by
  have hfine := request_fine h fingerprint
  have hplain : ∀ m ∈ requestMembers result fingerprint, plain m.1 = true := by
    cases hfine
    assumption
  have hwrite : (Doc.obj (requestMembers result fingerprint)).write escape =
      object [(ascii "terminalResult",result.doc.write escape),
        (ascii "terminalResultFingerprint",quote (digestString fingerprint))] :=
    escape_escaping.write_obj hplain
  have hdepth : ¬maxNestingDepth <
      ((Doc.obj (requestMembers result fingerprint)).value escape).depth := by
    have := h.depth escape
    simp only [requestMembers, Doc.value, Value.depth, membersValue, membersDepth, maxNestingDepth]
    omega
  have hmembers := struct_members TerminalRequestV1.fields requestNames_sorted escape_escaping
    (TerminalRequestV1.fields.zip [result.doc,.str (digestString fingerprint)])
    (fun m hm => (List.of_mem_zip hm).1) false {}
  have hraw : rawMessage false (result.doc.value escape) [] = some (result.doc.write escape) := rfl
  have hdigest := string_value escape_escaping
    (plain_printable (digestString_plain fingerprint)) false []
  rw [← hwrite]
  simp only [unmarshal, (hfine.parses escape_escaping).parse, Option.bind_eq_bind,
    Option.bind_some, if_neg hdepth]
  refine hmembers.trans ?_
  simp [TerminalRequestV1.fields, field, hraw, hdigest]

/-- The body carries the canonical bytes just when neither identifier holds a character that
`json.Marshal` escapes for HTML. -/
theorem terminal_request_fidelity (hL : JcsLaw L) (input : JobInput) {job : Job}
    (h : input.job L = some job) :
    job.faithful L input.result = true ↔
      (∀ b ∈ input.result.intentID, html b = false) ∧
        ∀ b ∈ input.result.sessionID, html b = false := by
  rw [JobInput.job_eq] at h
  obtain ⟨hvalid,hcanonical,hfingerprint,hbody⟩ := newJob_body hL h
  have hv := TerminalResultV1.validate_valid hvalid
  rw [← hv.texts_html, ← hv.fine.write_bare_iff, Job.faithful, hbody, newJob_request hv]
  simp only [Option.any_some, hcanonical, Bool.and_eq_true, beq_iff_eq, Option.some.injEq]
  constructor
  · rintro ⟨⟨⟨heq,-⟩,-⟩,-⟩
    exact heq.symm
  · intro heq
    rw [heq]
    exact ⟨⟨⟨rfl,hfingerprint.symm⟩,
      hfingerprint ▸ parseCanonicalTerminalResult_write hL hvalid⟩,trivial⟩

/-! Two failed key generations. -/

def sampleKeyID : Bytes := ascii "mpc_key_11111111-2222-3333-" ++ ascii "4444-555555555555"

def plainInput : JobInput := .failed (ascii "intent-1") (ascii "session-1") sampleKeyID

def escapedInput : JobInput := .failed (ascii "a&b") (ascii "session-1") sampleKeyID

def sampleLibraries : Libraries :=
  { Libraries.inert with
    jcs := fun raw => (parse raw).map Value.canonical
    sha256 := tabled [
      (plainInput.result.doc.write bare,Strings.bigEndian 32
        0xf817ad7d638934b94d57a217dcdd56c775ccc669e953ae4ab560b3edd8517d4a),
      (escapedInput.result.doc.write bare,Strings.bigEndian 32
        0xb45f8f314e958612d1cda6a086e71f8f6c5321f3722fdf90aad1f6bf2ac8ba41)] }

/-- An identifier with an ampersand: the receiver does not read the canonical bytes. -/
theorem terminal_request_escaped : JcsLaw sampleLibraries ∧
    (escapedInput.job sampleLibraries).map
      (fun job => job.faithful sampleLibraries escapedInput.result) = some false :=
  ⟨canonical_law _ rfl,by decide +kernel⟩

theorem terminal_request_fidelity_plain : ∃ job, plainInput.job sampleLibraries = some job ∧
    job.faithful sampleLibraries plainInput.result = true := by
  obtain ⟨job,hjob⟩ := Option.isSome_iff_exists.mp
    (show (plainInput.job sampleLibraries).isSome = true by decide +kernel)
  exact ⟨job,hjob,(terminal_request_fidelity (canonical_law _ rfl) plainInput hjob).mpr
    (by decide +kernel)⟩

end CoSigner.Terminal
