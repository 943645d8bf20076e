import CoSigner.Contract.Canonical

/-! Terminal results of key generation (`mpc2of3/terminal.go`): the record, its validation,
its canonical bytes and their parser. -/
namespace CoSigner.Contract
open Json
variable (L : Libraries)

structure ArtifactResultV1 where
  artifactFingerprint : Bytes := []
  partyID : Bytes := []
  purpose : Bytes := []
  deriving DecidableEq, Repr

structure CompletedResultV1 where
  accountPublicKey : Bytes := []
  artifacts : List ArtifactResultV1 := []
  chainCodeHash : Bytes := []
  descriptorFingerprint : Bytes := []
  deriving DecidableEq, Repr

structure TerminalResultV1 where
  intentID : Bytes := []
  keyID : Bytes := []
  result : Option CompletedResultV1 := none
  resultKind : Bytes := []
  resultVersion : Int := 0
  sessionID : Bytes := []
  status : Bytes := []
  deriving DecidableEq, Repr

def terminalStatusCompleted : Bytes := ascii "COMPLETED"
def terminalStatusFailed : Bytes := ascii "FAILED"
def terminalStatusTimedOut : Bytes := ascii "TIMED_OUT"

def ArtifactResultV1.fields : List (Json.Field ArtifactResultV1) := [
  field "artifactFingerprint" (·.artifactFingerprint)
    (fun s x => { s with artifactFingerprint := x }) string,
  field "partyId" (·.partyID) (fun s x => { s with partyID := x }) string,
  field "purpose" (·.purpose) (fun s x => { s with purpose := x }) string]

def ArtifactResultV1.decoder : Decoder ArtifactResultV1 := struct fields

def CompletedResultV1.fields : List (Json.Field CompletedResultV1) := [
  field "accountPublicKey" (·.accountPublicKey) (fun s x => { s with accountPublicKey := x })
    string,
  field "artifacts" (·.artifacts) (fun s x => { s with artifacts := x })
    (slice {} ArtifactResultV1.decoder),
  field "chainCodeHash" (·.chainCodeHash) (fun s x => { s with chainCodeHash := x }) string,
  field "descriptorFingerprint" (·.descriptorFingerprint)
    (fun s x => { s with descriptorFingerprint := x }) string]

def CompletedResultV1.decoder : Decoder CompletedResultV1 := struct fields

def TerminalResultV1.fields : List (Json.Field TerminalResultV1) := [
  field "intentId" (·.intentID) (fun s x => { s with intentID := x }) string,
  field "keyId" (·.keyID) (fun s x => { s with keyID := x }) string,
  field "result" (·.result) (fun s x => { s with result := x })
    (pointer {} CompletedResultV1.decoder),
  field "resultKind" (·.resultKind) (fun s x => { s with resultKind := x }) string,
  field "resultVersion" (·.resultVersion) (fun s x => { s with resultVersion := x }) (int 64),
  field "sessionId" (·.sessionID) (fun s x => { s with sessionID := x }) string,
  field "status" (·.status) (fun s x => { s with status := x }) string]

def TerminalResultV1.decoder : Decoder TerminalResultV1 := struct fields

/-- `ascii` of `jcs.go`, rune by rune. -/
def asciiText (value : Bytes) : Bool :=
  !value.isEmpty && (Utf8.chunks value).all fun c => 0x20 ≤ c.rune && c.rune ≤ 0x7E

def boundedASCII (value : Bytes) : Bool := value.length ≤ 255 && asciiText value

def CompletedResultV1.validate (c : CompletedResultV1) : Bool :=
  (parseSHA256Digest c.descriptorFingerprint).isSome &&
    (parseSHA256Digest c.chainCodeHash).isSome &&
    c.accountPublicKey.length == 66 && hexDigits c.accountPublicKey &&
    ((hexDecode c.accountPublicKey).any fun publicKey =>
      (publicKey.head? == some 2 || publicKey.head? == some 3) &&
        (L.parsePubKey publicKey).isSome) &&
    (c.artifacts.map fun a => (a.partyID,a.purpose)) ==
      [(ascii "co-signer-primary",ascii "primary"),
        (ascii "co-signer-recovery",ascii "recovery")] &&
    c.artifacts.all fun a => (parseSHA256Digest a.artifactFingerprint).isSome

def TerminalResultV1.validate (r : TerminalResultV1) (hasResult : Bool) : Bool :=
  r.resultKind == ascii "mpc-dkg-terminal-result" && r.resultVersion == 1 &&
    boundedASCII r.intentID && boundedASCII r.sessionID && keyIDPattern r.keyID &&
    if r.status == terminalStatusFailed || r.status == terminalStatusTimedOut then
      !hasResult && r.result.isNone
    else
      r.status == terminalStatusCompleted && hasResult && r.result.any fun c => c.validate L

/-- The result and its fingerprint. -/
def parseCanonicalTerminalResult (raw : Bytes) : Option (TerminalResultV1 × Bytes) := do
  if 2048 < raw.length || !printableASCII raw || !requireCanonicalJCS L raw then none
  let result ← decodeClosed TerminalResultV1.decoder {} raw
  let fields ← unmarshal rawObject none raw
  if !result.validate L ((fields.getD []).has (ascii "result")) then none
  some (result,L.sha256 raw)

def ArtifactResultV1.doc (a : ArtifactResultV1) : Doc := .obj [
  (ascii "artifactFingerprint",.str a.artifactFingerprint),
  (ascii "partyId",.str a.partyID),
  (ascii "purpose",.str a.purpose)]

/-- A nil slice is `null`; no code tells it from an empty one. -/
def CompletedResultV1.artifactsDoc (c : CompletedResultV1) : Doc :=
  if c.artifacts.isEmpty then .null else .arr (c.artifacts.map ArtifactResultV1.doc)

def CompletedResultV1.doc (c : CompletedResultV1) : Doc := .obj [
  (ascii "accountPublicKey",.str c.accountPublicKey),
  (ascii "artifacts",c.artifactsDoc),
  (ascii "chainCodeHash",.str c.chainCodeHash),
  (ascii "descriptorFingerprint",.str c.descriptorFingerprint)]

/-- The members `json.Marshal` writes; an absent result is left out. -/
def TerminalResultV1.members (r : TerminalResultV1) : List (Bytes × Doc) :=
  [(ascii "intentId",.str r.intentID),(ascii "keyId",.str r.keyID)] ++
    (r.result.map fun c => (ascii "result",c.doc)).toList ++
    [(ascii "resultKind",.str r.resultKind),
      (ascii "resultVersion",.num (intLiteral r.resultVersion)),
      (ascii "sessionId",.str r.sessionID),(ascii "status",.str r.status)]

def TerminalResultV1.doc (r : TerminalResultV1) : Doc := .obj r.members

/-- `json.Marshal` of a terminal result. -/
def TerminalResultV1.marshal (r : TerminalResultV1) : Bytes := r.doc.write escape

def canonicalTerminalResultBytes (r : TerminalResultV1) : Option Bytes := do
  if r.status == terminalStatusTimedOut then none
  if !r.validate L r.result.isSome then none
  canonicalJCS L r.marshal

variable {L}

theorem asciiText_printable {s : Bytes} (h : asciiText s = true) : printable s = true := by
  simp only [asciiText, Bool.and_eq_true] at h
  refine List.all_eq_true.mpr fun b hb => ?_
  rw [← Utf8.chunks_bytes s] at hb
  obtain ⟨c,hc,hbc⟩ := List.mem_flatMap.mp hb
  have hrune := List.all_eq_true.mp h.2 c hc
  simp only [Bool.and_eq_true, decide_eq_true_eq] at hrune ⊢
  obtain ⟨u,hne,rfl⟩ := Utf8.isChunk_of_mem hc
  have hgood : (Utf8.first u).bad = false := by
    simp only [Utf8.Chunk.bad, Bool.and_eq_false_iff, beq_eq_false_iff_ne, Utf8.runeError]
    exact .inl (by omega)
  have hlow : (Utf8.decodeRune u).1 < 0x80 := Nat.lt_of_le_of_lt hrune.2 (by decide)
  rw [← Utf8.encodeRune_first hne hgood, Utf8.encodeRune, if_pos hlow] at hbc
  obtain rfl := List.mem_singleton.mp hbc
  have hval : (Utf8.decodeRune u).1.toUInt8.toNat = (Utf8.decodeRune u).1 := by
    simp only [Nat.toUInt8_eq, UInt8.toNat_ofNat']
    omega
  rw [hval]
  exact hrune

theorem boundedASCII_printable {s : Bytes} (h : boundedASCII s = true) :
    printable s = true ∧ s.length ≤ 255 := by
  simp only [boundedASCII, Bool.and_eq_true, decide_eq_true_eq] at h
  exact ⟨asciiText_printable h.2,h.1⟩

/-- What a valid completed result consists of. -/
structure CompletedResultV1.Valid (c : CompletedResultV1) : Prop where
  fingerprint : plain c.descriptorFingerprint = true ∧ c.descriptorFingerprint.length = 43
  chainCode : plain c.chainCodeHash = true ∧ c.chainCodeHash.length = 43
  publicKey : plain c.accountPublicKey = true ∧ c.accountPublicKey.length = 66
  artifacts : ∃ p r : Bytes, (plain p = true ∧ p.length = 43) ∧ (plain r = true ∧ r.length = 43) ∧
    c.artifacts = [⟨p,ascii "co-signer-primary",ascii "primary"⟩,
      ⟨r,ascii "co-signer-recovery",ascii "recovery"⟩]

theorem CompletedResultV1.validate_valid {c : CompletedResultV1} (h : c.validate L = true) :
    c.Valid := by
  simp only [validate, Bool.and_eq_true, beq_iff_eq] at h
  obtain ⟨⟨⟨⟨⟨⟨hfp,hcc⟩,hlen⟩,hhex⟩,-⟩,hnames⟩,hartifacts⟩ := h
  refine ⟨digest_plain hfp,digest_plain hcc,⟨hexDigits_plain hhex,hlen⟩,?_⟩
  obtain ⟨a,b,hab⟩ : ∃ a b, c.artifacts = [a,b] :=
    List.length_eq_two.mp (by simpa using congrArg List.length hnames)
  rw [hab] at hnames hartifacts ⊢
  simp only [List.all_cons, List.all_nil, Bool.and_true, Bool.and_eq_true] at hartifacts
  simp only [List.map_cons, List.map_nil, List.cons.injEq, Prod.mk.injEq, and_true] at hnames
  obtain ⟨⟨ha1,ha2⟩,hb1,hb2⟩ := hnames
  refine ⟨a.artifactFingerprint,b.artifactFingerprint,digest_plain hartifacts.1,
    digest_plain hartifacts.2,?_⟩
  rw [← ha1, ← ha2, ← hb1, ← hb2]

/-- What a valid terminal result consists of. -/
structure TerminalResultV1.Valid (r : TerminalResultV1) : Prop where
  kind : r.resultKind = ascii "mpc-dkg-terminal-result"
  version : r.resultVersion = 1
  intent : printable r.intentID = true ∧ r.intentID.length ≤ 255
  session : printable r.sessionID = true ∧ r.sessionID.length ≤ 255
  key : plain r.keyID = true ∧ r.keyID.length = 44
  status : r.status ∈ [terminalStatusFailed,terminalStatusTimedOut,terminalStatusCompleted]
  result : ∀ c ∈ r.result, c.Valid

theorem TerminalResultV1.validate_valid {r : TerminalResultV1} {hasResult : Bool}
    (h : r.validate L hasResult = true) : r.Valid := by
  simp only [validate, Bool.and_eq_true, beq_iff_eq] at h
  obtain ⟨⟨⟨⟨⟨hkind,hversion⟩,hintent⟩,hsession⟩,hkey⟩,hstatus⟩ := h
  refine ⟨hkind,hversion,boundedASCII_printable hintent,boundedASCII_printable hsession,
    keyID_plain hkey,?_,?_⟩
  · split at hstatus
    · rename_i hfailed
      simp only [Bool.or_eq_true, beq_iff_eq] at hfailed
      rcases hfailed with hs | hs <;> simp [hs]
    · simp only [Bool.and_eq_true, beq_iff_eq] at hstatus
      simp [hstatus.1.1]
  · intro c hc
    rw [Option.mem_def.mp hc] at hstatus
    split at hstatus
    · simp at hstatus
    · simp only [Bool.and_eq_true, Option.any_some] at hstatus
      exact CompletedResultV1.validate_valid hstatus.2

def ArtifactResultV1.names : List Bytes := fields.map fun f => f.name

def CompletedResultV1.names : List Bytes := fields.map fun f => f.name

def TerminalResultV1.names (withResult : Bool) : List Bytes :=
  (if withResult then fields else fields.eraseIdx 2).map fun f => f.name

theorem resultNames_sorted : SortedNames ArtifactResultV1.names ∧
    SortedNames CompletedResultV1.names ∧ ∀ b, SortedNames (TerminalResultV1.names b) := by
  decide +kernel

theorem resultTexts_plain :
    (∀ s ∈ [ascii "co-signer-primary",ascii "primary",ascii "co-signer-recovery",
      ascii "recovery"], plain s = true ∧ s.length ≤ 18) ∧
    (∀ s ∈ [terminalStatusFailed,terminalStatusTimedOut,terminalStatusCompleted],
      plain s = true ∧ s.length ≤ 9) ∧
    plain (ascii "mpc-dkg-terminal-result") = true ∧
    (ascii "mpc-dkg-terminal-result").length = 23 := by
  decide +kernel

theorem ArtifactResultV1.fine {p party purpose : Bytes} (hp : plain p = true)
    (hparty : plain party = true) (hpurpose : plain purpose = true) :
    (ArtifactResultV1.mk p party purpose).doc.Fine safeInteger := by
  refine .of_names resultNames_sorted.1 rfl ?_
  simp only [List.mem_cons, List.not_mem_nil, or_false]
  rintro m (rfl | rfl | rfl)
  exacts [.str (plain_printable hp),.str (plain_printable hparty),.str (plain_printable hpurpose)]

theorem CompletedResultV1.Valid.fine {c : CompletedResultV1} (h : c.Valid) :
    c.doc.Fine safeInteger := by
  obtain ⟨p,r,hp,hr,hartifacts⟩ := h.artifacts
  have hparty := fun s hs => (resultTexts_plain.1 s hs).1
  refine .of_names resultNames_sorted.2.1 rfl ?_
  simp only [List.mem_cons, List.not_mem_nil, or_false]
  rintro m (rfl | rfl | rfl | rfl)
  · exact .str (plain_printable h.publicKey.1)
  · simp only [artifactsDoc, hartifacts, List.isEmpty_cons, Bool.false_eq_true, if_false]
    refine .arr (by simp) ?_
    simp only [List.map_cons, List.map_nil, List.mem_cons, List.not_mem_nil, or_false]
    rintro d (rfl | rfl)
    · exact ArtifactResultV1.fine hp.1 (hparty _ (by simp)) (hparty _ (by simp))
    · exact ArtifactResultV1.fine hr.1 (hparty _ (by simp)) (hparty _ (by simp))
  · exact .str (plain_printable h.chainCode.1)
  · exact .str (plain_printable h.fingerprint.1)

theorem TerminalResultV1.members_names (r : TerminalResultV1) :
    r.members.map Prod.fst = names r.result.isSome := by
  cases hr : r.result <;> simp [members, hr, names, fields, field]

theorem TerminalResultV1.Valid.fine {r : TerminalResultV1} (h : r.Valid) :
    r.doc.Fine safeInteger := by
  have hstatus := (resultTexts_plain.2.1 _ h.status).1
  have hkind := resultTexts_plain.2.2.1
  refine .of_names (resultNames_sorted.2.2 r.result.isSome) r.members_names ?_
  simp only [members, List.mem_append, List.mem_cons, List.not_mem_nil, or_false,
    Option.mem_toList, Option.map_eq_some_iff]
  rintro m (((rfl | rfl) | ⟨c,hc,rfl⟩) | rfl | rfl | rfl | rfl)
  · exact .str h.intent.1
  · exact .str (plain_printable h.key.1)
  · exact (h.result c hc).fine
  · exact .str (plain_printable (h.kind ▸ hkind))
  · rw [h.version]
    exact .num (.single (b := 0x31) rfl) (by decide)
  · exact .str h.session.1
  · exact .str (plain_printable hstatus)

theorem CompletedResultV1.Valid.texts {c : CompletedResultV1} (h : c.Valid) :
    ∀ s ∈ c.doc.texts, plain s = true := by
  obtain ⟨p,r,hp,hr,hartifacts⟩ := h.artifacts
  have hfixed : ∀ s ∈ [ascii "co-signer-primary",ascii "primary",ascii "co-signer-recovery",
      ascii "recovery"] ++ names ++ ArtifactResultV1.names, plain s = true := by
    intro s hs
    rcases List.mem_append.mp hs with hs | hs
    · rcases List.mem_append.mp hs with hs | hs
      · exact (resultTexts_plain.1 s hs).1
      · exact resultNames_sorted.2.1.2.1 s hs
    · exact resultNames_sorted.1.2.1 s hs
  simp only [names, fields, field, ArtifactResultV1.names, ArtifactResultV1.fields, List.map_cons,
    List.map_nil, List.cons_append, List.nil_append, List.forall_mem_cons,
    List.not_mem_nil, false_implies, implies_true, and_true] at hfixed
  simp only [doc, artifactsDoc, hartifacts, List.isEmpty_cons, Bool.false_eq_true, if_false, Doc.texts,
    membersTexts, elementsTexts, ArtifactResultV1.doc, List.map_cons, List.map_nil,
    List.cons_append, List.nil_append, List.append_nil, List.forall_mem_cons, List.not_mem_nil,
    false_implies, implies_true, and_true]
  simp only [hfixed, h.publicKey.1, h.chainCode.1, h.fingerprint.1, hp.1, hr.1, and_self]

theorem TerminalResultV1.Valid.texts {r : TerminalResultV1} (h : r.Valid) :
    ∀ s ∈ r.doc.texts, s = r.intentID ∨ s = r.sessionID ∨ plain s = true := by
  have hstatus := (resultTexts_plain.2.1 _ h.status).1
  have hkind := resultTexts_plain.2.2.1
  intro s hs
  obtain ⟨m,hm,rfl | htext⟩ := mem_membersTexts.mp hs
  · have hname : m.1 ∈ names r.result.isSome := r.members_names ▸ List.mem_map.mpr ⟨m,hm,rfl⟩
    exact .inr (.inr ((resultNames_sorted.2.2 _).2.1 _ hname))
  · simp only [members, List.mem_append, List.mem_cons, List.not_mem_nil, or_false,
      Option.mem_toList, Option.map_eq_some_iff] at hm
    rcases hm with ((rfl | rfl) | ⟨c,hc,rfl⟩) | rfl | rfl | rfl | rfl <;>
      simp only [Doc.texts, List.mem_singleton, List.not_mem_nil] at htext
    · exact .inl htext
    · exact .inr (.inr (htext ▸ h.key.1))
    · exact .inr (.inr ((h.result c hc).texts s htext))
    · exact .inr (.inr (htext ▸ h.kind ▸ hkind))
    · exact .inr (.inl htext)
    · exact .inr (.inr (htext ▸ hstatus))

/-- Only the two identifiers may hold an HTML character. -/
theorem TerminalResultV1.Valid.texts_html {r : TerminalResultV1} (h : r.Valid) :
    (∀ s ∈ r.doc.texts, ∀ b ∈ s, html b = false) ↔
      (∀ b ∈ r.intentID, html b = false) ∧ ∀ b ∈ r.sessionID, html b = false := by
  constructor
  · refine fun hall => ⟨hall _ (mem_membersTexts.mpr ?_),hall _ (mem_membersTexts.mpr ?_)⟩
    · exact ⟨(ascii "intentId",.str r.intentID),by simp [members],.inr (by simp [Doc.texts])⟩
    · exact ⟨(ascii "sessionId",.str r.sessionID),by simp [members],.inr (by simp [Doc.texts])⟩
  · rintro ⟨hintent,hsession⟩ s hs
    obtain rfl | rfl | hplain := h.texts s hs
    · exact hintent
    · exact hsession
    · exact fun b hb => (plain_byte hplain hb).2.1

theorem ArtifactResultV1.decodes {a : ArtifactResultV1} (hf : plain a.artifactFingerprint = true)
    (hparty : plain a.partyID = true) (hpurpose : plain a.purpose = true) :
    decoder true (a.doc.value bare) {} = some a := by
  have hmembers := struct_members fields resultNames_sorted.1 bare_escaping
    (fields.zip [.str a.artifactFingerprint,.str a.partyID,.str a.purpose])
    (fun m hm => (List.of_mem_zip hm).1) true {}
  refine hmembers.trans ?_
  simp [fields, field, string_value bare_escaping, plain_printable, hf, hparty, hpurpose]

theorem CompletedResultV1.Valid.decodes {c : CompletedResultV1} (h : c.Valid) :
    decoder true (c.doc.value bare) {} = some c := by
  obtain ⟨p,r,hp,hr,hartifacts⟩ := h.artifacts
  have hparty := fun s hs => (resultTexts_plain.1 s hs).1
  have hslice : slice {} ArtifactResultV1.decoder true (c.artifactsDoc.value bare) [] =
      some c.artifacts := by
    rw [artifactsDoc, if_neg (by simp [hartifacts])]
    refine slice_value ?_
    simp only [hartifacts, List.forall_mem_cons, List.not_mem_nil, false_implies, implies_true,
      and_true]
    exact ⟨ArtifactResultV1.decodes hp.1 (hparty _ (by simp)) (hparty _ (by simp)),
      ArtifactResultV1.decodes hr.1 (hparty _ (by simp)) (hparty _ (by simp))⟩
  have hmembers := struct_members fields resultNames_sorted.2.1 bare_escaping
    (fields.zip [.str c.accountPublicKey,c.artifactsDoc,.str c.chainCodeHash,
      .str c.descriptorFingerprint]) (fun m hm => (List.of_mem_zip hm).1) true {}
  refine hmembers.trans ?_
  simp [fields, field, string_value bare_escaping, plain_printable, h.publicKey, h.chainCode,
    h.fingerprint, hslice]

theorem TerminalResultV1.Valid.decodes {r : TerminalResultV1} (h : r.Valid) :
    decoder true (r.doc.value bare) {} = some r := by
  have hkind : plain r.resultKind = true := by
    rw [h.kind]
    exact resultTexts_plain.2.2.1
  have hone : Json.int 64 true ((Doc.num (intLiteral r.resultVersion)).value bare) 0 =
      some r.resultVersion := by
    rw [h.version]
    decide
  have hplain := (resultTexts_plain.2.1 _ h.status).1
  cases hr : r.result with
  | none =>
    have hmembers := struct_members fields (resultNames_sorted.2.2 true)
      bare_escaping ((fields.eraseIdx 2).zip [.str r.intentID,.str r.keyID,.str r.resultKind,
        .num (intLiteral r.resultVersion),.str r.sessionID,.str r.status])
      (fun m hm => List.mem_of_mem_eraseIdx (List.of_mem_zip hm).1) true {}
    rw [doc, members, hr]
    refine hmembers.trans ?_
    simp [fields, field, string_value bare_escaping, plain_printable, h.intent, h.key, h.session,
      hkind, hplain, hone, ← hr]
  | some c =>
    have hc := (h.result c hr).decodes
    have hpointer : pointer {} CompletedResultV1.decoder true (c.doc.value bare) none =
        some (some c) := by
      simpa [pointer, CompletedResultV1.doc, Doc.value] using hc
    have hmembers := struct_members fields (resultNames_sorted.2.2 true)
      bare_escaping (fields.zip [.str r.intentID,.str r.keyID,c.doc,.str r.resultKind,
        .num (intLiteral r.resultVersion),.str r.sessionID,.str r.status])
      (fun m hm => (List.of_mem_zip hm).1) true {}
    rw [doc, members, hr]
    refine hmembers.trans ?_
    simp [fields, field, string_value bare_escaping, plain_printable, h.intent, h.key, h.session,
      hkind, hplain, hone, hpointer, ← hr]

theorem CompletedResultV1.Valid.depth {c : CompletedResultV1} (h : c.Valid)
    (e : Bytes → Bytes) : (c.doc.value e).depth = 3 := by
  obtain ⟨p,r,-,-,hartifacts⟩ := h.artifacts
  simp [doc, artifactsDoc, hartifacts, ArtifactResultV1.doc, Doc.value, Value.depth, membersDepth,
    elementsDepth]

theorem TerminalResultV1.Valid.depth {r : TerminalResultV1} (h : r.Valid)
    (e : Bytes → Bytes) : (r.doc.value e).depth ≤ 4 := by
  cases hr : r.result with
  | none => simp [doc, members, hr, Doc.value, Value.depth, membersDepth]
  | some c =>
    simp [doc, members, hr, Doc.value, Value.depth, membersDepth, (h.result c hr).depth]

theorem resultNames_length : (ArtifactResultV1.names.map fun n => n.length + 4).sum = 45 ∧
    (CompletedResultV1.names.map fun n => n.length + 4).sum = 75 ∧
    ∀ b, ((TerminalResultV1.names b).map fun n => n.length + 4).sum ≤ 87 := by
  decide +kernel

theorem ArtifactResultV1.length {a : ArtifactResultV1}
    (hf : plain a.artifactFingerprint = true ∧ a.artifactFingerprint.length = 43)
    (hparty : plain a.partyID = true ∧ a.partyID.length ≤ 18)
    (hpurpose : plain a.purpose = true ∧ a.purpose.length ≤ 18) :
    (a.doc.write bare).length ≤ 132 := by
  have hlen : (a.doc.write bare).length ≤ _ := write_obj_length resultNames_sorted.1 rfl
  simp only [resultNames_length.1, List.map_cons, List.map_nil, List.sum_cons, List.sum_nil,
    Doc.write, quotePlain_length hf.1, quotePlain_length hparty.1, quotePlain_length hpurpose.1]
    at hlen
  omega

theorem CompletedResultV1.Valid.length {c : CompletedResultV1} (h : c.Valid) :
    (c.doc.write bare).length ≤ 600 := by
  obtain ⟨p,r,hp,hr,hartifacts⟩ := h.artifacts
  have hfixed := resultTexts_plain.1
  have hprimary := ArtifactResultV1.length
    (a := ⟨p,ascii "co-signer-primary",ascii "primary"⟩) hp (hfixed _ (by simp))
    (hfixed _ (by simp))
  have hrecovery := ArtifactResultV1.length
    (a := ⟨r,ascii "co-signer-recovery",ascii "recovery"⟩) hr (hfixed _ (by simp))
    (hfixed _ (by simp))
  have hslice : (c.artifactsDoc.write bare).length ≤ 267 := by
    simp only [artifactsDoc, hartifacts, List.isEmpty_cons, Bool.false_eq_true, if_false,
      Doc.write, array, writeElements_eq, List.map_cons, List.map_nil, commaJoin,
      List.length_cons, List.length_append, List.length_nil]
    omega
  have hlen : (c.doc.write bare).length ≤ _ := write_obj_length resultNames_sorted.2.1 rfl
  simp only [resultNames_length.2.1, List.map_cons, List.map_nil, List.sum_cons, List.sum_nil,
    Doc.write, quotePlain_length h.publicKey.1, quotePlain_length h.chainCode.1,
    quotePlain_length h.fingerprint.1, h.publicKey.2, h.chainCode.2, h.fingerprint.2] at hlen
  omega

theorem TerminalResultV1.Valid.length {r : TerminalResultV1} (h : r.Valid) :
    (r.doc.write bare).length ≤ 2048 := by
  have hkind : plain r.resultKind = true ∧ r.resultKind.length = 23 := by
    rw [h.kind]
    exact resultTexts_plain.2.2
  have hversion : (intLiteral r.resultVersion).length = 1 := by
    rw [h.version]
    decide
  have hplain := resultTexts_plain.2.1 _ h.status
  have hintent := quoteBare_length h.intent.1
  have hsession := quoteBare_length h.session.1
  have hresult : ((r.result.map fun c => (ascii "result",c.doc)).toList.map
      fun m => (m.2.write bare).length).sum ≤ 600 := by
    cases hr : r.result with
    | none => simp
    | some c => simpa using (h.result c hr).length
  have hbounds := h.intent.2
  have hbounds' := h.session.2
  have hnames := resultNames_length.2.2 r.result.isSome
  have hlen : (r.doc.write bare).length ≤ _ :=
    write_obj_length (resultNames_sorted.2.2 r.result.isSome) r.members_names
  simp only [members, List.map_append, List.map_cons, List.map_nil, List.sum_append, List.sum_cons,
    List.sum_nil, Doc.write, quotePlain_length h.key.1, quotePlain_length hkind.1,
    quotePlain_length hplain.1, h.key.2, hkind.2, hversion] at hlen
  omega

theorem parseCanonicalTerminalResult_write (hL : JcsLaw L) {r : TerminalResultV1}
    (h : r.validate L r.result.isSome = true) :
    parseCanonicalTerminalResult L (r.doc.write bare) =
      some (r,L.sha256 (r.doc.write bare)) := by
  have hvalid := TerminalResultV1.validate_valid h
  have hfine := hvalid.fine
  have hparse := (hfine.parses bare_escaping).parse
  have hdepth : ¬maxNestingDepth < (r.doc.value bare).depth := by
    have := hvalid.depth bare
    simp only [maxNestingDepth]
    omega
  have hlength : ¬2048 < (r.doc.write bare).length := by
    have := hvalid.length
    omega
  have hascii : printableASCII (r.doc.write bare) = true := by
    simp only [printableASCII, Bool.and_eq_true]
    exact ⟨by simp [TerminalResultV1.doc, Doc.write],hfine.printable⟩
  have hdecode : decodeClosed TerminalResultV1.decoder {} (r.doc.write bare) = some r := by
    simp [decodeClosed, hparse, hdepth, hfine.distinct bare_escaping, hvalid.decodes]
  obtain ⟨o,ho,hnames⟩ := hfine.rawObject bare_escaping
  have hfields : unmarshal rawObject none (r.doc.write bare) = some (some o) := by
    simp only [unmarshal, hparse, Option.bind_eq_bind, Option.bind_some, if_neg hdepth]
    exact ho
  have hhas : o.has (ascii "result") = r.result.isSome := by
    have hmem : ∀ b, ascii "result" ∈ TerminalResultV1.names b ↔ b = true := by decide +kernel
    rw [Bool.eq_iff_iff, mem_names_has, hnames, r.members_names, hmem]
  have hjcs : requireCanonicalJCS L (r.doc.write bare) = true := hL.requireCanonicalJCS hfine
  simp [parseCanonicalTerminalResult, hlength, hascii, hjcs, hdecode, hfields, hhas, h]

theorem canonicalTerminalResultBytes_some (hL : JcsLaw L) {r : TerminalResultV1} {raw : Bytes}
    (h : canonicalTerminalResultBytes L r = some raw) :
    r.validate L r.result.isSome = true ∧ raw = r.doc.write bare := by
  simp only [canonicalTerminalResultBytes, Option.bind_eq_bind, Option.bind_none,
    Option.ite_none_left_eq_some, Bool.not_eq_true', Bool.not_eq_false] at h
  obtain ⟨-,hvalid,hcanonical⟩ := h
  have hjcs := hL.canonicalJCS (TerminalResultV1.validate_valid hvalid).fine escape_escaping
  exact ⟨hvalid,(Option.some.inj (hjcs.symm.trans hcanonical)).symm⟩

theorem canonicalTerminalResultBytes_valid (hL : JcsLaw L) {r : TerminalResultV1}
    (hstatus : r.status ≠ terminalStatusTimedOut) (h : r.validate L r.result.isSome = true) :
    canonicalTerminalResultBytes L r = some (r.doc.write bare) := by
  have hjcs := hL.canonicalJCS (TerminalResultV1.validate_valid h).fine escape_escaping
  have hoffered : (r.status == terminalStatusTimedOut) = false := by simpa using hstatus
  simp only [canonicalTerminalResultBytes, hoffered, h, Bool.false_eq_true, if_false,
    Bool.not_true]
  exact hjcs

/-- What the co-signer writes it can read: printable, within the limit, and the same result. -/
theorem terminal_result_round_trip (hL : JcsLaw L) {r : TerminalResultV1} {raw : Bytes}
    (h : canonicalTerminalResultBytes L r = some raw) :
    printableASCII raw = true ∧ raw.length ≤ 2048 ∧
      parseCanonicalTerminalResult L raw = some (r,L.sha256 raw) := by
  obtain ⟨hvalidate,rfl⟩ := canonicalTerminalResultBytes_some hL h
  have hvalid := TerminalResultV1.validate_valid hvalidate
  refine ⟨?_,hvalid.length,parseCanonicalTerminalResult_write hL hvalidate⟩
  simp only [printableASCII, Bool.and_eq_true]
  exact ⟨by simp [TerminalResultV1.doc, Doc.write],hvalid.fine.printable⟩

/-- A failed result whose identifiers are the longest, of characters that are escaped. -/
def quotedResult : TerminalResultV1 where
  intentID := List.replicate 255 0x22
  keyID := ascii "mpc_key_11111111-2222-3333-" ++ ascii "4444-555555555555"
  resultKind := ascii "mpc-dkg-terminal-result"
  resultVersion := 1
  sessionID := List.replicate 255 0x5C
  status := terminalStatusFailed

def canonicalLibraries : Libraries :=
  { Libraries.inert with jcs := fun raw => (parse raw).map Value.canonical }

theorem quotedResult_round_trip : JcsLaw canonicalLibraries ∧
    ∃ raw, canonicalTerminalResultBytes canonicalLibraries quotedResult = some raw ∧
      raw.length ≤ 2048 ∧ parseCanonicalTerminalResult canonicalLibraries raw =
        some (quotedResult,canonicalLibraries.sha256 raw) := by
  have hL : JcsLaw canonicalLibraries := canonical_law _ rfl
  have hraw := canonicalTerminalResultBytes_valid (r := quotedResult) hL (by decide)
    (by decide +kernel)
  obtain ⟨-,hlength,hparse⟩ := terminal_result_round_trip hL hraw
  exact ⟨hL,_,hraw,hlength,hparse⟩

end CoSigner.Contract
